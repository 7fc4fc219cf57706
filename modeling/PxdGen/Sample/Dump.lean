/-! # Sample dumps

Dumps of a header with any number of blocks of declarations. One has every form of declaration and
is for being read; the other can be written to a pxd file.
-/

namespace PxdGen.Sample.Dump

/-- The beginning of an element. The values of attributes must not need escapes. -/
def tagText (tag : String) (attrs : List (String × String)) : String :=
  "<" ++ tag ++ String.join (attrs.map fun (name, value) => " " ++ name ++ "=\"" ++ value ++ "\"")

def leaf (tag : String) (attrs : List (String × String)) : String := tagText tag attrs ++ "/>"

def parent (tag : String) (attrs : List (String × String)) (children : List String) : String :=
  tagText tag attrs ++ ">" ++ String.join children ++ "</" ++ tag ++ ">"

/-- The attributes that every declaration of a block has: a key and a name. -/
def named (i : Nat) (name : String) : List (String × String) :=
  [("id", "_" ++ name ++ Nat.repr i), ("name", name ++ Nat.repr i)]

/-- Where a declaration stands in the header. -/
def placed (line : Nat) : List (String × String) :=
  [("context", "_global"), ("location", "f0:" ++ Nat.repr line), ("file", "f0"),
    ("line", Nat.repr line)]

def sized (size : Nat) : List (String × String) := [("size", Nat.repr size), ("align", "32")]

def field (i : Nat) (name type : String) (offset : Nat) : String :=
  leaf "Field" [("id", "_" ++ name ++ Nat.repr i), ("name", name), ("type", type),
    ("offset", Nat.repr offset), ("context", "_St" ++ Nat.repr i)]

/-- The keys of members of a block. -/
def members (i : Nat) (names : List String) : String × String :=
  ("members", " ".intercalate (names.map fun name => "_" ++ name ++ Nat.repr i))

def basics : List String :=
  [leaf "File" [("id", "f0"), ("name", "hdr.h")],
    leaf "FundamentalType" ([("id", "_int"), ("name", "int")] ++ sized 32),
    leaf "FundamentalType" ([("id", "_double"), ("name", "double")] ++ sized 64),
    leaf "PointerType" ([("id", "_intp"), ("type", "_int")] ++ sized 64),
    leaf "PointerType" ([("id", "_doublep"), ("type", "_double")] ++ sized 64),
    leaf "ArrayType"
      ([("id", "_ints"), ("type", "_int"), ("min", "0"), ("max", "3u")] ++ sized 128)]

/-- A dump of blocks, each of which has declarations of the given names in the global namespace. -/
def document (blocks : Nat) (names : List String) (block : Nat → List String) : String :=
  let globals := (List.range blocks).map fun i => (members i names).2
  parent "GCC_XML" [("cvs_revision", "1.127")]
    (leaf "Namespace" [("id", "_global"), ("name", "::"), ("members", " ".intercalate globals)] ::
      basics ++ (List.range blocks).flatMap block)

def enumeration (i : Nat) (line : Nat) : String :=
  parent "Enumeration" (named i "En" ++ placed line ++ sized 32)
    [leaf "EnumValue" [("name", "A" ++ Nat.repr i), ("init", "0")],
      leaf "EnumValue" [("name", "B" ++ Nat.repr i), ("init", "1")]]

def function (i : Nat) (line : Nat) : String :=
  parent "Function" (named i "fn" ++ placed line ++ [("returns", "_int"), ("extern", "1")])
    [leaf "Argument" [("name", "x"), ("type", "_double")], leaf "Argument" [("type", "_intp")]]

def readBlock (i : Nat) : List String :=
  let line := 10 * i
  [leaf "Typedef" (named i "Ty" ++ placed line ++ [("type", "_St" ++ Nat.repr i)]),
    leaf "Struct" (named i "St" ++ placed (line + 1) ++ sized 96 ++ [members i ["a", "b"]]),
    field i "a" "_int" 0, field i "b" "_doublep" 32,
    leaf "Class" (named i "Cl" ++ placed (line + 2) ++ sized 32 ++ [members i ["c", "m"],
      ("bases", "_St" ++ Nat.repr i)]),
    field i "c" "_int" 96,
    leaf "Method" [("id", "_m" ++ Nat.repr i), ("name", "m"), ("returns", "_int")],
    leaf "Union" (named i "Un" ++ placed (line + 3) ++ sized 128 ++ [members i ["u"]]),
    field i "u" "_ints" 0,
    enumeration i (line + 4), function i (line + 5),
    leaf "Variable" (named i "var" ++ placed (line + 6) ++ [("type", "_int")])]

def forReading (blocks : Nat) : String :=
  document blocks ["Ty", "St", "Cl", "Un", "En", "fn", "var"] readBlock

/-- A block for being written. The nested struct has no place of its own. -/
def writtenBlock (i : Nat) : List String :=
  let line := 10 * i
  let key (name : String) : String := "_" ++ name ++ Nat.repr i
  [leaf "Struct" (named i "St" ++ placed line ++ sized 128 ++
      [members i ["a", "b", "Inner", "inner"]]),
    field i "a" "_int" 0, field i "b" "_doublep" 32, field i "inner" (key "Inner") 96,
    leaf "Struct" (named i "Inner" ++ [("context", key "St")] ++ sized 32 ++ [members i ["z"]]),
    field i "z" "_int" 0,
    leaf "Union" (named i "Un" ++ placed (line + 1) ++ sized 128 ++ [members i ["u"]]),
    field i "u" "_ints" 0,
    enumeration i (line + 2), function i (line + 3),
    leaf "Typedef" (named i "Ty" ++ placed (line + 4) ++ [("type", key "St")]),
    leaf "Typedef" (named i "Cb" ++ placed (line + 5) ++ [("type", key "callbackp")]),
    leaf "PointerType" ([("id", key "callbackp"), ("type", key "callback")] ++ sized 64),
    parent "FunctionType" [("id", key "callback"), ("returns", "_int")]
      [leaf "Argument" [("name", "e"), ("type", key "En")]],
    leaf "Variable" (named i "v" ++ placed (line + 6) ++ [("type", "_int")])]

def forWriting (blocks : Nat) : String :=
  document blocks ["St", "Un", "En", "fn", "Ty", "Cb", "v"] writtenBlock

end PxdGen.Sample.Dump
