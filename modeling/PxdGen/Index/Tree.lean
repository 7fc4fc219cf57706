import PxdGen.Index.Kind
/-! # Compilation units

What an index knows of a source file: a tree of cursors, each with a type, and the types with their
parts. Cursors and types are numbered, and refer to one another by their numbers. A cursor may be
null, and the declaration of a type that has none is a cursor of its own kind.
-/

namespace PxdGen.Index

inductive Comment where
  | mk (kind : Int) (text : String) (children : List Comment)
deriving Inhabited, Repr

/-- A token with the cursor that it belongs to. -/
structure TokenData where
  kind : Int
  text : String
  cursor : Option Nat := none
  line : UInt32 := 0
  column : UInt32 := 0
deriving Repr

/-- A position in a file, which is counted in words of 32 bits. -/
structure Location where
  file : Option String := none
  line : UInt32 := 0
  column : UInt32 := 0
  offset : UInt32 := 0
deriving DecidableEq, Repr

structure Range where
  start : Location
  stop : Location
deriving DecidableEq, Repr

/-- The places of a token: it begins where it stands, and ends behind its text. -/
def TokenData.range (file : String) (t : TokenData) : Range :=
  ⟨{ file := some file, line := t.line, column := t.column },
    { file := some file, line := t.line, column := t.column + .ofNat t.text.length }⟩

structure CursorData where
  kind : Int
  spelling : String := ""
  display : String := ""
  hash : Int := 0
  location : Location := {}
  stop : Location := {}
  type : Option Nat := none
  underlying : Option Nat := none
  enumType : Option Nat := none
  enumValue : Int := 0
  children : List Nat := []
  arguments : List Nat := []
  canonical : Option Nat := none
  definition : Option Nat := none
  semanticParent : Option Nat := none
  lexicalParent : Option Nat := none
  usr : String := ""
  objcEncoding : String := ""
  isStatic : Bool := false
  brief : Option String := none
  raw : Option String := none
  comment : Comment := .mk 0 "" []
  tokens : List TokenData := []
deriving Repr

structure TypeData where
  kind : Int := 0
  isConst : Bool := false
  isVolatile : Bool := false
  isRestrict : Bool := false
  isVariadic : Bool := false
  isPod : Bool := false
  declaration : Option Nat := none
  pointee : Option Nat := none
  element : Option Nat := none
  count : Int := -1
  result : Option Nat := none
  arguments : List (Option Nat) := []
  canonical : Option Nat := none
deriving Repr

structure FixItData where
  range : Range
  text : String
deriving Repr

structure DiagnosticData where
  severity : Int := 0
  spelling : String := ""
  category : String := ""
  option : String := ""
  disabling : String := ""
  location : Location := {}
  ranges : List Range := []
  fixIts : List FixItData := []
deriving Repr

structure InclusionData where
  file : Option String := none
  source : Option String := none
  line : UInt32 := 0
  depth : UInt32 := 0
deriving Repr

/-- A piece of a completion, which may hold a whole completion itself. -/
structure ChunkData where
  kind : Int
  text : String
  nested : Option Nat := none
deriving Repr

structure CompletionData where
  chunks : List ChunkData := []
  priority : Int := 0
  availability : Int := 0
  brief : Option String := none
deriving Repr

structure CompletionsData where
  /-- kinds of cursors with the numbers of completions -/
  results : List (Int × Nat) := []
  diagnostics : Nat := 0
deriving Repr

structure Tree where
  file : String := "t.h"
  root : Nat := 0
  cursors : Array CursorData := #[]
  types : Array TypeData := #[]
  diagnostics : Array DiagnosticData := #[]
  inclusions : List InclusionData := []
  saveStatus : Int := 0
  tokens : List TokenData := []
  completions : Option CompletionsData := none
  completionStrings : Array CompletionData := #[]
  cursorKinds : KindTable := Index.cursorKinds
  typeKinds : KindTable := Index.typeKinds
deriving Repr

inductive Cursor where
  | numbered (index : Nat)
  /-- the declaration of what has none -/
  | undeclared
  | null
deriving DecidableEq, Repr

def Cursor.number : Cursor → Int
  | .numbered i => i
  | .null => -1
  | .undeclared => -2

/-- A type; one that is not there is invalid. -/
abbrev TypeRef := Option Nat

namespace Tree

variable (tree : Tree)

def cursor (c : Cursor) : CursorData :=
  match c with
  | .numbered i => (tree.cursors[i]?).getD { kind := 70 }
  | .undeclared => { kind := 71 }
  | .null => { kind := 70 }

def type (t : TypeRef) : TypeData := (t.bind (tree.types[·]?)).getD {}

def kind (c : Cursor) : Except Fault Kind := tree.cursorKinds.find (tree.cursor c).kind

def typeKind (t : TypeRef) : Except Fault Kind := tree.typeKinds.find (tree.type t).kind

/-- Only declarations have a spelling. -/
def spelling (c : Cursor) : Except Fault (Option String) := do
  let kind ← tree.kind c
  .ok (if kind.isDeclaration then some (tree.cursor c).spelling else none)

def declaration (t : TypeRef) : Cursor :=
  match (tree.type t).declaration with
  | some i => .numbered i
  | none => .undeclared

def canonicalType (t : TypeRef) : TypeRef := (tree.type t).canonical.or t

def elementType (t : TypeRef) : Except Fault TypeRef := do
  let element := (tree.type t).element
  let kind ← tree.typeKind element
  if kind.name == "INVALID" then .error .noElementType else .ok element

def elementCount (t : TypeRef) : Except Fault Int :=
  let count := (tree.type t).count
  if count < 0 then .error .noElements else .ok count

def enumType (c : Cursor) : Except Fault TypeRef := do
  let kind ← tree.kind c
  if kind.name == "ENUM_DECL" then .ok (tree.cursor c).enumType else .error .unmet

/-- The inclusions of other files. Each of them tells the file that was included last. -/
def otherInclusions : List InclusionData :=
  let last := tree.inclusions.getLast?.bind (·.file)
  (tree.inclusions.filter (0 < ·.depth)).map fun i => { i with file := last }

def isUnsigned (kind : Kind) : Bool :=
  ["CHAR_U", "UCHAR", "CHAR16", "CHAR32", "USHORT", "UINT", "ULONG", "ULONGLONG",
    "UINT128"].contains kind.name

/-- The value of a constant of an enumeration; it wraps if its type has no sign. -/
def enumValue (c : Cursor) : Except Fault Int := do
  let kind ← tree.kind c
  if kind.name != "ENUM_CONSTANT_DECL" then .error .unmet
  else
    let type := (tree.cursor c).type
    let type ← if (← tree.typeKind type).name == "ENUM" then tree.enumType (tree.declaration type)
      else .ok type
    let value := (tree.cursor c).enumValue
    .ok (if isUnsigned (← tree.typeKind type) then value % Int.pow 2 64 else value)

end Tree

end PxdGen.Index
