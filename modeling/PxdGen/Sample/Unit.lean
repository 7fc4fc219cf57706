import PxdGen.Decl.Session
/-! # A sample unit

The declarations of a compilation unit with any number of blocks, which has types without names,
nested structs, classes, references and a namespace.
-/

namespace PxdGen.Sample.Unit

open Decl Decl.Work

def field (name : String) (type : Value) : Work Value := make .field [.text name, type, .nothing]

def pointer (type : Value) : Work Value := make .pointerType [type, .nothing, .nothing]

def argument (name : Value) (type : Value) : Work Value := make .argument [name, type]

def container (form : Form) (name : String) (members : List Value) : Work Value := do
  let v ← make form [.text name]
  setField v "members" (.list members)
  pure v

def filled (v : Value) (name : String) (items : List Value) : Work Value := do
  setField v name (.list items)
  pure v

def enumeration (name : String) (values : List String) : Work Value := do
  let values ← values.mapM fun value => make .enumValue [.text value, .int 0]
  filled (← make .enumeration [.text name, .nothing]) "values" values

def typedef (name : String) (type : Value) : Work Value :=
  make .typedef [.text name, type, .nothing]

def onlyTypedef (name : String) (type : Value) : Work Value := do
  setField type "typedef_name" (.text name)
  typedef name type

def function (name : String) (returns : Value) (args : List Value) : Work Value := do
  filled (← make .function [.text name, returns]) "arguments" args

def globalVariable (name : String) (type : Value) : Work Value :=
  make .globalVariable [.text name, type, .nothing, .nothing]

def nested (k : String) (int double : Value) : Work Value := do
  let inner ← container .struct ("Inner" ++ k) [← field "z" int]
  container .struct ("St" ++ k)
    [← field "a" int, ← field "b" (← pointer double), inner, ← field "inner" inner]

/-- Structs, unions and enumerations that have no names but typedefs, and some that have. -/
def records (k : String) (int struct union : Value) : Work (List Value) := do
  let anonymous ← onlyTypedef ("Anon" ++ k) (← container .struct "" [← field "q" int])
  let unnamed ← onlyTypedef ("UnT" ++ k) (← container .union "" [← field "w" int])
  let empty ← onlyTypedef ("UnT3" ++ k) (← container .union "" [])
  let enum ← enumeration ("En" ++ k) ["A" ++ k, "B" ++ k]
  let unnamedEnum ← typedef ("EnT" ++ k) (← enumeration "" ["Z" ++ k])
  let emptyEnum ← typedef ("EnT2" ++ k) (← enumeration "" [])
  pure [struct, anonymous, union, unnamed, empty, enum, unnamedEnum, emptyEnum]

/-- Functions, classes and a namespace. -/
def others (k : String) (int double : Value) : Work (List Value) := do
  let constant ← make .cvQualifiedType [double, .flag true, .flag false]
  let free ← function ("fn" ++ k) int
    [← argument (.text "x") constant, ← argument .nothing (← make .refType [int])]
  let method ← function "m" int [← argument (.text "p") (← pointer int)]
  let cls ← container .cppClass ("Kl" ++ k) []
  let cls ← filled cls "members" [method, ← field "attr" cls]
  let emptyClass ← container .cppClass ("KlEmpty" ++ k) []
  let space ← container .nameSpace ("ns" ++ k) [← globalVariable "gv" int]
  pure [free, cls, emptyClass, space]

/-- Typedefs of what has a name, and of functions. -/
def typedefs (k : String) (int struct union : Value) : Work (List Value) := do
  let unnamed ← enumeration "" []
  setField unnamed "typedef_name" (.text "EArg")
  let callback ← filled (← make .functionType [int, .nothing]) "arguments"
    [← argument (.text "e") unnamed, ← argument (.text "u") union]
  pure [← typedef ("Ty" ++ k) int, ← typedef ("Ty2" ++ k) struct,
    ← typedef ("Cb" ++ k) (← pointer callback)]

def block (int double : Value) (i : Nat) : Work (List Value) := do
  let k := Nat.repr i
  let struct ← nested k int double
  let ints ← make .arrayType [int, .int 0, .int 3]
  let union ← container .union ("Un" ++ k) [← field "u" ints]
  pure ((← records k int struct union) ++ (← others k int double) ++
    (← typedefs k int struct union) ++ [← globalVariable ("v" ++ k) int])

def file (blocks : Nat) : Work Value := do
  let int ← make .fundamentalType [.text "int"]
  let double ← make .fundamentalType [.text "double"]
  let decls ← (List.range blocks).mapM (block int double)
  make .file [.text "hdr.h", .list decls.flatten]

/-- Whether a declaration gives a type its name. -/
def namesType (e : Entry) : Bool :=
  [Form.struct, .union, .enumeration, .cppClass, .typedef].contains e.form &&
    ((e.get? "name").getD .nothing).isTrue

end PxdGen.Sample.Unit
