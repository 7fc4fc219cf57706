import PxdGen.Decl.Member
/-! # Resolving keys

A declaration that has just been read refers to others by their keys. When everything has been
read, the keys are replaced by the declarations that they stand for. What has to be replaced
depends on the form; a unit links most of its declarations while it is read.
-/

namespace PxdGen.Decl

open Work

inductive KeyPlace where
  | one (name : String)
  /-- a list that is resolved as a whole -/
  | many (name : String)
  /-- a list that is resolved item by item -/
  | each (name : String)
  /-- the types of the arguments -/
  | arguments
deriving Repr

/-- The places of keys in a declaration, in the order in which they are resolved; `none` for forms
that cannot be resolved. -/
def keyPlaces? (origin : Origin) (form : Form) : Option (List KeyPlace) :=
  match form, origin with
  | .file, _ | .fundamentalType, _ | .enumeration, _ | .enumValue, _ | .macroDef, _
  | .ignored, _ => some []
  | .pointerType, _ | .cvQualifiedType, _ => some [.one "typ"]
  | .functionType, _ => some [.one "returns", .arguments]
  | .operatorFunction, _ => some [.one "returns", .one "context", .arguments]
  | .nameSpace, .dump => some [.each "members"]
  | .globalVariable, .dump | .typedef, .dump | .field, .dump => some [.one "typ", .one "context"]
  | .arrayType, .dump => some [.one "typ"]
  | .function, .dump => some [.one "returns", .one "context", .arguments]
  | .struct, .dump | .union, .dump => some [.many "members", .many "bases", .one "context"]
  | .nameSpace, .unit | .globalVariable, .unit | .typedef, .unit | .field, .unit | .arrayType, .unit
  | .function, .unit | .struct, .unit | .union, .unit => some []
  | _, _ => none

/-- The form whose places are meant by a name. -/
def resolvedAs? (origin : Origin) : String → Option Form
  | "ReferenceType" => some .pointerType
  | "Method" | "Constructor" | "Destructor" | "OperatorMethod" => some .ignored
  | label => Form.ofLabel? origin label

/-- Replaces the items of a list from a position on. -/
def resolveEach (v : Value) (name : String) : Nat → List Value → Work Unit
  | _, [] => pure ()
  | i, key :: rest => do
    let w ← find key
    match ← field v name with
    | .list items => setField v name (.list (items.set i w))
    | _ => throw .wrongSort
    resolveEach v name (i + 1) rest

def resolvePlace (v : Value) : KeyPlace → Work Unit
  | .one name => do setField v name (← find (← field v name))
  | .many name => do setField v name (.list (← (← fieldItems v name).mapM find))
  | .each name => do resolveEach v name 0 (← fieldItems v name)
  | .arguments => resolveArguments find v

def resolve (v : Value) (places : List KeyPlace) : Work Unit := places.forM (resolvePlace v)

/-- Gives the innermost type of a declaration another name, if it is a fundamental type. -/
def renameType : Nat → Value → Value → Work Unit
  | 0, _, _ => throw .endless
  | fuel + 1, v, name => do
    match (← get).graph.form? v with
    | some .fundamentalType => setField v "name" name
    | some .field | some .pointerType | some .arrayType | some .refType | some .argument => do
      renameType fuel (← field v "typ") name
    | some .function | some .functionType | some .operatorFunction => do
      renameType fuel (← field v "returns") name
    | _ => pure ()

end PxdGen.Decl
