import PxdGen.Decl.Session
/-! # Mentions and definitions

The types and members that declarations mention become expressions and C types, and the toplevel
declarations become the statements that define them. A type is written by its name where it has one.
-/

namespace PxdGen.Decl

open Work

def namedType (name : Value) : Work Value := do
  build .typeName [← build .name [name, Pxd.single .param]]

def typedName (type name : Value) : Work Value := build .cName [type, name]

def declaration (type name : Value) : Work Value := do build .exprStmt [← typedName type name]

def argumentList (args : List Value) : Work Value :=
  build .arguments [.list args, .nothing, .nothing, .list []]

/-- An integer that may be given as a text. -/
def asInteger (v : Value) : Work Int :=
  match v with
  | .int n => pure n
  | .flag b => pure (if b then 1 else 0)
  | .text s =>
    match Text.integer? s with
    | some n => pure n
    | none => throw .malformed
  | _ => throw .wrongSort

section Step

variable (sub : Value → Work Value)

/-- The name of a struct, or of the typedef of one that has none. -/
def structName (v : Value) : Work Value := do
  let name ← field v "name"
  match ← origin with
  | .dump => pure name
  | .unit => if name.isTrue then pure name else pure ((← field? v "typedef_name").getD name)

/-- What has no name but a typedef takes the name of the typedef. -/
def adoptTypedefName (arg : Value) : Work Unit := do
  let type ← field arg "typ"
  if !(← field type "name").isTrue then
    match ← field? type "typedef_name" with
    | some name => setField type "name" name
    | none => pure ()

def qualify (type constant volatile : Value) : Work Value :=
  match type with
  | .node kind fields =>
    pure (.node kind (Value.putField "volatile" volatile (Value.putField "const" constant fields)))
  | _ => throw .missingField

/-- A function type or a function, as the arguments and the result of a pxd node. -/
def mentionSignature (v : Value) (each : Value → Work Unit) : Work (Value × Value) := do
  let args ← (← fieldItems v "arguments").mapM fun arg => do each arg; sub arg
  let args ← argumentList args
  let returns ← sub (← field v "returns")
  pure (args, returns)

def mentionFunction (v : Value) : Work Value := do
  let name ← field v "name"
  let (args, returns) ← mentionSignature sub v fun _ => pure ()
  build .cFunctionDecl [name, args, returns, .nothing]

/-- What stands for a declaration where it is mentioned, or nothing; `sub` does this for the
declarations that it mentions itself. -/
def mentionStep (v : Value) : Work Value := do
  let origin ← origin
  match (← get).graph.form? v, origin with
  | some .field, _ => do
    let name ← field v "name"
    declaration (← sub (← field v "typ")) name
  | some .enumValue, _ => do
    build .exprStmt [← build .name [← field v "name", Pxd.single .param]]
  | some .struct, _ => do namedType (← structName v)
  | some .enumeration, _ | some .union, _ | some .typedef, _ | some .fundamentalType, _ => do
    namedType (← field v "name")
  | some .argument, _ => do
    let name ← field v "name"
    let type ← sub (← field v "typ")
    typedName type (match name with
      | .nothing => .text ""
      | name => name)
  | some .pointerType, _ => do build .pointer [← sub (← field v "typ")]
  | some .arrayType, _ => do
    let first ← asInteger (← field v "min")
    let last ← asInteger (← field v "max")
    build .array [← sub (← field v "typ"), .int (last - first + 1)]
  | some .cvQualifiedType, .dump => do sub (← field v "typ")
  | some .cvQualifiedType, .unit => do
    let type ← sub (← field v "typ")
    qualify type (← field v "const") (← field v "volatile")
  | some .functionType, _ => do
    let (args, returns) ← mentionSignature sub v fun arg => do
      if origin == .unit then adoptTypedefName arg
    build .cFunctionType [args, returns]
  | some .refType, .unit => do build .reference [← sub (← field v "typ")]
  | some .cppClass, .unit => do namedType (← field v "name")
  | some .function, .unit => mentionFunction sub v
  | _, _ => pure .nothing

end Step

def mention : Nat → Value → Work Value
  | 0, _ => throw .endless
  | fuel + 1, v => do
    match ← mentionStep (mention fuel) v with
    | .nothing => do
      if (← origin) == .dump then say ("Unhandled node in translate:  " ++ (← shown v))
      pure .nothing
    | w => pure w

section Toplevel

variable (sub : Value → Work Value)

/-- Statements, or `pass` if there are none. -/
def bodyOf (stmts : List Value) : Value :=
  .list (if stmts.isEmpty then [Pxd.single .passStmt] else stmts)

def definition (kind : Pxd.Kind) (name : Value) (stmts : List Value) : Work Value :=
  build kind [name, bodyOf stmts]

def cdef (v : Value) : Work Value := build .cdefDecl [.list [], v]

/-- A container with the statements for what it holds. -/
def defineAs (kind : Pxd.Kind) (v : Value) (held : String) (keep : Value → Bool) :
    Work (List Value) := do
  let name ← field v "name"
  let stmts ← (← fieldItems v held).mapM sub
  pure [← cdef (← definition kind name (stmts.filter keep))]

/-- The pxd kind of a type that a typedef can define together with itself, and where it holds
what. -/
def bodyKind? : Form → Option (Pxd.Kind × String)
  | .enumeration => some (.enumDef, "values")
  | .struct => some (.structDef, "members")
  | .union => some (.unionDef, "members")
  | _ => none

/-- A typedef. In a unit, one of a type without a name defines that type under its own name. -/
def defineTypedef (v : Value) : Work (List Value) := do
  let name ← field v "name"
  let plain : Work Value := do declaration (← sub (← field v "typ")) name
  let type ← field v "typ"
  let value ← match ← origin, ((← get).graph.form? type).bind bodyKind? with
    | .unit, some (kind, held) => do
      if (← field type "name").isTrue then plain
      else definition kind name (← (← fieldItems type held).mapM sub)
    | _, _ => plain
  pure [← build .cTypedefDecl [value]]

/-- The statements for a toplevel declaration; `visit` does this for the members of a namespace. -/
def defineStep (visit : Value → Work (List Value)) (v : Value) : Work (List Value) := do
  let origin ← origin
  let isStatement (w : Value) : Bool := origin == .dump || w.isOf .stmt
  match (← get).graph.form? v, origin with
  | some .struct, _ => defineAs sub .structDef v "members" isStatement
  | some .union, _ => defineAs sub .unionDef v "members" fun _ => true
  | some .enumeration, _ => defineAs sub .enumDef v "values" fun _ => true
  | some .function, _ => do pure [← mentionFunction sub v]
  | some .globalVariable, _ => do
    let name ← field v "name"
    pure [← declaration (← sub (← field v "typ")) name]
  | some .typedef, _ => defineTypedef sub v
  | some .cppClass, .unit => defineAs sub .cppClassDef v "members" isStatement
  | some .nameSpace, .unit => do
    let stmts ← (← fieldItems v "members").mapM visit
    pure stmts.flatten
  | _, .dump => do
    say ("unhandled node in generic_visit: " ++ (← shown v))
    pure []
  | _, .unit => pure []

end Toplevel

def define (fuel : Nat) : Nat → Value → Work (List Value)
  | 0, _ => throw .endless
  | n + 1, v => defineStep (mention fuel) (define fuel n) v

def fileOf (location : Value) : Work Value := do
  match ← items location with
  | first :: _ => pure first
  | [] => throw .outOfRange

/-- Whether a declaration of a dump comes from another file than the header. -/
def isElsewhere (header v : Value) : Work Bool := do
  let location ← field v "location"
  match ← origin, location with
  | .unit, _ | _, .nothing => pure false
  | .dump, _ => do
    match ← fileOf location, header with
    | .text path, .text header => pure (!path.endsWith header)
    | .text _, _ => throw .wrongSort
    | _, _ => throw .missingField

def moduleOf (v header : Value) : Work Value := do
  let fuel ← steps
  let stmts ← (← items v).mapM fun item => do
    if ← isElsewhere header item then pure [] else define fuel fuel item
  let block ← build .externFrom [header, .list stmts.flatten]
  build .moduleNode [.list [← cdef block]]

structure Draft where
  filename : String
  module : Value

/-- The module for the toplevel declarations of a header, to be written to a file with a stem. -/
def draft (v header stem : Value) : Work Draft := do
  let module ← moduleOf v header
  match stem with
  | .text name => pure ⟨name ++ ".pxd", module⟩
  | _ => throw .wrongSort

def Draft.code (d : Draft) : Work String := rendering (Pxd.renderModule d.module)

end PxdGen.Decl
