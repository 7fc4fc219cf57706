import PxdGen.Decl.Result
import PxdGen.Text.Name
/-! # Elements of a dump

A dump has one element for each declaration, with attributes that hold its name and the keys of
other declarations. The arguments of a function and the values of an enumeration are elements
within it.
-/

namespace PxdGen.Dump

open Decl Decl.Work

def need (attrs : Value) (name : String) : Work Value :=
  match attrs with
  | .record fields =>
    match fields.lookup name with
    | some v => pure v
    | none => throw (.missingKey (some name))
  | _ => throw .wrongSort

/-- An attribute that may be missing. -/
def given? (attrs : Value) (name : String) : Work (Option Value) :=
  match attrs with
  | .record fields => pure (fields.lookup name)
  | _ => throw .missingField

def given (attrs : Value) (name : String) : Work Value := do
  pure ((← given? attrs name).getD .nothing)

def wordsOf (v : Value) : Work (List String) :=
  match v with
  | .text s => pure (Text.words s)
  | _ => throw .missingField

/-- The words of an attribute; none if it is missing. -/
def givenWords (attrs : Value) (name : String) : Work (List String) := do
  wordsOf ((← given? attrs name).getD (.text ""))

def textList (words : List String) : Value := .list (words.map .text)

/-- The name that is made from a mangled one. -/
def demangled (mangled : Value) : Work Value :=
  match mangled with
  | .text s =>
    match Text.identifier? s with
    | some name => pure (.text name)
    | none => throw .outOfRange
  | _ => throw .missingField

def wordName (name : Value) : Work Value :=
  match name with
  | .text s =>
    match Text.word? s with
    | some word => pure (.text word)
    | none => pure .nothing
  | _ => throw .wrongSort

def readIgnored (attrs : Value) : Work Value := do
  let name ← match ← given attrs "name" with
    | .nothing =>
      match ← given attrs "mangled" with
      | .nothing => pure (.text "UNDEFINED")
      | mangled => demangled mangled
    | name => pure name
  make .ignored [name]

/-- The revision is a list of numbers with dots between them. -/
def readRevision (attrs : Value) : Work Value := do
  match ← need attrs "cvs_revision" with
  | .text text =>
    match (Text.pieces '.' text).mapM Text.integer? with
    | none => throw .malformed
    | some revision =>
      modify fun s => { s with revision := some revision }
      pure .nothing
  | _ => throw .missingField

def openSection (attrs : Value) : Work Value := do
  let key ← keyOf (← need attrs "name")
  modify fun s =>
    { s with sections := s.sections.insert key (.list []), openText := some [],
             openKey := some key }
  pure .nothing

def addText (v : Value) : Work Unit := do
  let s ← get
  match s.openText with
  | none => pure ()
  | some pieces =>
    let pieces := pieces ++ [v]
    let sections := match s.openKey with
      | some key => s.sections.insert key (.list pieces)
      | none => s.sections
    set { s with openText := some pieces, sections := sections }

def setSection (name v : Value) : Work Unit := do
  let key ← keyOf name
  modify fun s =>
    { s with sections := s.sections.insert key v,
             openKey := if s.openKey == some key then none else s.openKey }

def readNamespace (attrs : Value) : Work Value := do
  let name ← need attrs "name"
  let members ← wordsOf (← need attrs "members")
  make .nameSpace [name, textList members]

def readFile (attrs : Value) : Work Value := do make .file [← need attrs "name"]

def readVariable (attrs : Value) : Work Value := do
  let name ← need attrs "name"
  let typ ← need attrs "type"
  let context ← need attrs "context"
  make .globalVariable [name, typ, context, ← given attrs "init"]

def readTypedef (attrs : Value) : Work Value := do
  let name ← need attrs "name"
  let typ ← need attrs "type"
  let context ← need attrs "context"
  make .typedef [name, typ, context]

/-- Fundamental types have a size, but for void. -/
def readFundamentalType (attrs : Value) : Work Value := do
  let name ← need attrs "name"
  let size ← if name.same (.text "void") then pure (.text "") else need attrs "size"
  let align ← need attrs "align"
  make .fundamentalType [name, size, align]

def readPointerType (attrs : Value) : Work Value := do
  let typ ← need attrs "type"
  let size ← need attrs "size"
  let align ← need attrs "align"
  make .pointerType [typ, size, align]

/-- An array index, which may end in letters for its type. -/
def readIndex (v : Value) : Work Value :=
  match v with
  | .text s =>
    match Text.integer? (Text.trimEnd (fun c => c == 'l' || c == 'u') s) with
    | some n => pure (.int n)
    | none => throw .malformed
  | _ => throw .missingField

/-- The last index of an array; there is none below the first if the array has no size. -/
def lastIndex : Value → Value
  | .text "ffffffffffffffff" | .text "" => .text "-1"
  | v => v

def readArrayType (attrs : Value) : Work Value := do
  let typ ← need attrs "type"
  let first ← need attrs "min"
  let last ← need attrs "max"
  make .arrayType [typ, ← readIndex first, ← readIndex (lastIndex last)]

def readQualifiedType (attrs : Value) : Work Value := do
  let typ ← need attrs "type"
  make .cvQualifiedType [typ, ← given attrs "const", ← given attrs "volatile"]

def readFunction (form : Form) (attrs : Value) : Work Value := do
  let name ← need attrs "name"
  let returns ← need attrs "returns"
  let context ← need attrs "context"
  let attributes ← givenWords attrs "attributes"
  make form [name, returns, context, textList attributes, ← given attrs "extern"]

def readFunctionType (attrs : Value) : Work Value := do
  let returns ← need attrs "returns"
  make .functionType [returns, textList (← givenWords attrs "attributes")]

def readArgument (attrs : Value) : Work Value := do
  match ← top with
  | .nothing => pure .nothing
  | parent => do
    let typ ← need attrs "type"
    let arg ← make .argument [typ, ← given attrs "name"]
    add "add_argument" parent arg
    pure .nothing

/-- An enumeration whose name is no word has none. -/
def readEnumeration (attrs : Value) : Work Value := do
  let name ← wordName (← need attrs "name")
  let size ← need attrs "size"
  let align ← need attrs "align"
  make .enumeration [name, size, align]

def readEnumValue (attrs : Value) : Work Value := do
  match ← top with
  | .nothing => pure .nothing
  | parent => do
    let name ← need attrs "name"
    let value ← make .enumValue [name, ← need attrs "init"]
    add "add_value" parent value
    pure .nothing

/-- A struct, a class or a union, where `base` reads the key of a base. -/
def readContainer (form : Form) (base : String → String) (attrs : Value) : Work Value := do
  let name ← match ← given attrs "name" with
    | .nothing => demangled (← need attrs "mangled")
    | name => pure name
  let bases ← givenWords attrs "bases"
  let members ← givenWords attrs "members"
  let context ← need attrs "context"
  let align ← need attrs "align"
  make form
    [name, align, textList members, context, textList (bases.map base), ← given attrs "size"]

/-- The key of a base class without the word that says how it is inherited. -/
def baseKey (base : String) : String := Text.without "protected:" base

def readField (attrs : Value) : Work Value := do
  let name ← need attrs "name"
  let typ ← need attrs "type"
  let context ← need attrs "context"
  make .field [name, typ, context, ← given attrs "bits", ← given attrs "offset"]

/-- The reader of an element, if there is one. -/
def reader? (origin : Origin) (tag : String) : Option (Value → Work Value) :=
  match tag with
  | "Ignored" | "Method" | "Constructor" | "Destructor" | "OperatorMethod" | "Base" | "Converter"
  | "MethodType" | "OffsetType" => some readIgnored
  | "Ellipsis" => some fun _ => pure .nothing
  | "Namespace" => some readNamespace
  | "File" => some readFile
  | "Variable" => some readVariable
  | "PointerType" | "ReferenceType" => some readPointerType
  | "ArrayType" => some readArrayType
  | "CvQualifiedType" => some readQualifiedType
  | "Function" => some (readFunction .function)
  | "FunctionType" => some readFunctionType
  | "OperatorFunction" => some (readFunction .operatorFunction)
  | "Argument" => some readArgument
  | "Enumeration" => some readEnumeration
  | "EnumValue" => some readEnumValue
  | "Struct" => some (readContainer .struct id)
  | "Class" => some (readContainer .struct baseKey)
  | "Union" => some (readContainer .union id)
  | "Field" => some readField
  | _ =>
    match origin, tag with
    | .dump, "GCC_XML" => some readRevision
    | .dump, "CPP_DUMP" => some openSection
    | .dump, "Characters" => some fun attrs => do addText attrs; pure .nothing
    | .dump, "Typedef" => some readTypedef
    | .dump, "FundamentalType" => some readFundamentalType
    | .dump, _ => none
    | .unit, tag => if cursorTags.contains tag then some fun _ => throw .wrongSort else none
where
  /-- tags that are read from a cursor and not from attributes -/
  cursorTags : List String :=
    ["TRANSLATION_UNIT", "NAMESPACE", "TYPEDEF_DECL", "STRUCT_DECL", "UNION_DECL", "FIELD_DECL",
      "ENUM_DECL", "ENUM_CONSTANT_DECL", "FUNCTION_DECL", "CXX_METHOD", "CONSTRUCTOR", "VAR_DECL",
      "CLASS_DECL", "CLASS_TEMPLATE", "FUNCTION_TEMPLATE", "PARM_DECL", "TYPE_REF",
      "TEMPLATE_TYPE_PARAMETER"]

/-- Elements that have elements of their own. -/
def hasChildren (tag : String) : Bool :=
  ["Enumeration", "Function", "FunctionType", "OperatorFunction", "Method", "Constructor",
    "Destructor", "OperatorMethod"].contains tag

/-- Enters a new declaration in the table, under its own key or a new one. -/
def enter (attrs : Value) (v : Value) : Work Unit := do
  match ← given attrs "location" with
  | .nothing => pure ()
  | location => setField v "location" location
  match ← given attrs "id", v with
  | .nothing, .link id => register (.serial id) v
  | .nothing, _ => pure ()
  | key, _ => register (← keyOf key) v

def startElement (tag : String) (attrs : Value) : Work Unit := do
  let v ← match reader? .dump tag with
    | some read => read attrs
    | none => do
      say ("Unhandled element `" ++ tag ++ "`.")
      pure .nothing
  match v with
  | .nothing => pure ()
  | v => enter attrs v
  if hasChildren tag then push v

def endElement (tag : String) : Work Unit := do
  if hasChildren tag then let _ ← pop
  modify fun s => { s with openText := none, openKey := none }

end PxdGen.Dump
