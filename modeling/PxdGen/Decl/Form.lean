import PxdGen.Value
/-! # Forms of declarations

Declarations come from one of two origins: an XML dump of what a compiler has read, or the cursors
of a compilation unit. Both know the same forms, apart from classes and references, which only
units have. A form has named fields. Its signature says which of them are given when a declaration
is made, in which order, and which others it starts with.
-/

namespace PxdGen.Decl

inductive Origin where
  | dump
  | unit
deriving DecidableEq, Repr

def Origin.label : Origin → String
  | .dump => "cwrap.frontends.gccxml.c_ast"
  | .unit => "cwrap.frontends.clang.c_ast"

inductive Form where
  | anyDecl
  | typedef
  | fundamentalType
  | cvQualifiedType
  | ignored
  | field
  | struct
  | union
  | enumValue
  | enumeration
  | pointerType
  | arrayType
  | argument
  | function
  | functionType
  | operatorFunction
  | macroDef
  | synonym
  | file
  | nameSpace
  | globalVariable
  | cppClass
  | classTemplate
  | refType
deriving DecidableEq, Repr, Inhabited

namespace Form

def label : Form → String
  | .anyDecl => "C_ASTNode"
  | .typedef => "Typedef"
  | .fundamentalType => "FundamentalType"
  | .cvQualifiedType => "CvQualifiedType"
  | .ignored => "Ignored"
  | .field => "Field"
  | .struct => "Struct"
  | .union => "Union"
  | .enumValue => "EnumValue"
  | .enumeration => "Enumeration"
  | .pointerType => "PointerType"
  | .arrayType => "ArrayType"
  | .argument => "Argument"
  | .function => "Function"
  | .functionType => "FunctionType"
  | .operatorFunction => "OperatorFunction"
  | .macroDef => "Macro"
  | .synonym => "Alias"
  | .file => "File"
  | .nameSpace => "Namespace"
  | .globalVariable => "Variable"
  | .cppClass => "Class"
  | .classTemplate => "ClassTemplate"
  | .refType => "RefType"

def all : List Form :=
  [.anyDecl, .typedef, .fundamentalType, .cvQualifiedType, .ignored, .field, .struct, .union,
    .enumValue, .enumeration, .pointerType, .arrayType, .argument, .function, .functionType,
    .operatorFunction, .macroDef, .synonym, .file, .nameSpace, .globalVariable, .cppClass,
    .classTemplate, .refType]

/-- Whether declarations of an origin can have a form. -/
def isOf (form : Form) (origin : Origin) : Bool :=
  match form with
  | .cppClass | .classTemplate | .refType => origin == .unit
  | _ => true

def ofLabel? (origin : Origin) (label : String) : Option Form :=
  all.find? fun form => form.label == label && form.isOf origin

/-- Structs and unions, which may be nested in one another. -/
def isContainer : Form → Bool
  | .struct | .union => true
  | _ => false

/-- Forms of the declarations that are handed on when everything has been read. -/
def isInteresting (origin : Origin) : Form → Bool
  | .typedef | .struct | .enumeration | .union | .function | .globalVariable | .nameSpace | .file =>
    true
  | .cppClass | .classTemplate => origin == .unit
  | _ => false

/-- Properties that follow from the fields. -/
def computed : Form → List String
  | .struct | .union | .enumeration => ["opaque"]
  | .pointerType => ["refs"]
  | _ => []

/-- How a declaration is made. -/
structure Signature where
  required : List String
  optional : List String := []
  /-- given fields that are not kept -/
  dropped : List String := []
  /-- given fields that start as an empty list if they are not given -/
  emptied : List String := []
  /-- fields that start as an empty list -/
  lists : List String := []

def signature (origin : Origin) (form : Form) : Signature :=
  match form, origin with
  | .anyDecl, _ => { required := [] }
  | .typedef, _ => { required := ["name", "typ", "context"] }
  | .fundamentalType, .dump => { required := ["name", "size", "align"] }
  | .fundamentalType, .unit => { required := ["name"] }
  | .cvQualifiedType, _ => { required := ["typ", "const", "volatile"] }
  | .ignored, _ => { required := ["name"], lists := ["arguments"] }
  | .field, .dump => { required := ["name", "typ", "context", "bits", "offset"] }
  | .field, .unit =>
    { required := ["name", "typ", "context"], optional := ["bits", "offset"],
      dropped := ["bits", "offset"] }
  | .struct, .dump | .union, .dump =>
    { required := ["name", "align", "members", "context", "bases", "size"] }
  | .struct, .unit | .cppClass, _ | .classTemplate, _ =>
    { required := ["name"], optional := ["members", "context"], emptied := ["members"] }
  | .union, .unit =>
    { required := ["name"], optional := ["align", "members", "context", "bases", "size"],
      dropped := ["align", "bases", "size"], emptied := ["members"] }
  | .enumValue, _ => { required := ["name", "value"] }
  | .enumeration, .dump => { required := ["name", "size", "align"], lists := ["values"] }
  | .enumeration, .unit => { required := ["name", "context"], lists := ["values"] }
  | .pointerType, _ => { required := ["typ", "size", "align"] }
  | .arrayType, _ => { required := ["typ", "min", "max"] }
  | .argument, .dump => { required := ["typ", "name"] }
  | .argument, .unit => { required := ["name", "typ"] }
  | .function, .unit =>
    { required := ["name", "returns"], optional := ["context", "attributes", "extern"],
      lists := ["arguments"] }
  | .function, .dump | .operatorFunction, _ =>
    { required := ["name", "returns", "context", "attributes", "extern"], lists := ["arguments"] }
  | .functionType, _ => { required := ["returns", "attributes"], lists := ["arguments"] }
  | .macroDef, _ => { required := ["name", "args", "body"] }
  | .synonym, _ => { required := ["name", "value"], optional := ["typ"] }
  | .file, .dump => { required := ["name"] }
  | .nameSpace, .dump => { required := ["name", "members"] }
  | .file, .unit | .nameSpace, .unit =>
    { required := ["name"], optional := ["members"], emptied := ["members"] }
  | .globalVariable, _ => { required := ["name", "typ", "context", "init"] }
  | .refType, _ => { required := ["typ"] }

end Form

end PxdGen.Decl
