import PxdGen.Decl.Result
import PxdGen.Index.Summary
/-! # Reading a compilation unit

The cursors of a compilation unit are visited from the root. Each cursor of a known kind becomes a
declaration, and its children are added to it. A type becomes a declaration of its own, unless it
is one that has a declaration in the unit: then it is that declaration, which is read on the spot
if it has not been read before.
-/

namespace PxdGen.Index

open Decl Decl.Work

def tell (level : Nat) (words : List String) : Work Unit :=
  say (Text.copies "\t" level ++ " ".intercalate words)

def nameValue : Option String → Value
  | some s => .text s
  | none => .nothing

def nameLiteral (name : Option String) : String := (nameValue name).literal fun _ => ""

/-- The names of types that have no parts. -/
def simpleName? : String → Option String
  | "VOID" => some "void"
  | "BOOL" => some "bint"
  | "CHAR_U" | "CHAR_S" | "WCHAR" => some "char"
  | "UCHAR" => some "unsigned char"
  | "USHORT" => some "unsigned short"
  | "UINT" => some "unsigned int"
  | "ULONG" => some "unsigned long"
  | "ULONGLONG" => some "unsigned long long"
  | "SCHAR" => some "signed char"
  | "SHORT" => some "short"
  | "INT" => some "int"
  | "LONG" => some "long"
  | "LONGLONG" => some "long long"
  | "FLOAT" => some "float"
  | "DOUBLE" => some "double"
  | "LONGDOUBLE" => some "long double"
  | _ => none

/-- What a type became, with the key of its declaration. -/
structure Typed where
  value : Value
  key : Value := .nothing

def expected : Option Typed → Work Typed
  | some t => pure t
  | none => throw .wrongSort

/-- The declaration that has been read from a cursor. -/
def known? (tree : Tree) (c : Cursor) : Work (Option Value) := do
  match (← get).table.get? (.named (.int (tree.cursor c).hash)) with
  | some .nothing | none => pure none
  | some v => pure (some v)

section OfType

variable (tree : Tree)
variable (element : Cursor → Nat → Work Value)
variable (sub : TypeRef → Nat → Bool → Work (Option Typed))

def qualified (t : TypeRef) (inner : Value) : Work (Option Typed) := do
  let data := tree.type t
  let v ← make .cvQualifiedType [inner, .flag data.isConst, .flag data.isVolatile]
  pure (some { value := v })

/-- Adds the arguments of a function type; the first that is invalid ends them. -/
def addArguments (function : Value) (level : Nat) : List TypeRef → Work Unit
  | [] => pure ()
  | t :: rest => do
    let kind ← check (tree.typeKind t)
    if kind.name != "INVALID" then
      let typed ← expected (← sub t (level + 1) true)
      add "add_argument" function (← make .argument [.text "", typed.value])
      addArguments function level rest

def declared (c : Cursor) (v : Value) : Option Typed :=
  some { value := v, key := .int (tree.cursor c).hash }

def typeByDeclaration (t : TypeRef) (kind : Kind) (level : Nat) : Work (Option Typed) := do
  let declaration := tree.declaration t
  tell level ["do not know to handle type kind, search for declaration"]
  match ← known? tree declaration with
  | some v => pure (declared tree declaration v)
  | none => do
    let declarationKind ← check (tree.kind declaration)
    tell level ["can't find declaration for type, parse type declaration", kind.text,
      declarationKind.text]
    match ← element declaration (level + 1) with
    | .nothing =>
      if kind.name == "UNEXPOSED" then
        pure (some { value := ← make .fundamentalType [.text "unexposed_type"] })
      else
        tell level ["give up, unknown_type"]
        pure (some { value := ← make .fundamentalType [.text "unknown_type"] })
    | v => pure (declared tree declaration v)

/-- A type as a declaration; `sub` does this for its parts and `element` reads the declarations it
leads to. Nothing is given for a pointer or a reference to nothing. -/
def typeStep (t : TypeRef) (level : Nat) (resolve : Bool) : Work (Option Typed) := do
  let kind ← check (tree.typeKind t)
  let declaration := tree.declaration t
  let spelling ← check (tree.spelling declaration)
  tell level ["in type to c_ast:", "kind:", kind.text, nameLiteral spelling]
  match simpleName? kind.name with
  | some name => do qualified tree t (← make .fundamentalType [.text name])
  | none =>
    match kind.name with
    | "CONSTANTARRAY" => do
      let inner ← expected (← sub (← check (tree.elementType t)) (level + 1) true)
      let count ← check (tree.elementCount t)
      pure (some { value := ← make .arrayType [inner.value, .int 0, .int (count - 1)] })
    | "TYPEDEF" => do qualified tree t (← make .fundamentalType [nameValue spelling])
    | "POINTER" => do
      let inner ← expected (← sub (tree.type t).pointee (level + 1) true)
      match inner.value with
      | .nothing => pure none
      | v => do qualified tree t (← make .pointerType [v, .nothing, .nothing])
    | "LVALUEREFERENCE" => do
      let inner ← expected (← sub (tree.type t).pointee (level + 1) true)
      match inner.value with
      | .nothing => pure none
      | v => do pure (some { value := ← make .refType [v] })
    | "ENUM" => do
      match ← known? tree declaration with
      | some v => pure (declared tree declaration v)
      | none => do
        tell level ["enum declaration not yet parsed"]
        let v ← element declaration level
        pure (declared tree declaration v)
    | "FUNCTIONPROTO" => do
      tell level ["return type:"]
      let returns ← expected (← sub (tree.type t).result (level + 1) true)
      let function ← make .functionType [returns.value, .nothing]
      tell level ["argument types:"]
      addArguments tree sub function level (tree.type t).arguments
      pure (some { value := function })
    | "UNEXPOSED" =>
      if resolve then sub (tree.canonicalType t) (level + 1) false
      else typeByDeclaration tree element t kind level
    | _ => typeByDeclaration tree element t kind level

def readType : Nat → TypeRef → Nat → Bool → Work (Option Typed)
  | 0, _, _, _ => throw .endless
  | fuel + 1, t, level, resolve => typeStep tree element (readType fuel) t level resolve

end OfType

section OfCursor

variable (tree : Tree)
variable (type : TypeRef → Nat → Work (Option Typed))

/-- Takes a declaration out of the members of its context. -/
def removeFromContext (v : Value) (level : Nat) : Work Unit := do
  let context ← field v "context"
  match ← field context "members" with
  | .list members =>
    match members.findIdx? (·.same v) with
    | some i => do
      tell level ["remove from parent, idx", toString i]
      setField context "members" (.list (members.eraseIdx i))
    | none => tell level ["not contained in parent", ← shown v]
  | _ => throw .missingField

/-- Marks an enumeration, a struct or a union by the typedef that names it. One without a name is
known by the typedef only. Gives whether the typedef says anything new. -/
def nameByTypedef (c : Cursor) (typed : Typed) (level : Nat) : Work Bool := do
  let name ← check (tree.spelling c)
  setField typed.value "typedef_name" (nameValue name)
  let own ← field typed.value "name"
  if !own.isTrue then
    let registered ← find typed.key
    tell level ["remove declaration", ← shown typed.value, ← shown registered]
    removeFromContext typed.value level
    pure true
  else pure !(own.same (nameValue name))

def visitTypedef (c : Cursor) (level : Nat) : Work Value := do
  let typed ← expected (← type (tree.cursor c).underlying level)
  match typed.value with
  | .nothing => pure .nothing
  | v => do
    let s ← get
    let name ← field v "name"
    tell level ["in visit_TYPEDEF_DECL, c_ast_type =", s.graph.sortOf v, "name =", ← literal name]
    let isNew ← match s.graph.form? v with
      | some .enumeration | some .union | some .struct => nameByTypedef tree c typed level
      | _ => pure true
    if isNew then make .typedef [nameValue (← check (tree.spelling c)), v, .nothing]
    else pure .nothing

/-- A struct or union without a name that stands in a field gets the name of the field. -/
def nameByField (c : Cursor) : Work Unit := do
  match (tree.cursor c).children with
  | [child] => do
    let kind ← check (tree.kind (.numbered child))
    if kind.name == "STRUCT_DECL" || kind.name == "UNION_DECL" then
      let v ← find (.int (tree.cursor (.numbered child)).hash)
      if !(← field v "name").isTrue then
        setField v "name" (nameValue (← check (tree.spelling c)))
  | _ => pure ()

def visitField (c : Cursor) (level : Nat) : Work Value := do
  nameByField tree c
  let parent ← top
  let name ← check (tree.spelling c)
  let typed ← expected (← type (tree.cursor c).type level)
  make .field [nameValue name, typed.value, parent]

def addParameters (function : Value) (level : Nat) : List Nat → Work Unit
  | [] => pure ()
  | arg :: rest => do
    let kind ← check (tree.kind (.numbered arg))
    let name ← check (tree.spelling (.numbered arg))
    tell level ["function argument", kind.text, (nameValue name).plain]
    let typed ← expected (← type (tree.cursor (.numbered arg)).type (level + 1))
    add "add_argument" function (← make .argument [nameValue name, typed.value])
    addParameters function level rest

def visitFunction (c : Cursor) (level : Nat) : Work Value := do
  let name ← check (tree.spelling c)
  let returns ← expected (← type (tree.type (tree.cursor c).type).result level)
  let function ← make .function [nameValue name, returns.value]
  addParameters tree type function level (tree.cursor c).arguments
  pure function

/-- A reference to a type may say what a type without a declaration is called. -/
def visitTypeReference (c : Cursor) (level : Nat) : Work Value := do
  let data := tree.cursor c
  let _ ← expected (← type data.type level)
  match ← top with
  | .nothing => pure .nothing
  | parent => do
    let kind ← check (tree.typeKind data.type)
    tell level ["TYPE REF", Text.quoted data.display,
      "parent: " ++ (← shown parent) ++ ", type: " ++ kind.text]
    if kind.name == "UNEXPOSED" then renameType (← steps) parent (.text data.display)
    pure .nothing

def visitTemplateParameter (c : Cursor) (level : Nat) : Work Value := do
  let param ← check (tree.spelling c)
  let parent ← top
  match (← get).graph.form? parent with
  | some .cppClass | some .classTemplate => addTemplateParam parent (nameValue param)
  | _ => tell level ["TEMPLATE_TYPE_PARAMETER: unknown parent", ← shown parent]
  pure .nothing

/-- The declaration that a cursor stands for; nothing for kinds that are not known. -/
def visit (c : Cursor) (kind : Kind) (level : Nat) : Work Value := do
  let data := tree.cursor c
  let name := tree.spelling c
  match kind.name with
  | "TRANSLATION_UNIT" => do
    let file ← make .file [.text data.display]
    push file
    pure file
  | "NAMESPACE" => do make .nameSpace [nameValue (← check name)]
  | "TYPEDEF_DECL" => visitTypedef tree type c level
  | "STRUCT_DECL" => do make .struct [nameValue (← check name), .list [], ← top]
  | "UNION_DECL" => do make .union [nameValue (← check name), .nothing, .nothing, ← top]
  | "FIELD_DECL" => visitField tree type c level
  | "ENUM_DECL" => do make .enumeration [nameValue (← check name), ← top]
  | "ENUM_CONSTANT_DECL" => do
    let name ← check name
    make .enumValue [nameValue name, .int (← check (tree.enumValue c))]
  | "FUNCTION_DECL" | "CXX_METHOD" | "CONSTRUCTOR" | "FUNCTION_TEMPLATE" =>
    visitFunction tree type c level
  | "VAR_DECL" => do
    let name ← check name
    let typed ← expected (← type data.type level)
    make .globalVariable [nameValue name, typed.value, .nothing, .nothing]
  | "CLASS_DECL" | "CLASS_TEMPLATE" => do
    make .cppClass [nameValue (← check name), .nothing, ← top]
  | "PARM_DECL" => do
    let name ← check name
    let _ ← top
    let typed ← expected (← type data.type level)
    make .argument [nameValue name, typed.value]
  | "TYPE_REF" => visitTypeReference tree type c level
  | "TEMPLATE_TYPE_PARAMETER" => visitTemplateParameter tree c level
  | _ => do
    let name ← check name
    tell level ["unhandled element", nameLiteral name, Text.quoted data.display, kind.text]
    pure .nothing

/-- Kinds whose children are read after them. -/
def isEntered (kind : Kind) : Bool :=
  ["TRANSLATION_UNIT", "NAMESPACE", "ENUM_DECL", "STRUCT_DECL", "UNION_DECL", "CLASS_DECL",
    "CLASS_TEMPLATE", "FUNCTION_TEMPLATE", "FIELD_DECL", "PARM_DECL", "CONSTRUCTOR",
    "CXX_METHOD"].contains kind.name

/-- Enters a declaration in the table under the hash of its cursor, and tells of it. -/
def enter (c : Cursor) (kind : Kind) (v : Value) (level : Nat) : Work Unit := do
  let data := tree.cursor c
  match data.location.file with
  | some file => setField v "location" (.tuple [.text file, .int data.location.line.toNat])
  | none => pure ()
  register (.named (.int data.hash)) v
  let typeKind ← check (tree.typeKind data.type)
  tell level ["cursor:", kind.text, typeKind.text]
  tell level ["name:", ← literal (← field v "name")]
  say ""

def takesChildren (v : Value) : Work Bool := do
  let s ← get
  pure ((s.graph.form? v).bind (slot? s.graph.origin · "add_child")).isSome

/-- Reads the children of a declaration, where `sub` reads one of them. -/
def readChildren (sub : Cursor → Nat → Work Value) (v : Value) (level : Nat) :
    List Nat → Work Unit
  | [] => pure ()
  | child :: rest => do
    match ← sub (.numbered child) (level + 1) with
    | .nothing => pure ()
    | w => if ← takesChildren v then add "add_child" v w
    readChildren sub v level rest

/-- The declaration of a cursor, which has to be in a file unless it is that of the whole unit;
`sub` reads the cursors it leads to. -/
def elementStep (sub : Cursor → Nat → Work Value) (c : Cursor) (level : Nat) : Work Value := do
  let data := tree.cursor c
  let kind ← check (tree.kind c)
  if data.location.file.isNone && kind.name != "TRANSLATION_UNIT" then pure .nothing
  else
    let v ← visit tree type c kind level
    match v with
    | .nothing => pure ()
    | v => enter tree c kind v level
    if isEntered kind then
      push v
      readChildren sub v level data.children
      let _ ← pop
    modify fun s => { s with openText := none, openKey := none }
    pure v

end OfCursor

def readElement (tree : Tree) : Nat → Cursor → Nat → Work Value
  | 0, _, _ => throw .endless
  | fuel + 1, c, level =>
    let types := 2 * tree.types.size + 3
    elementStep tree (fun t level => readType tree (readElement tree fuel) types t level true)
      (readElement tree fuel) c level

/-- How deep elements can be nested in one another. The keys in the table decide what is read, and
there are no more keys than cursors. -/
def nesting (tree : Tree) : Nat := (tree.cursors.size + 2) * (tree.cursors.size + 2)

def readTree (tree : Tree) : Work Value := readElement tree (nesting tree) (.numbered tree.root) 0

/-! ### Diagnostics -/

def tellDiagnostic (d : DiagnosticData) : Work Unit := do
  say ("category name: " ++ d.category)
  say ("location: " ++ (nameValue d.location.file).plain ++ " " ++
    Text.ofInt d.location.line.toNat ++ " : " ++ Text.ofInt d.location.column.toNat)
  say ("severity: " ++ Text.ofInt d.severity)
  say ("spelling: " ++ d.spelling)
  say ("fixits " ++ (Value.list (d.offered.map fun f => .text f.brief)).plain)
  say ""

def readUnit (tree : Tree) : Work Value := do
  tree.diagnostics.toList.forM tellDiagnostic
  readTree tree

end PxdGen.Index
