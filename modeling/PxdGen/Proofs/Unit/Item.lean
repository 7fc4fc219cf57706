import PxdGen.Proofs.Unit.Shows
/-! # Flat units

A flat unit declares functions, variables, typedefs, and structs, unions and enumerations that hold
nothing but fields and constants. Each of them that is shown in a pxd file has one statement. What
is not shown is an unnamed struct, union or enumeration, if a typedef stands for it, and a typedef
that only repeats the name of what it stands for.
-/

namespace PxdGen.Index

open Decl

/-- A field or a parameter. -/
structure Member where
  cursor : Nat
  name : String
  type : UnitType

structure Constant where
  cursor : Nat
  name : String
  value : Int

/-- What is declared. -/
inductive Content where
  | record (isUnion : Bool) (fields : List Member)
  | enumeration (constants : List Constant)
  | function (result : UnitType) (params : List Member)
  | global (type : UnitType)
  | typedef (type : UnitType)

/-- A declaration of a flat unit. -/
structure Item where
  cursor : Nat
  name : String
  content : Content

namespace Item

/-- The types that a declaration mentions. -/
def types (i : Item) : List UnitType :=
  match i.content with
  | .record _ fields => fields.map (·.type)
  | .enumeration _ => []
  | .function result params => result :: params.map (·.type)
  | .global type | .typedef type => [type]

/-- The cursors that a declaration is read from. -/
def cursors (i : Item) : List Nat :=
  i.cursor ::
    match i.content with
    | .record _ fields => fields.map (·.cursor)
    | .enumeration constants => constants.map (·.cursor)
    | _ => []

def isRecord (i : Item) : Bool :=
  match i.content with
  | .record _ _ => true
  | _ => false

/-- Structs, unions and enumerations. -/
def isTag (i : Item) : Bool :=
  match i.content with
  | .record _ _ | .enumeration _ => true
  | _ => false

/-- The cursor of what a typedef stands for directly, and the name that this has of its own. -/
def tag? (i : Item) : Option (Nat × String) :=
  match i.content with
  | .typedef (.tagged d name) => some (d, name)
  | _ => none

theorem tag?_eq_some {i : Item} {d : Nat} {name : String} :
    i.tag? = some (d, name) ↔ i.content = .typedef (.tagged d name) := by
  unfold tag?
  split
  · rename_i d' name' h
    simp [h]
  · rename_i h
    simp only [reduceCtorEq, false_iff]
    exact h d name

end Item

/-! ### What a unit declares -/

/-- A cursor of a kind that is spelled and stands in a file. -/
structure Tree.Stands (tree : Tree) (c : Nat) (kindName name : String) : Prop where
  kind : ∃ kind, tree.kind (.numbered c) = .ok kind ∧ kind.name = kindName
  spelling : tree.spelling (.numbered c) = .ok (some name)
  file : ∃ file, (tree.cursor (.numbered c)).location.file = some file
  typeKind : ∃ kind, tree.typeKind (tree.cursor (.numbered c)).type = .ok kind

structure Tree.IsField (tree : Tree) (m : Member) : Prop where
  stands : tree.Stands m.cursor "FIELD_DECL" m.name
  type : tree.Denotes (tree.cursor (.numbered m.cursor)).type m.type
  children : (tree.cursor (.numbered m.cursor)).children = []

structure Tree.IsConstant (tree : Tree) (c : Constant) : Prop where
  stands : tree.Stands c.cursor "ENUM_CONSTANT_DECL" c.name
  value : tree.enumValue (.numbered c.cursor) = .ok c.value

structure Tree.IsParam (tree : Tree) (m : Member) : Prop where
  kind : ∃ kind, tree.kind (.numbered m.cursor) = .ok kind
  spelling : tree.spelling (.numbered m.cursor) = .ok (some m.name)
  type : tree.Denotes (tree.cursor (.numbered m.cursor)).type m.type

/-- The kind of cursors that a declaration is read from. -/
def Content.kindName : Content → String
  | .record false _ => "STRUCT_DECL"
  | .record true _ => "UNION_DECL"
  | .enumeration _ => "ENUM_DECL"
  | .function _ _ => "FUNCTION_DECL"
  | .global _ => "VAR_DECL"
  | .typedef _ => "TYPEDEF_DECL"

/-- What is read from the parts and the types of a cursor. -/
def Tree.HasContent (tree : Tree) (c : Nat) : Content → Prop
  | .record _ fields =>
    (tree.cursor (.numbered c)).children = fields.map (·.cursor) ∧ ∀ f ∈ fields, tree.IsField f
  | .enumeration constants =>
    (tree.cursor (.numbered c)).children = constants.map (·.cursor) ∧
      ∀ k ∈ constants, tree.IsConstant k
  | .function result params =>
    tree.Denotes (tree.type (tree.cursor (.numbered c)).type).result result ∧
      (tree.cursor (.numbered c)).arguments = params.map (·.cursor) ∧ ∀ p ∈ params, tree.IsParam p
  | .global type => tree.Denotes (tree.cursor (.numbered c)).type type
  | .typedef type => tree.Denotes (tree.cursor (.numbered c)).underlying type

structure Tree.Declares (tree : Tree) (i : Item) : Prop where
  stands : tree.Stands i.cursor i.content.kindName i.name
  content : tree.HasContent i.cursor i.content

def Tree.hash (tree : Tree) (c : Nat) : Int := (tree.cursor (.numbered c)).hash

/-- The declarations under the root of a unit. No two cursors have the same hash. What a type is
tagged by has been declared before, or is the struct or union that the type stands in, and it has
a name, unless a typedef stands for it directly. An unnamed struct or union has such a typedef. -/
structure FlatUnit (tree : Tree) (items : List Item) : Prop where
  root : ∃ kind, tree.kind (.numbered tree.root) = .ok kind ∧ kind.name = "TRANSLATION_UNIT"
  rootType : ∃ kind, tree.typeKind (tree.cursor (.numbered tree.root)).type = .ok kind
  children : (tree.cursor (.numbered tree.root)).children = items.map (·.cursor)
  declares : ∀ i ∈ items, tree.Declares i
  hashes : ((tree.root :: items.flatMap Item.cursors).map tree.hash).Nodup
  tags : ∀ before i after, items = before ++ i :: after → ∀ type ∈ i.types, ∀ d ∈ type.tags,
    ∃ j, j.cursor = d ∧ j.isTag = true ∧ (j ∈ before ∨ j = i)
  named : ∀ i ∈ items, ∀ type ∈ i.types,
    type.isNamed = true ∨ ∃ d, i.content = .typedef (.tagged d "")
  unnamed : ∀ i ∈ items, i.isRecord = true → i.name = "" →
    ∃ j ∈ items, j.tag? = some (i.cursor, "")

/-! ### What a module shows of it -/

/-- Whether a declaration has a statement of its own, beside the given ones. -/
def Item.isShown (items : List Item) (i : Item) : Bool :=
  match i.content with
  | .record _ _ | .enumeration _ =>
    !i.name.isEmpty || !items.any fun j => j.tag? == some (i.cursor, "")
  | .typedef (.tagged _ name) => name.isEmpty || name != i.name
  | _ => true

/-- The node of a name with a type, as a statement. -/
def declarationValue (type : UnitType) (name : String) : Value :=
  .node .exprStmt [("value", Pxd.cNameValue type.value name)]

def constantValue (name : String) : Value :=
  .node .exprStmt [("value", .node .name [("id", .text name), ("ctx", Pxd.single .param)])]

def definitionValue (kind : Pxd.Kind) (name : String) (body : List Value) : Value :=
  .node kind [("name", .text name), ("body", bodyOf body)]

def cdefValue (v : Value) : Value := .node .cdefDecl [("modifiers", .list []), ("value", v)]

def recordValue (isUnion : Bool) (name : String) (fields : List Member) : Value :=
  definitionValue (if isUnion then .unionDef else .structDef) name
    (fields.map fun m => declarationValue m.type m.name)

def enumerationValue (name : String) (constants : List Constant) : Value :=
  definitionValue .enumDef name (constants.map fun k => constantValue k.name)

/-- What a typedef is of: an unnamed type is defined on the spot, under the name of the typedef. -/
def targetValue (items : List Item) (name : String) (type : UnitType) : Value :=
  match type with
  | .tagged d "" =>
    match (items.find? (·.cursor == d)).map Item.content with
    | some (.record isUnion fields) => recordValue isUnion name fields
    | some (.enumeration constants) => enumerationValue name constants
    | _ => declarationValue type name
  | _ => declarationValue type name

def Item.statement (items : List Item) (i : Item) : Value :=
  match i.content with
  | .record isUnion fields => cdefValue (recordValue isUnion i.name fields)
  | .enumeration constants => cdefValue (enumerationValue i.name constants)
  | .function result params =>
    Pxd.prototypeValue i.name
      (Pxd.argumentsValue (params.map fun p => Pxd.cNameValue p.type.value p.name)) result.value
  | .global type => declarationValue type i.name
  | .typedef type => .node .cTypedefDecl [("value", targetValue items i.name type)]

def moduleValue (header : String) (stmts : List Value) : Value :=
  .node .moduleNode [("body", .list [cdefValue
    (.node .externFrom [("name", .text header), ("body", .list stmts)])])]

def flatModule (header : String) (items : List Item) : Value :=
  moduleValue header ((items.filter (Item.isShown items)).map (Item.statement items))

end PxdGen.Index
