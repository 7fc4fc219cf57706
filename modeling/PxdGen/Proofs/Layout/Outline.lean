import PxdGen.Proofs.Layout.Fits
/-! # Outlines of modules

A module that declares what a header holds is one block of statements of a few kinds. `Outline` says
what is in such a module and nothing else, and `Outline.Fits` which nodes have this in them. The
page of such a module is a list of lines, `Outline.lines`.
-/

namespace PxdGen.Pxd

open Rendering Value

/-! ### Outlines -/

inductive RecordKind where
  | struct
  | union
  | cppClass
deriving DecidableEq

namespace RecordKind

def kind : RecordKind → Kind
  | .struct => .structDef
  | .union => .unionDef
  | .cppClass => .cppClassDef

def word : RecordKind → String
  | .struct => "struct"
  | .union => "union"
  | .cppClass => "cppclass"

end RecordKind

/-- What a line of a block declares. A function may lack a result. -/
inductive Member where
  | declaration (isReference : Bool) (type : CType) (name : Identifier)
  | function (name : Identifier) (params : Params) (result : Option (Bool × CType))
  | pass

/-- A statement about a header. The constants of an enumeration are names, and nothing stands for
`pass`. -/
inductive Statement where
  | member (m : Member)
  | synonym (isReference : Bool) (type : CType) (name : Identifier)
  | record (isTypedef : Bool) (kind : RecordKind) (name : Identifier) (members : List Member)
  | enumeration (isTypedef : Bool) (name : Option Identifier) (constants : List (Option Identifier))

structure Outline where
  header : String
  statements : List Statement

/-- Words that a line may begin with to say what stands in it. -/
def layoutWords : List String := ["cdef", "ctypedef", "pass"]

/-- The names that a line of a member may begin with. -/
def Member.firstNames : Member → List String
  | .declaration _ t _ | .function _ _ (some (_, t)) => t.base.2.words
  | .function f _ none => [f.1]
  | .pass => []

/-- The names that a line may begin with and that could be taken for something else. -/
def Statement.firstNames : Statement → List String
  | .member m => m.firstNames
  | .enumeration _ _ constants => constants.filterMap (·.map (·.1))
  | _ => []

/-- A text without line breaks. -/
def IsUnbroken (s : String) : Prop := ∀ c ∈ s.toList, Text.isBreak c = false

instance (s : String) : Decidable (IsUnbroken s) :=
  decidable_of_iff (s.toList.all (!Text.isBreak ·) = true) (by simp [IsUnbroken])

theorem IsUnbroken.append {a b : String} (ha : IsUnbroken a) (hb : IsUnbroken b) :
    IsUnbroken (a ++ b) := by
  rw [IsUnbroken, String.toList_append]
  exact List.forall_mem_append.2 ⟨ha, hb⟩

/-- The header is named in one line, and no name that begins a line is a word of the layout. -/
structure Outline.IsPlain (o : Outline) : Prop where
  header : IsUnbroken o.header
  names : ∀ st ∈ o.statements, ∀ name ∈ st.firstNames, name ∉ layoutWords

/-! ### Their nodes -/

variable {α : Type}

/-- Values that fit the items of a list one by one. -/
def FitEach (R : α → Value → Prop) : List α → List Value → Prop
  | [], vs => vs = []
  | a :: as, vs => ∃ v ws, R a v ∧ FitEach R as ws ∧ vs = v :: ws

/-- A node that may be missing. -/
def ResultFits : Option (Bool × CType) → Value → Prop
  | some (isReference, t), v => ∃ w, t.Fits w ∧ v = referenced isReference w
  | none, v => v.isTrue = false

def NameFits : Option Identifier → Value → Prop
  | some x, v => v = .text x.1
  | none, v => v.isTrue = false

def exprNode (v : Value) : Value := .node .exprStmt [("value", v)]

/-- A definition behind `ctypedef` or `cdef`. -/
def declaredNode (isTypedef : Bool) (v : Value) : Value :=
  if isTypedef then .node .cTypedefDecl [("value", v)]
  else .node .cdefDecl [("modifiers", .list []), ("value", v)]

def Member.Fits : Member → Value → Prop
  | .declaration isReference t x, v => ∃ w, t.Fits w ∧
      v = exprNode (cNameValue (referenced isReference w) x.1)
  | .function f params result, v => ∃ args vararg kwarg returns excepts, params.FitAll args ∧
      vararg.isTrue = false ∧ kwarg.isTrue = false ∧ ResultFits result returns ∧
      excepts.isTrue = false ∧
      v = prototypeNode f.1 (argumentsNode args vararg kwarg) returns excepts
  | .pass, v => v = single .passStmt
where
  prototypeNode (name : String) (args returns excepts : Value) : Value :=
    .node .cFunctionDecl
      [("name", .text name), ("args", args), ("returns", returns), ("excepts", excepts)]

def ConstantFits : Option Identifier → Value → Prop
  | some x, v => ∃ ctx, v = exprNode (.node .name [("id", .text x.1), ("ctx", ctx)])
  | none, v => v = single .passStmt

def Statement.Fits : Statement → Value → Prop
  | .member m, v => m.Fits v
  | .synonym isReference t x, v => ∃ w, t.Fits w ∧
      v = .node .cTypedefDecl [("value", exprNode (cNameValue (referenced isReference w) x.1))]
  | .record isTypedef kind x members, v => ∃ vs, FitEach Member.Fits members vs ∧
      v = declaredNode isTypedef (.node kind.kind [("name", .text x.1), ("body", .list vs)])
  | .enumeration isTypedef x constants, v => ∃ name vs, NameFits x name ∧
      FitEach ConstantFits constants vs ∧
      v = declaredNode isTypedef (.node .enumDef [("name", name), ("body", .list vs)])

/-- The module with this outline, up to what its text does not tell. -/
def Outline.Fits (o : Outline) (v : Value) : Prop :=
  ∃ vs, FitEach Statement.Fits o.statements vs ∧
    v = .node .moduleNode [("body", .list [declaredNode false
      (.node .externFrom [("name", .text o.header), ("body", .list vs)])])]

/-! ### Their lines -/

def Member.text : Member → List Char
  | .declaration isReference t x => trimChars (declarationText x.1 isReference t)
  | .function f params (some (isReference, t)) => prototypeText f.1 params isReference t
  | .function f params none => f.1.toList ++ '(' :: (params.text ++ [')'])
  | .pass => "pass".toList

/-- An empty line follows a function. -/
def Member.tail : Member → List String
  | .function _ _ _ => [""]
  | _ => []

def Member.lines (level : Int) (m : Member) : List String :=
  (Page.margin level ++ String.ofList m.text) :: m.tail

def constantText (x : Option Identifier) : String :=
  match x with
  | some x => x.1
  | none => "pass"

def constantLines (level : Int) (x : Option Identifier) : List String :=
  [Page.margin level ++ constantText x]

/-- The word that a definition stands behind. -/
def leadWord (isTypedef : Bool) : String := if isTypedef then "ctypedef" else "cdef"

def RecordKind.heading (kind : RecordKind) (x : Identifier) : String := kind.word ++ " " ++ x.1

def enumHeading (x : Option Identifier) : String :=
  match x with
  | some x => "enum " ++ x.1
  | none => "enum"

/-- A definition ends with an empty line, and with one more if it is a typedef. -/
def blockTail (isTypedef : Bool) : List String := if isTypedef then ["", ""] else [""]

theorem blockTail_eq (isTypedef : Bool) :
    blockTail isTypedef = "" :: if isTypedef then [""] else [] := by
  cases isTypedef <;> rfl

def headLine (level : Int) (isTypedef : Bool) (heading : String) : String :=
  Page.margin level ++ (leadWord isTypedef ++ " " ++ heading ++ ":")

def aliasText (isReference : Bool) (t : CType) (x : Identifier) : List Char :=
  trimChars ("ctypedef ".toList ++ declarationText x.1 isReference t)

def Statement.lines (level : Int) : Statement → List String
  | .member m => m.lines level
  | .synonym isReference t x =>
    [Page.margin level ++ String.ofList (aliasText isReference t x), ""]
  | .record isTypedef kind x members =>
    headLine level isTypedef (kind.heading x) ::
      (members.flatMap (Member.lines (level + 1)) ++ blockTail isTypedef)
  | .enumeration isTypedef x constants =>
    headLine level isTypedef (enumHeading x) ::
      (constants.flatMap (constantLines (level + 1)) ++ blockTail isTypedef)

def Outline.lines (o : Outline) : List String :=
  (Page.margin 0 ++ ("cdef extern from \"" ++ o.header ++ "\":")) :: "" ::
    (o.statements.flatMap (Statement.lines 1) ++ [""])

end PxdGen.Pxd
