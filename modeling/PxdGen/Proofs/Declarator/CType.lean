import PxdGen.Proofs.Build
import PxdGen.Text.Name
/-! # C types

The types that a declarator can give to a name: a named type under pointers, arrays and functions. A
reference stands outermost or not at all, so it is a mark beside a type and no type of its own.

`CType.build` makes the node of a type through the checks of its kind, which are always met.
-/

namespace PxdGen.Pxd

/-! ### Names -/

/-- The words of C that nothing can be named by. -/
def keywords : List String :=
  ["auto", "break", "case", "char", "const", "continue", "default", "do", "double", "else", "enum",
    "extern", "float", "for", "goto", "if", "inline", "int", "long", "register", "restrict",
    "return", "short", "signed", "sizeof", "static", "struct", "switch", "typedef", "union",
    "unsigned", "void", "volatile", "while", "_Alignas", "_Alignof", "_Atomic", "_Bool", "_Complex",
    "_Generic", "_Imaginary", "_Noreturn", "_Static_assert", "_Thread_local"]

def isIdentifier (s : String) : Bool := Text.isWord s.toList && !keywords.contains s

abbrev Identifier := { s : String // isIdentifier s = true }

/-- The keywords that `void` and the arithmetic types are put together from. -/
def typeWords : List String :=
  ["void", "char", "short", "int", "long", "float", "double", "signed", "unsigned", "_Bool",
    "_Complex", "_Imaginary"]

abbrev TypeWord := { s : String // s ∈ typeWords }

/-- The keywords before the tag of a record or an enumeration. -/
def tagWords : List String := ["struct", "union", "enum"]

abbrev TagWord := { s : String // s ∈ tagWords }

/-- What a type without parts is called. -/
inductive BaseName where
  | plain (name : Identifier)
  | tagged (tag : TagWord) (name : Identifier)
  | phrase (first : TypeWord) (rest : List TypeWord)

namespace BaseName

def words : BaseName → List String
  | .plain name => [name.1]
  | .tagged tag name => [tag.1, name.1]
  | .phrase first rest => first.1 :: rest.map (·.1)

def text (b : BaseName) : String := " ".intercalate b.words

end BaseName

/-! ### Types -/

mutual

inductive CType where
  | named (isConst : Bool) (base : BaseName)
  | pointer (isConst : Bool) (target : CType)
  | array (dim : Int) (element : CType)
  | function (params : Params) (isReference : Bool) (result : CType)

/-- Parameters of a function, which may have no name. -/
inductive Params where
  | nil
  | cons (name : Option Identifier) (isReference : Bool) (type : CType) (rest : Params)

end

def nameText : Option Identifier → String
  | some name => name.1
  | none => ""

namespace CType

def isArray : CType → Bool
  | .array _ _ => true
  | _ => false

def isFunction : CType → Bool
  | .function _ _ _ => true
  | _ => false

end CType

mutual

/-- No parameter without a name is a function itself: only a name or a mark in its place would
keep its two pairs of parentheses apart. -/
def CType.isSpoken : CType → Bool
  | .named _ _ => true
  | .pointer _ t | .array _ t => t.isSpoken
  | .function params _ result => params.areSpoken && result.isSpoken

def Params.areSpoken : Params → Bool
  | .nil => true
  | .cons name isReference type rest =>
    (name.isSome || isReference || !type.isFunction) && type.isSpoken && rest.areSpoken

end

mutual

/-- All sizes of arrays are short enough to be written. -/
def CType.isWritable : CType → Bool
  | .named _ _ => true
  | .pointer _ t => t.isWritable
  | .array dim t => Text.isWritable dim && t.isWritable
  | .function params _ result => params.areWritable && result.isWritable

def Params.areWritable : Params → Bool
  | .nil => true
  | .cons _ _ type rest => type.isWritable && rest.areWritable

end

/-! ### Nodes -/

/-- A type by reference, or the type itself. -/
def referenced (isReference : Bool) (type : Value) : Value :=
  if isReference then .node .reference [("value", type)] else type

def argumentsValue (args : List Value) : Value :=
  .node .arguments
    [("args", .list args), ("vararg", .nothing), ("kwarg", .nothing), ("defaults", .list [])]

def cNameValue (type : Value) (name : String) : Value :=
  .node .cName [("ctype", type), ("name", .text name)]

def prototypeValue (name : String) (args returns : Value) : Value :=
  .node .cFunctionDecl
    [("name", .text name), ("args", args), ("returns", returns), ("excepts", .nothing)]

mutual

/-- The node of a type. -/
def CType.value : CType → Value
  | .named isConst base =>
    .node .typeName [("name", .node .name [("id", .text base.text), ("ctx", single .param)]),
      ("const", .flag isConst), ("volatile", .flag false)]
  | .pointer isConst t =>
    .node .pointer [("value", t.value), ("const", .flag isConst), ("volatile", .flag false)]
  | .array dim t => .node .array [("value", t.value), ("dim", .int dim)]
  | .function params isReference result =>
    .node .cFunctionType [("args", argumentsValue params.values),
      ("returns", referenced isReference result.value)]

def Params.values : Params → List Value
  | .nil => []
  | .cons name isReference type rest =>
    cNameValue (referenced isReference type.value) (nameText name) :: rest.values

end

/-- Makes a reference to a type, or leaves the type as it is. -/
def buildReferenced (isReference : Bool) (type : Value) : Except Fault Value :=
  if isReference then build .reference [type] else .ok type

def buildArguments (args : List Value) : Except Fault Value :=
  build .arguments [.list args, .nothing, .nothing, .list []]

mutual

/-- Makes the node of a type from the nodes of its parts. -/
def CType.build : CType → Except Fault Value
  | .named isConst base => do
    Pxd.build .typeName [← Pxd.build .name [.text base.text, single .param], .flag isConst]
  | .pointer isConst t => do Pxd.build .pointer [← t.build, .flag isConst]
  | .array dim t => do Pxd.build .array [← t.build, .int dim]
  | .function params isReference result => do
    let args ← buildArguments (← params.build)
    Pxd.build .cFunctionType [args, ← buildReferenced isReference (← result.build)]

def Params.build : Params → Except Fault (List Value)
  | .nil => .ok []
  | .cons name isReference type rest => do
    let arg ← Pxd.build .cName
      [← buildReferenced isReference (← type.build), .text (nameText name)]
    .ok (arg :: (← rest.build))

end

def buildDeclaration (isReference : Bool) (type : CType) (name : Identifier) :
    Except Fault Value := do
  Pxd.build .cName [← buildReferenced isReference (← type.build), .text name.1]

/-- Declares a function. -/
def buildPrototype (name : Identifier) (params : Params) (isReference : Bool) (result : CType) :
    Except Fault Value := do
  let args ← buildArguments (← params.build)
  let returns ← buildReferenced isReference (← result.build)
  Pxd.build .cFunctionDecl [.text name.1, args, returns, .nothing]

/-! ### The checks are met -/

section

variable {type : Value} (h : type.isOf .ctype = true)

include h

theorem build_reference_eq :
    Pxd.build .reference [type] = .ok (.node .reference [("value", type)]) :=
  build_eq .reference nofun nofun rfl rfl (List.forall_mem_singleton.2 (run_field_one h))

theorem build_cName_eq (name : String) :
    Pxd.build .cName [type, .text name] = .ok (cNameValue type name) := by
  refine build_eq .cName nofun nofun rfl rfl ?_
  exact List.forall_mem_cons.2 ⟨run_field_one h, List.forall_mem_singleton.2 (run_field_one rfl)⟩

theorem build_pointer_eq (isConst : Bool) :
    Pxd.build .pointer [type, .flag isConst] = .ok (.node .pointer
      [("value", type), ("const", .flag isConst), ("volatile", .flag false)]) :=
  build_eq .pointer nofun nofun rfl rfl (List.forall_mem_singleton.2 (run_field_one h))

theorem build_array_eq (dim : Int) :
    Pxd.build .array [type, .int dim] =
    .ok (.node .array [("value", type), ("dim", .int dim)]) := by
  refine build_eq .array nofun nofun rfl rfl ?_
  exact List.forall_mem_cons.2 ⟨run_field_one h, List.forall_mem_singleton.2 (run_field_one rfl)⟩

theorem build_cFunctionType_eq (args : List Value) :
    Pxd.build .cFunctionType [argumentsValue args, type] =
      .ok (.node .cFunctionType [("args", argumentsValue args), ("returns", type)]) := by
  refine build_eq .cFunctionType nofun nofun rfl rfl ?_
  exact List.forall_mem_cons.2 ⟨run_field_bare rfl, List.forall_mem_singleton.2 (run_given_one h)⟩

theorem build_cFunctionDecl_eq (name : String) (args : List Value) :
    Pxd.build .cFunctionDecl [.text name, argumentsValue args, type, .nothing] =
      .ok (prototypeValue name (argumentsValue args) type) := by
  refine build_eq .cFunctionDecl nofun nofun rfl rfl ?_
  refine List.forall_mem_cons.2 ⟨run_field_one rfl, ?_⟩
  refine List.forall_mem_cons.2 ⟨run_field_bare rfl, ?_⟩
  refine List.forall_mem_cons.2 ⟨run_given_one h, ?_⟩
  exact List.forall_mem_singleton.2 (run_given_of_false rfl)

end

theorem buildArguments_eq {args : List Value} (h : ∀ v ∈ args, v.isOf .expr = true) :
    buildArguments args = .ok (argumentsValue args) := by
  refine build_eq .arguments nofun nofun rfl rfl ?_
  refine List.forall_mem_cons.2 ⟨run_field_every rfl h, ?_⟩
  iterate 2 refine List.forall_mem_cons.2 ⟨run_given_of_false rfl, ?_⟩
  exact List.forall_mem_singleton.2 (run_field_every rfl (by simp))

theorem CType.value_isOf (t : CType) : t.value.isOf .ctype = true := by
  cases t <;> rfl

theorem referenced_isOf (r : Bool) (t : CType) : (referenced r t.value).isOf .ctype = true := by
  cases r with
  | false => exact t.value_isOf
  | true => rfl

theorem referenced_isTrue (r : Bool) (t : CType) : (referenced r t.value).isTrue = true := by
  cases r <;> cases t <;> rfl

theorem Params.values_areExprs (ps : Params) : ∀ v ∈ ps.values, v.isOf .expr = true := by
  cases ps with
  | nil => simp [Params.values]
  | cons name r t rest =>
    rw [Params.values]
    exact List.forall_mem_cons.2 ⟨rfl, rest.values_areExprs⟩

theorem buildReferenced_eq (r : Bool) (t : CType) :
    buildReferenced r t.value = .ok (referenced r t.value) := by
  cases r with
  | false => rfl
  | true => exact build_reference_eq t.value_isOf

mutual

/-- **Every type can be built.** -/
theorem CType.build_eq (t : CType) : t.build = .ok t.value := by
  cases t with
  | named isConst base => rfl
  | pointer isConst t =>
    rw [CType.build, t.build_eq]
    exact build_pointer_eq t.value_isOf isConst
  | array dim t =>
    rw [CType.build, t.build_eq]
    exact build_array_eq t.value_isOf dim
  | function params isReference result =>
    rw [CType.build, params.build_eq, result.build_eq]
    simp only [bind, Except.bind, buildArguments_eq params.values_areExprs, buildReferenced_eq]
    exact build_cFunctionType_eq (referenced_isOf isReference result) params.values

theorem Params.build_eq (ps : Params) : ps.build = .ok ps.values := by
  cases ps with
  | nil => rfl
  | cons name isReference type rest =>
    rw [Params.build, type.build_eq, rest.build_eq]
    simp only [bind, Except.bind, buildReferenced_eq,
      build_cName_eq (referenced_isOf isReference type)]
    rfl

end

theorem buildDeclaration_eq (r : Bool) (t : CType) (x : Identifier) :
    buildDeclaration r t x = .ok (cNameValue (referenced r t.value) x.1) := by
  rw [buildDeclaration, t.build_eq]
  simp only [bind, Except.bind, buildReferenced_eq, build_cName_eq (referenced_isOf r t)]

theorem buildPrototype_eq (f : Identifier) (ps : Params) (r : Bool) (t : CType) :
    buildPrototype f ps r t =
      .ok (prototypeValue f.1 (argumentsValue ps.values) (referenced r t.value)) := by
  rw [buildPrototype, ps.build_eq, t.build_eq]
  simp only [bind, Except.bind, buildArguments_eq ps.values_areExprs, buildReferenced_eq]
  exact build_cFunctionDecl_eq (referenced_isOf r t) f.1 ps.values

end PxdGen.Pxd
