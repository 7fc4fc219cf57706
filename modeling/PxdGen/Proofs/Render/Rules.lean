import PxdGen.Proofs.InStep
import PxdGen.Proofs.Render.Made
import PxdGen.Pxd.Expression
/-! # The rules for expressions

A table says for each kind which parts its rule renders. Whatever relation between sheets rendering
these parts keeps, the rule keeps too: besides rendering them, it only reads fields, and takes
pending words where a name is declared.
-/

namespace PxdGen.Pxd

open Rendering Value

/-! ### Fields and texts -/

variable {S : Sheet → Sheet → Prop} {α : Type}

@[grind .]
theorem steady_need (v : Value) (name : String) : Steady S (need v name) := by
  grind [need]

@[grind .]
theorem steady_items {v : Value} (p : Part v) : Steady S (items p) := by
  unfold items
  split
  · exact .pure rfl
  · exact .throw _

@[grind .]
theorem steady_textOf (v : Value) : Steady S (textOf v) := by
  cases v <;> grind [textOf]

@[grind .]
theorem steady_joined (separator : String) (vs : List Value) : Steady S (joined separator vs) :=
  .bindEq (.mapMEq steady_textOf vs) fun _ => .pure rfl

@[grind .]
theorem steady_peelField (v : Value) (name : String) : Steady S (peelField v name) := by
  grind [peelField]

@[grind .]
theorem steady_declare (base type declarator : Value) :
    Steady S (declare base type declarator) := by
  grind [declare]

theorem inStep_field {kind : Kind} {fields : List (String × Value)} {name : String}
    {R : α → α → Prop} {f g : Part (.node kind fields) → Rendering α}
    (h : ∀ p, p.1 = fieldOf fields name → InStep S R (f p) (g p)) :
    InStep S R (need (.node kind fields) name >>= f) (need (.node kind fields) name >>= g) := by
  refine InStep.bind (R := fun p q => q = p ∧ p.1 = fieldOf fields name) ?_ fun p q ⟨hEq, hp⟩ => ?_
  · unfold need
    cases hField : (Value.node kind fields).field? name with
    | none => exact .throw _
    | some p => exact .pure ⟨rfl, (fieldOf_of_field? hField).symm⟩
  · rw [hEq]
    exact h p hp

theorem inStep_listed {v : Value} {p : Part v} {ws : List Value} (hp : p.1 = .list ws)
    {R : α → α → Prop} {f g : List (Part v) → Rendering α}
    (h : ∀ ps, ps.map (·.1) = ws → InStep S R (f ps) (g ps)) :
    InStep S R (items p >>= f) (items p >>= g) := by
  refine InStep.bind (R := fun ps qs => qs = ps ∧ ps.map (·.1) = ws) ?_ fun ps qs ⟨hEq, hps⟩ => ?_
  · obtain ⟨w, hw⟩ := p
    obtain rfl : w = .list ws := hp
    exact .pure ⟨rfl, by simp⟩
  · rw [hEq]
    exact h ps hps

/-! ### Rules -/

/-- The parts that the rule for a kind renders: fields, fields that may be missing, the items of
fields, and the types under the marks of C types. -/
structure Rule where
  fields : List String := []
  given : List String := []
  items : List String := []
  types : List String := []

def Kind.rule? (kind : Kind) : Option Rule :=
  if kind.symbol?.isSome then some {}
  else match kind with
    | .boolOp => some { fields := ["op"], items := ["values"] }
    | .binOp => some { fields := ["left", "op", "right"] }
    | .unaryOp => some { fields := ["op", "operand"] }
    | .lambdaExpr => some { fields := ["args", "body"] }
    | .ifExp => some { fields := ["test", "body", "orelse"] }
    | .dictExpr => some { items := ["keys", "values"] }
    | .setExpr | .listExpr | .tupleExpr => some { items := ["elts"] }
    | .listComp | .setComp | .generatorExp => some { fields := ["elt"], items := ["generators"] }
    | .dictComp => some { fields := ["key", "value"], items := ["generators"] }
    | .yieldExpr => some { given := ["value"] }
    | .compare => some { fields := ["left"], items := ["ops", "comparators"] }
    | .call => some
      { fields := ["func"], items := ["args", "keywords"], given := ["starargs", "kwargs"] }
    | .reprExpr | .attributeExpr | .indexSlice | .keyword => some { fields := ["value"] }
    | .num | .str | .name | .importedName => some {}
    | .subscript => some { fields := ["value", "slice"] }
    | .cName => some { types := ["ctype"] }
    | .sliceRange => some { given := ["lower", "upper", "step"] }
    | .extSlice => some { items := ["dims"] }
    | .comprehension => some { fields := ["target", "iter"], items := ["ifs"] }
    | .arguments => some { items := ["args", "defaults"], given := ["vararg", "kwarg"] }
    | .typeName => some { fields := ["name"] }
    | .cFunctionType => some { fields := ["args"], types := ["returns"] }
    | _ => none

/-- An expression that is rendered by rules, with everything in it that comes to be rendered. -/
inductive Drawn : Value → Prop where
  | node {kind : Kind} {fields : List (String × Value)} {rule : Rule} :
    kind.rule? = some rule →
    (∀ name ∈ rule.fields, Drawn (fieldOf fields name)) →
    (∀ name ∈ rule.given, (fieldOf fields name).isTrue = true → Drawn (fieldOf fields name)) →
    (∀ name ∈ rule.items, ∀ ws, (fieldOf fields name).items? = some ws → ∀ w ∈ ws, Drawn w) →
    (∀ name ∈ rule.types, ∀ marks base, peel (fieldOf fields name) = .ok (marks, base) →
      Drawn base.1) →
    Drawn (.node kind fields)

/-! ### Work that the rules do -/

section

variable {v : Value} {sub : Part v → Rendering Value} (h : ∀ p, Steady S (sub p))

include h

theorem steady_renderStarred (mark name : String) : Steady S (renderStarred v sub mark name) := by
  refine .bindEq (steady_need _ _) fun p => ?_
  split
  · exact .bindEq (h p) fun w => .bindEq (steady_textOf w) fun _ => .pure rfl
  · exact .pure rfl

theorem steady_renderArguments : Steady S (renderArguments v sub) := by
  refine .bindEq (steady_need _ _) fun args => .bindEq (steady_need _ _) fun defaults => ?_
  refine .bindEq (steady_items _) fun count => .bindEq (steady_items _) fun given => ?_
  split
  · refine .bindEq (.mapMOn _ ?_) fun shown => ?_
    · rintro ⟨arg, default⟩ -
      refine .bindEq (h arg) fun a => ?_
      cases default with
      | none => exact .pure rfl
      | some d => exact .bindEq (h d) fun _ => .pure rfl
    · refine .bindEq (steady_renderStarred h _ _) fun _ => ?_
      refine .bindEq (steady_renderStarred h _ _) fun _ => ?_
      exact .bindEq (steady_joined _ _) fun _ => .pure rfl
  · exact .throw _

/-- A rule keeps states in correspondence if rendering the parts of the node does. -/
theorem steady_renderStep (hPop : Steady S popLead)
    (hNone : Steady S (renderStep.undefinedNode v)) : Steady S (renderStep v sub) := by
  have hStarred := steady_renderStarred h
  have hArguments := steady_renderArguments h
  have hIf : ∀ p, Steady S (do pure ("if " ++ (← textOf (← sub p)))) := fun p =>
    .bindEq (h p) fun w => .bindEq (steady_textOf w) fun _ => .pure rfl
  unfold renderStep
  split
  · exact hNone
  · split
    · exact .pure rfl
    · split <;> grind [renderField, renderItems, renderGiven, renderComprehensions, renderCall,
        renderCName, renderFunctionType]

end

end PxdGen.Pxd
