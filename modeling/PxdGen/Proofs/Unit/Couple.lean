import PxdGen.Proofs.Unit.Advance
/-! # Two readings of a unit

A unit is read by reading types and visiting cursors, which make declarations and fill those there
are, but give none of them another form or another type. What can be said of two such readings is
put together from what can be said of their steps.
-/

namespace PxdGen.Decl

open Work

variable {name : String}

/-- A graph has grown, and its declarations have kept their forms and types. -/
structure Graph.Fills (g g' : Graph) : Prop extends g.KeepsTypes g' where
  origin : g'.origin = g.origin
  forms : ∀ v form, g.form? v = some form → g'.form? v = some form

namespace Graph.Fills

variable {g g' g'' : Graph}

theorem refl (g : Graph) : g.Fills g := ⟨.refl g, rfl, fun _ _ h => h⟩

theorem trans (h : g.Fills g') (h' : g'.Fills g'') : g.Fills g'' where
  toKeepsTypes := h.toKeepsTypes.trans h'.toKeepsTypes
  origin := h'.origin.trans h.origin
  forms := fun v form hv => h'.forms v form (h.forms v form hv)

theorem setField (g : Graph) (id : Nat) (hName : name ∉ typeFields) (w : Value) :
    g.Fills (g.setField id name w) where
  toKeepsTypes := keepsTypes_setField id hName w
  origin := rfl
  forms := fun v form h => by rw [form?_setField, h]

theorem add (g : Graph) (e : Entry) : g.Fills (g.add e).2 where
  toKeepsTypes := keepsTypes_add e
  origin := rfl
  forms := by
    intro v form h
    cases v with
    | link id =>
      rw [form?, g.get?_add_of_lt e (g.lt_size_of_form? h)]
      exact h
    | _ => cases h

end Graph.Fills

end PxdGen.Decl

namespace PxdGen.Index

open Decl Decl.Work

/-- The unit with other hashes. -/
def Tree.rehash (tree : Tree) (f : Int → Int) : Tree :=
  { tree with cursors := tree.cursors.map fun c => { c with hash := f c.hash } }

/-! ### The unit -/

section

variable {f : Int → Int} (h0 : f 0 = 0) (tree : Tree)

include h0

theorem cursor_rehash (c : Cursor) :
    (tree.rehash f).cursor c = { tree.cursor c with hash := f (tree.cursor c).hash } := by
  cases c with
  | numbered i =>
    simp only [Tree.cursor, Tree.rehash, Array.getElem?_map]
    cases tree.cursors[i]? with
    | some d => rfl
    | none => simp [h0]
  | _ => simp [Tree.cursor, h0]

theorem kind_rehash (c : Cursor) : (tree.rehash f).kind c = tree.kind c := by
  rw [Tree.kind, cursor_rehash h0]
  rfl

theorem spelling_rehash (c : Cursor) : (tree.rehash f).spelling c = tree.spelling c := by
  rw [Tree.spelling, kind_rehash h0, cursor_rehash h0]
  rfl

theorem enumType_rehash (c : Cursor) : (tree.rehash f).enumType c = tree.enumType c := by
  rw [Tree.enumType, kind_rehash h0, cursor_rehash h0]
  rfl

theorem enumValue_rehash (c : Cursor) : (tree.rehash f).enumValue c = tree.enumValue c := by
  simp only [Tree.enumValue, kind_rehash h0, cursor_rehash h0, enumType_rehash h0]
  rfl

end

/-! ### Steps -/

/-- What a type becomes in two readings, under a hash of its declaration in each. -/
inductive TypedPair (f : Int → Int) : Option Typed → Option Typed → Prop
  | none : TypedPair f none none
  | plain (v : Value) : TypedPair f (some { value := v }) (some { value := v })
  | declared (v : Value) (n : Int) : TypedPair f (some ⟨v, .int n⟩) (some ⟨v, .int (f n)⟩)

theorem TypedPair.value_eq {f : Int → Int} {a b : Typed} (h : TypedPair f (some a) (some b)) :
    b.value = a.value := by
  cases h <;> rfl

/-- Something that can be said of two pieces of work, where their results are related. -/
abbrev Saying := (α β : Type) → (α → β → Prop) → Work α → Work β → Prop

/-- A saying holds of two pieces of work. -/
def Coupled (L : Saying) {α β : Type} (R : α → β → Prop) (x : Work α) (y : Work β) :
    Prop := L α β R x y

/-- A saying that holds of a unit and of the same with other hashes, step by step. -/
class Coupling (f : outParam (Int → Int)) (L : Saying) : Prop where
  zero : f 0 = 0
  pure : ∀ {α β : Type} {R : α → β → Prop} {a b}, R a b → Coupled L R (pure a) (pure b)
  throw : ∀ {α β : Type} {R : α → β → Prop} (e : Fault), Coupled L R (throw e) (throw e)
  bind : ∀ {α β γ δ : Type} {R : α → β → Prop} {Q : γ → δ → Prop} {x : Work α} {y : Work β}
    {k : α → Work γ} {k' : β → Work δ}, Coupled L R x y →
    (∀ a b, R a b → Coupled L Q (k a) (k' b)) → Coupled L Q (x >>= k) (y >>= k')
  get : ∀ {α β : Type} {R : α → β → Prop} {k : Session → Work α} {k' : Session → Work β},
    (∀ s t, t.graph = s.graph → Coupled L R (k s) (k' t)) → Coupled L R (get >>= k) (get >>= k')
  say : ∀ line, Coupled L Eq (say line) (say line)
  fill : ∀ {k : Graph → Graph}, (∀ g : Graph, g.Fills (k g)) →
    Coupled L Eq (modify fun s => { s with graph := k s.graph })
      (modify fun s => { s with graph := k s.graph })
  top : Coupled L Eq top top
  find : ∀ {a b : Typed}, TypedPair f (some a) (some b) → Coupled L Eq (find a.key) (find b.key)
  known? : ∀ (tree : Tree) (c : Cursor), Coupled L Eq (known? tree c) (known? (tree.rehash f) c)

variable {f : Int → Int} {L : Saying} [hL : Coupling f L]

namespace Coupled

export Coupling (pure throw bind get say fill top find known?)

variable {α β γ : Type} {R : α → β → Prop} {name : String}

include hL

theorem bindEq {x y : Work γ} {k : γ → Work α} {k' : γ → Work β} (hx : Coupled L Eq x y)
    (hk : ∀ a, Coupled L R (k a) (k' a)) : Coupled L R (x >>= k) (y >>= k') :=
  .bind hx fun a _ hab => hab ▸ hk a

/-- A type that has to be there. -/
theorem typed {x y : Work (Option Typed)} {k k' : Typed → Work γ} {Q : γ → γ → Prop}
    (hx : Coupled L (TypedPair f) x y)
    (hk : ∀ a b, TypedPair f (some a) (some b) → b.value = a.value → Coupled L Q (k a) (k' b)) :
    Coupled L Q (x >>= fun t => expected t >>= k) (y >>= fun t => expected t >>= k') := by
  refine .bind hx fun a b hab => .bind (R := fun a b => TypedPair f (some a) (some b)) ?_
    fun a b h => hk a b h h.value_eq
  cases hab with
  | none => exact .throw _
  | plain v => exact .pure (.plain v)
  | declared v n => exact .pure (.declared v n)

theorem check (e : Except Fault γ) : Coupled L Eq (check e) (check e) := by
  cases e with
  | ok a => exact .pure rfl
  | error f => exact .throw f

theorem tell (level : Nat) (words : List String) :
    Coupled L Eq (tell level words) (tell level words) :=
  .say _

theorem field? (v : Value) (name : String) : Coupled L Eq (field? v name) (field? v name) :=
  .get fun _ _ h => .pure (by rw [h])

theorem field (v : Value) (name : String) : Coupled L Eq (field v name) (field v name) := by
  refine .bindEq (.field? v name) fun r => ?_
  cases r with
  | some w => exact .pure rfl
  | none => exact .throw _

theorem shown (v : Value) : Coupled L Eq (shown v) (shown v) := .get fun _ _ h => .pure (by rw [h])

theorem literal (v : Value) :
    Coupled L Eq (literal v) (literal v) := .get fun _ _ h => .pure (by rw [h])

theorem setField (v : Value) (hName : name ∉ typeFields) (w : Value) :
    Coupled L Eq (setField v name w) (setField v name w) := by
  cases v with
  | link id => exact .fill fun g => .setField g id hName w
  | _ => exact .throw _

theorem make (form : Form) (args : List Value) :
    Coupled L Eq (make form args) (make form args) := by
  refine .bindEq (.get fun _ _ h => .pure (by rw [h])) fun o => ?_
  cases Entry.make? o form args with
  | none => exact .throw _
  | some e =>
    refine .get fun s t h => ?_
    rw [h]
    exact .bindEq (.fill fun g => .add g e) fun _ => .pure rfl

theorem append (v : Value) (hName : name ∉ typeFields) (item : Value) :
    Coupled L Eq (append v name item) (append v name item) := by
  refine .bindEq (.field v name) fun w => ?_
  split
  · exact .setField v hName _
  · exact .throw _

theorem add (operation : String) (v item : Value) :
    Coupled L Eq (add operation v item) (add operation v item) := by
  refine .get fun s t h => ?_
  rw [h]
  split
  · rename_i slot hSlot
    obtain ⟨form, -, hSlot⟩ := Option.bind_eq_some_iff.1 hSlot
    unfold addTo
    split
    · exact .pure rfl
    · exact .append v (slot?_name_not_mem hSlot) _
  · exact .throw _

/-! ### Types -/

variable (tree : Tree)

theorem declared (c : Cursor) (v : Value) : Coupled L (TypedPair f)
    (Pure.pure (Index.declared tree c v)) (Pure.pure (Index.declared (tree.rehash f) c v)) := by
  rw [Index.declared, Index.declared, cursor_rehash hL.zero]
  exact .pure (.declared v _)

theorem plain (form : Form) (args : List Value) :
    Coupled L (TypedPair f) (do Pure.pure (some { value := ← Work.make form args : Typed }))
      (do Pure.pure (some { value := ← Work.make form args : Typed })) :=
  .bindEq (.make form args) fun v => .pure (.plain v)

section

variable {element element' : Cursor → Nat → Work Value}
  {sub sub' : TypeRef → Nat → Bool → Work (Option Typed)}
variable (hElement : ∀ t level,
  Coupled L Eq (element (tree.declaration t) level) (element' (tree.declaration t) level))
variable (hSub : ∀ t level resolve, Coupled L (TypedPair f) (sub t level resolve)
    (sub' t level resolve))

include hElement in
theorem typeByDeclaration (t : TypeRef) (kind : Kind) (level : Nat) :
    Coupled L (TypedPair f) (typeByDeclaration tree element t kind level)
      (typeByDeclaration (tree.rehash f) element' t kind level) := by
  refine .bindEq (.tell _ _) fun _ => .bindEq (.known? tree _) fun r => ?_
  split
  · exact .declared tree _ _
  · rw [kind_rehash hL.zero]
    refine .bindEq (.check _) fun _ => .bindEq (.tell _ _) fun _ => .bindEq (hElement t _) fun v =>
      ?_
    split
    · split
      · exact .plain _ _
      · exact .bindEq (.tell _ _) fun _ => .plain _ _
    · exact .declared tree _ _

include hSub in
theorem addArguments (function : Value) (level : Nat) (ts : List TypeRef) :
    Coupled L Eq (addArguments tree sub function level ts)
      (addArguments (tree.rehash f) sub' function level ts) := by
  induction ts with
  | nil => exact .pure rfl
  | cons t rest ih =>
    refine .bindEq (.check _) fun kind => ?_
    split
    · refine .typed (hSub t _ _) fun a b _ hab => ?_
      rw [hab]
      exact .bindEq (.make _ _) fun _ => .bindEq (.add _ _ _) fun _ => ih
    · exact .pure rfl

include hElement hSub in
theorem typeStep (t : TypeRef) (level : Nat) (resolve : Bool) :
    Coupled L (TypedPair f) (typeStep tree element sub t level resolve)
      (typeStep (tree.rehash f) element' sub' t level resolve) := by
  have hQualified :
      ∀ v, Coupled L (TypedPair f) (qualified tree t v) (qualified (tree.rehash f) t v) :=
    fun v => .plain _ _
  refine .bindEq (.check _) fun kind => ?_
  dsimp only
  rw [spelling_rehash hL.zero]
  refine .bindEq (.check _) fun spelling => .bindEq (.tell _ _) fun _ => ?_
  split
  · exact .bindEq (.make _ _) hQualified
  · split
    · refine .bindEq (.check _) fun _ => .typed (hSub _ _ _) fun a b _ hab => ?_
      rw [hab]
      exact .bindEq (.check _) fun _ => .plain _ _
    · exact .bindEq (.make _ _) hQualified
    · refine .typed (hSub _ _ _) fun a b _ hab => ?_
      rw [hab]
      split
      · exact .pure .none
      · exact .bindEq (.make _ _) hQualified
    · refine .typed (hSub _ _ _) fun a b _ hab => ?_
      rw [hab]
      split
      · exact .pure .none
      · exact .plain _ _
    · refine .bindEq (.known? tree _) fun r => ?_
      split
      · exact .declared tree _ _
      · exact .bindEq (.tell _ _) fun _ => .bindEq (hElement t _) fun v => .declared tree _ v
    · refine .bindEq (.tell _ _) fun _ => .typed (hSub _ _ _) fun a b _ hab => ?_
      rw [hab]
      exact .bindEq (.make _ _) fun v => .bindEq (.tell _ _) fun _ =>
        .bindEq (.addArguments tree hSub _ _ _) fun _ => .pure (.plain v)
    · split
      · exact hSub _ _ _
      · exact .typeByDeclaration tree hElement _ _ _
    · exact .typeByDeclaration tree hElement _ _ _

include hElement in
theorem readType (fuel : Nat) (t : TypeRef) (level : Nat) (resolve : Bool) :
    Coupled L (TypedPair f) (readType tree element fuel t level resolve)
      (readType (tree.rehash f) element' fuel t level resolve) := by
  induction fuel generalizing t level resolve with
  | zero => exact .throw _
  | succ fuel ih => exact .typeStep tree hElement ih t level resolve

end

/-! ### Cursors -/

theorem removeFromContext (v : Value) (level : Nat) :
    Coupled L Eq (removeFromContext v level) (removeFromContext v level) := by
  refine .bindEq (.field _ _) fun context => .bindEq (.field _ _) fun members => ?_
  split
  · split
    · exact .bindEq (.tell _ _) fun _ => .setField _ (by decide) _
    · exact .bindEq (.shown v) fun _ => .tell _ _
  · exact .throw _

theorem nameByTypedef (c : Cursor) {a b : Typed} (h : TypedPair f (some a) (some b)) (level : Nat) :
    Coupled L Eq (nameByTypedef tree c a level) (nameByTypedef (tree.rehash f) c b level) := by
  rw [Index.nameByTypedef, Index.nameByTypedef, spelling_rehash hL.zero, h.value_eq]
  refine .bindEq (.check _) fun name => .bindEq (.setField _ (by decide) _) fun _ => ?_
  refine .bindEq (.field _ _) fun own => ?_
  split
  · refine .bindEq (.find h) fun registered => .bindEq (.shown _) fun _ =>
      .bindEq (.shown _) fun _ => ?_
    exact .bindEq (.tell _ _) fun _ => .bindEq (.removeFromContext _ _) fun _ => .pure rfl
  · exact .pure rfl

theorem nameByField (c : Cursor) :
    Coupled L Eq (nameByField tree c) (nameByField (tree.rehash f) c) := by
  rw [Index.nameByField, Index.nameByField, cursor_rehash hL.zero]
  dsimp only
  split
  · rename_i child _
    rw [kind_rehash hL.zero, cursor_rehash hL.zero, spelling_rehash hL.zero]
    refine .bindEq (.check _) fun kind => ?_
    split
    · refine .bindEq (.find (a := ⟨.nothing, .int (tree.cursor (.numbered child)).hash⟩)
        (.declared _ _)) fun v => .bindEq (.field _ _) fun name => ?_
      split
      · exact .bindEq (.check _) fun _ => .setField _ (by decide) _
      · exact .pure rfl
    · exact .pure rfl
  · exact .pure rfl

theorem renameType (fuel : Nat) (v name : Value) :
    Coupled L Eq (renameType fuel v name) (renameType fuel v name) := by
  induction fuel generalizing v with
  | zero => exact .throw _
  | succ fuel ih =>
    refine .get fun s t h => ?_
    rw [h]
    split
    · exact .setField _ (by decide) _
    all_goals first | exact .bindEq (.field _ _) ih | exact .pure rfl

theorem addTemplateParam (v param : Value) :
    Coupled L Eq (addTemplateParam v param) (addTemplateParam v param) := by
  have hSame : ∀ (g : Graph) ps qs, g.Fills { g with classParams := ps, templateParams := qs } :=
    fun g _ _ => ⟨⟨Nat.le_refl _, fun _ _ _ _ => rfl⟩, rfl, fun _ _ h => h⟩
  refine .bindEq (.field? _ _) fun own => ?_
  split
  · exact .append v (by decide) param
  · refine .get fun s t h => ?_
    rw [h]
    split
    · exact .fill (k := fun g => { g with classParams := g.classParams ++ [param] }) fun g =>
        hSame g _ _
    · exact .fill (k := fun g => { g with templateParams := g.templateParams ++ [param] })
        fun g => hSame g _ _
    · exact .throw _

theorem visitTemplateParameter (c : Cursor) (level : Nat) :
    Coupled L Eq (visitTemplateParameter tree c level)
    (visitTemplateParameter (tree.rehash f) c level) := by
  rw [Index.visitTemplateParameter, Index.visitTemplateParameter, spelling_rehash hL.zero]
  refine .bindEq (.check _) fun param => .bindEq .top fun parent => .get fun s t h => ?_
  rw [h]
  split
  iterate 2
    · exact .bindEq (.addTemplateParam _ _) fun _ => .pure rfl
  · exact .bindEq (.shown _) fun _ => .bindEq (.tell _ _) fun _ => .pure rfl

section

variable {type type' : TypeRef → Nat → Work (Option Typed)}
variable (hType : ∀ t level, Coupled L (TypedPair f) (type t level) (type' t level))

include hType

theorem visitTypedef (c : Cursor) (level : Nat) :
    Coupled L Eq (visitTypedef tree type c level) (visitTypedef (tree.rehash f) type' c level) := by
  rw [Index.visitTypedef, Index.visitTypedef, cursor_rehash hL.zero, spelling_rehash hL.zero]
  refine .typed (hType _ _) fun a b hab hValue => ?_
  rw [hValue]
  split
  · exact .pure rfl
  · refine .get fun s t h => ?_
    rw [h]
    refine .bindEq (.field _ _) fun name => .bindEq (.literal name) fun _ =>
      .bindEq (.tell _ _) fun _ => ?_
    have hLast : ∀ isNew : Bool, Coupled L Eq
        (if isNew = true then Work.check (tree.spelling c) >>= fun n =>
          Work.make .typedef [nameValue n, a.value, .nothing] else Pure.pure .nothing)
        (if isNew = true then Work.check (tree.spelling c) >>= fun n =>
          Work.make .typedef [nameValue n, a.value, .nothing] else Pure.pure .nothing) := by
      intro isNew
      split
      · exact .bindEq (.check _) fun _ => .make _ _
      · exact .pure rfl
    dsimp only
    split
    all_goals first | exact .bindEq (.nameByTypedef tree c hab level) hLast |
      exact .bindEq (.pure rfl) hLast

theorem visitField (c : Cursor) (level : Nat) :
    Coupled L Eq (visitField tree type c level) (visitField (tree.rehash f) type' c level) := by
  rw [Index.visitField, Index.visitField, spelling_rehash hL.zero, cursor_rehash hL.zero]
  refine .bindEq (.nameByField tree c) fun _ => .bindEq .top fun parent =>
    .bindEq (.check _) fun name => ?_
  refine .typed (hType _ _) fun a b _ hab => ?_
  rw [hab]
  exact .make _ _

theorem addParameters (function : Value) (level : Nat) (args : List Nat) :
    Coupled L Eq (addParameters tree type function level args)
      (addParameters (tree.rehash f) type' function level args) := by
  induction args with
  | nil => exact .pure rfl
  | cons arg rest ih =>
    rw [Index.addParameters, Index.addParameters, kind_rehash hL.zero, spelling_rehash hL.zero,
      cursor_rehash hL.zero]
    refine .bindEq (.check _) fun kind => .bindEq (.check _) fun name =>
      .bindEq (.tell _ _) fun _ => ?_
    refine .typed (hType _ _) fun a b _ hab => ?_
    rw [hab]
    exact .bindEq (.make _ _) fun _ => .bindEq (.add _ _ _) fun _ => ih

theorem visitFunction (c : Cursor) (level : Nat) :
    Coupled L Eq (visitFunction tree type c level)
    (visitFunction (tree.rehash f) type' c level) := by
  rw [Index.visitFunction, Index.visitFunction, spelling_rehash hL.zero, cursor_rehash hL.zero]
  refine .bindEq (.check _) fun name => .typed (hType _ _) fun a b _ hab => ?_
  rw [hab]
  exact .bindEq (.make _ _) fun _ => .bindEq (.addParameters tree hType _ _ _) fun _ => .pure rfl

theorem visitTypeReference (c : Cursor) (level : Nat) :
    Coupled L Eq (visitTypeReference tree type c level) (visitTypeReference (tree.rehash f) type' c
    level) := by
  rw [Index.visitTypeReference, Index.visitTypeReference, cursor_rehash hL.zero]
  refine .typed (hType _ _) fun _ _ _ _ => .bindEq .top fun parent => ?_
  split
  · exact .pure rfl
  · refine .bindEq (.check _) fun kind => .bindEq (.shown _) fun _ => .bindEq (.tell _ _) fun _ =>
      ?_
    dsimp only
    split
    · refine .bindEq (.get fun _ _ h => .pure (by rw [h])) fun _ => ?_
      exact .bindEq (.renameType _ _ _) fun _ => .pure rfl
    · exact .pure rfl

/-- A visit enters nothing, but for that of a whole unit. -/
theorem visit (c : Cursor) {kind : Kind} (hKind : kind.name ≠ "TRANSLATION_UNIT") (level : Nat) :
    Coupled L Eq (visit tree type c kind level) (visit (tree.rehash f) type' c kind level) := by
  rw [Index.visit, Index.visit, spelling_rehash hL.zero, cursor_rehash hL.zero,
    enumValue_rehash hL.zero]
  dsimp only
  split
  case h_1 h => exact absurd h hKind
  case h_2 => exact .bindEq (.check _) fun _ => .make _ _
  case h_3 => exact .visitTypedef tree hType c level
  case h_4 | h_5 | h_7 | h_14 | h_15 =>
    exact .bindEq (.check _) fun _ => .bindEq .top fun _ => .make _ _
  case h_6 => exact .visitField tree hType c level
  case h_8 => exact .bindEq (.check _) fun _ => .bindEq (.check _) fun _ => .make _ _
  case h_9 | h_10 | h_11 | h_12 => exact .visitFunction tree hType c level
  case h_13 =>
    refine .bindEq (.check _) fun _ => .typed (hType _ _) fun a b _ hab => ?_
    rw [hab]
    exact .make _ _
  case h_16 =>
    refine .bindEq (.check _) fun _ => .bindEq .top fun _ => .typed (hType _ _) fun a b _ hab => ?_
    rw [hab]
    exact .make _ _
  case h_17 => exact .visitTypeReference tree hType c level
  case h_18 => exact .visitTemplateParameter tree c level
  case h_19 => exact .bindEq (.check _) fun _ => .bindEq (.tell _ _) fun _ => .pure rfl

end

theorem locate (c : Cursor) (v : Value) :
    Coupled L Eq (locate tree c v) (locate (tree.rehash f) c v) := by
  rw [Index.locate, Index.locate, cursor_rehash hL.zero]
  dsimp only
  split
  · exact .setField _ (by decide) _
  · exact .pure rfl

theorem readChildren {sub sub' : Cursor → Nat → Work Value} {children : List Nat}
    (hSub : ∀ child ∈ children, ∀ level, Coupled L Eq (sub (.numbered child) level)
    (sub' (.numbered child) level))
    (v : Value) (level : Nat) :
    Coupled L Eq (readChildren sub v level children) (readChildren sub' v level children) := by
  induction children with
  | nil => exact .pure rfl
  | cons child rest ih =>
    have ih := ih fun c hc => hSub c (List.mem_cons_of_mem _ hc)
    refine .bindEq (hSub child (by simp) _) fun w => ?_
    split
    · exact ih
    · refine .bindEq (.get fun _ _ h => .pure (by rw [h])) fun b => ?_
      split
      · exact .bindEq (.add _ _ _) fun _ => ih
      · exact ih

end Coupled

end PxdGen.Index
