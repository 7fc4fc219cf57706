import PxdGen.Proofs.Follow
/-! # Work in step with other work

Two pieces of work are in step on states that correspond by `S` if they end alike: both give
results, which are related by `R`, or both stop at the same fault, and the states in which they end
correspond again. Unlike `Follows`, which says nothing of work that stops, this compares every
outcome.
-/

namespace PxdGen

variable {σ τ α β γ δ : Type}

/-- How work ends in a state. -/
def outcome (x : Running σ α) (s : σ) : Except Fault α × σ := StateT.run (ExceptT.run x) s

theorem outcome_bind (x : Running σ α) (f : α → Running σ β) (s : σ) :
    outcome (x >>= f) s = match outcome x s with
      | (.ok a, s') => outcome (f a) s'
      | (.error e, s') => (.error e, s') := by
  show (match outcome x s with
    | (r, s') => StateT.run (ExceptT.bindCont f r) s') = _
  cases outcome x s with
  | mk r s' => cases r <;> rfl

variable {a : α} {s : σ} {x : Running σ α} {R' : α → β → Prop}

theorem gives_iff_outcome {s' : σ} :
    Gives x s a s' ↔ outcome x s = (.ok a, s') := Iff.rfl

theorem exists_gives_of_isOk (h : (outcome x s).1.isOk = true) :
    ∃ a, Gives x s a (outcome x s).2 := by
  cases hx : outcome x s with
  | mk r s' =>
    rw [hx] at h
    cases r with
    | ok a => exact ⟨a, gives_iff_outcome.2 hx⟩
    | error e => cases h

/-- Outcomes that correspond. -/
inductive Agree (S : σ → τ → Prop) (R : α → β → Prop) :
    Except Fault α × σ → Except Fault β × τ → Prop
  | ok {a : α} {b : β} {s : σ} {t : τ} (hR : R a b) (hS : S s t) : Agree S R (.ok a, s) (.ok b, t)
  | error (e : Fault) {s : σ} {t : τ} (hS : S s t) : Agree S R (.error e, s) (.error e, t)

theorem Agree.mono {S S' : σ → τ → Prop} {R : α → β → Prop} {p : Except Fault α × σ}
    {q : Except Fault β × τ} (h : Agree S R p q) (hS : ∀ s t, S s t → S' s t)
    (hR : ∀ a b, R a b → R' a b) : Agree S' R' p q := by
  cases h with
  | ok h hs => exact .ok (hR _ _ h) (hS _ _ hs)
  | error e hs => exact .error e (hS _ _ hs)

def InStep (S : σ → τ → Prop) (R : α → β → Prop) (x : Running σ α) (y : Running τ β) : Prop :=
  ∀ ⦃s t⦄, S s t → Agree S R (outcome x s) (outcome y t)

/-- Work that is in step with itself. -/
abbrev Steady (S : σ → σ → Prop) (x : Running σ α) : Prop := InStep S Eq x x

variable {g : β → Running τ δ} {f : α → Running σ γ}

namespace InStep

variable {S : σ → τ → Prop} {R : α → β → Prop} {Q : γ → δ → Prop}
variable {x : Running σ α} {y : Running τ β}

@[grind ←]
theorem pure {b : β} (h : R a b) : InStep S R (Pure.pure a) (Pure.pure b) :=
  fun _ _ hs => .ok h hs

@[grind .]
theorem throw (e : Fault) : InStep S R (MonadExcept.throw e) (MonadExcept.throw e) :=
  fun _ _ hs => .error e hs

theorem bind (hx : InStep S R x y) (hf : ∀ a b, R a b → InStep S Q (f a) (g b)) :
    InStep S Q (x >>= f) (y >>= g) := by
  intro s t hs
  rw [outcome_bind, outcome_bind]
  have h := hx hs
  generalize outcome x s = p, outcome y t = q at h
  cases h with
  | ok hR hS => exact hf _ _ hR hS
  | error e hS => exact .error e hS

@[grind ←]
theorem bindEq {y : Running τ α} {g : α → Running τ δ} (hx : InStep S Eq x y)
    (hf : ∀ a, InStep S Q (f a) (g a)) : InStep S Q (x >>= f) (y >>= g) :=
  bind hx fun a _ hab => hab ▸ hf a

/-- What is done with the states as they are. -/
theorem get {f : σ → Running σ γ} {g : τ → Running τ δ}
    (hf : ∀ s t, S s t → InStep S Q (f s) (g t)) : InStep S Q (get >>= f) (get >>= g) :=
  fun s t hs => hf s t hs hs

theorem modify {f : σ → σ} {g : τ → τ} (h : ∀ s t, S s t → S (f s) (g t)) :
    InStep S Eq (modify f) (modify g) :=
  fun s t hs => .ok rfl (h s t hs)

theorem mono (h : InStep S R x y) (hR : ∀ a b, R a b → R' a b) :
    InStep S R' x y :=
  fun _ _ hs => (h hs).mono (fun _ _ hs => hs) hR

/-- Work on the items of two lists, one after the other. -/
theorem mapM (hf : ∀ a b, R a b → InStep S Q (f a) (g b)) {as : List α} {bs : List β}
    (h : List.Forall₂ R as bs) : InStep S (List.Forall₂ Q) (as.mapM f) (bs.mapM g) := by
  induction h with
  | nil => simpa using pure .nil
  | cons hab _ ih =>
    rw [List.mapM_cons, List.mapM_cons]
    exact bind (hf _ _ hab) fun c d hcd => bind ih fun cs ds hcds => pure (.cons hcd hcds)

/-- Work with equal results on the items of one list. -/
theorem mapMOn {g : α → Running τ γ} (as : List α) (hf : ∀ a ∈ as, InStep S Eq (f a) (g a)) :
    InStep S Eq (as.mapM f) (as.mapM g) := by
  induction as with
  | nil => simpa using pure rfl
  | cons a as ih =>
    rw [List.mapM_cons, List.mapM_cons]
    exact bindEq (hf a (by simp)) fun b => bindEq (ih fun a ha => hf a (by simp [ha])) fun bs =>
      pure rfl

@[grind ←]
theorem mapMEq {g : α → Running τ γ} (hf : ∀ a, InStep S Eq (f a) (g a)) (as : List α) :
    InStep S Eq (as.mapM f) (as.mapM g) := mapMOn as fun a _ => hf a

@[grind ←]
theorem forM {f : α → Running σ PUnit} {g : α → Running τ PUnit} (hf : ∀ a, InStep S Eq (f a) (g a))
    (as : List α) : InStep S Eq (as.forM f) (as.forM g) := by
  induction as with
  | nil => exact pure rfl
  | cons a as ih => exact bindEq (hf a) fun _ => ih

theorem foldlM {f : γ → α → Running σ γ} {g : γ → α → Running τ γ}
    (hf : ∀ c a, InStep S Eq (f c a) (g c a)) (as : List α) (c : γ) :
    InStep S Eq (as.foldlM f c) (as.foldlM g c) := by
  induction as generalizing c with
  | nil => exact pure rfl
  | cons a as ih =>
    rw [List.foldlM_cons, List.foldlM_cons]
    exact bindEq (hf c a) ih

theorem fst_eq {y : Running τ α} (h : InStep S Eq x y) {t : τ} (hs : S s t) :
    (outcome y t).1 = (outcome x s).1 := by
  have h := h hs
  generalize outcome x s = p, outcome y t = q at h
  cases h with
  | ok hR _ => rw [hR]
  | error e _ => rfl

end InStep

end PxdGen
