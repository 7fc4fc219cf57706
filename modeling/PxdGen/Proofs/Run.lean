import PxdGen.Fault
/-! # Outcomes of work

Rendering and work on declarations both run in a state and may stop at a fault. `Gives x s a s'`
says that `x`, started in `s`, gives `a` and ends in `s'`; it says nothing of work that stops. The
lemmas named `gives_…` take an outcome apart, those named `Gives.…` put one together.
-/

namespace PxdGen

variable {σ α β : Type}

/-- Work that may stop at a fault, on a state. -/
abbrev Running (σ α : Type) : Type := ExceptT Fault (StateM σ) α

def Gives (x : Running σ α) (s : σ) (a : α) (s' : σ) : Prop :=
  StateT.run (ExceptT.run x) s = (.ok a, s')

variable {b : β} {a : α} {s'' s' s : σ} {bs : List β} {as : List α} {x : Running σ α}
  {f : α → Running σ β}

namespace Gives

theorem pure (a : α) (s : σ) : Gives (Pure.pure a) s a s := rfl

theorem bind (hx : Gives x s a s') (hf : Gives (f a) s' b s'') : Gives (x >>= f) s b s'' := by
  have h : StateT.run (ExceptT.run (x >>= f)) s = (match StateT.run (ExceptT.run x) s with
        | (.ok a, s') => StateT.run (ExceptT.run (f a)) s'
        | (.error e, s') => (.error e, s')) := by
    show (match StateT.run (ExceptT.run x) s with
        | (r, s') => StateT.run (ExceptT.bindCont f r) s') = _
    cases StateT.run (ExceptT.run x) s with
    | mk r s' => cases r <;> rfl
  rw [Gives, h, show StateT.run (ExceptT.run x) s = (.ok a, s') from hx]
  exact hf

/-- Work has at most one outcome. -/
theorem unique {b : α} (h : Gives x s a s') (h' : Gives x s b s'') : a = b ∧ s' = s'' := by
  have e : ((.ok a, s') : Except Fault α × σ) = (.ok b, s'') := h.symm.trans h'
  simpa using e

end Gives

/-- The work stops at a fault. -/
def Fails (x : Running σ α) (s : σ) : Prop := ∃ e s', StateT.run (ExceptT.run x) s = (.error e, s')

/-- Work that has no outcome stops at a fault. -/
theorem fails_iff : Fails x s ↔ ∀ a s', ¬ Gives x s a s' := by
  constructor
  · rintro ⟨e, t, h⟩ a s' hGives
    cases h.symm.trans hGives
  · intro h
    cases hx : StateT.run (ExceptT.run x) s with
    | mk r s' =>
      cases r with
      | ok a => exact absurd hx (h a s')
      | error e => exact ⟨e, s', hx⟩

@[simp] theorem gives_pure {a b : α} {s s' : σ} :
    Gives (pure a) s b s' ↔ b = a ∧ s' = s := by
  constructor
  · intro h
    obtain ⟨rfl, rfl⟩ := h.unique (.pure a s)
    exact ⟨rfl, rfl⟩
  · rintro ⟨rfl, rfl⟩
    exact .pure b s'

@[simp] theorem gives_throw {e : Fault} {a : α} {s s' : σ} :
    ¬ Gives (throw e : Running σ α) s a s' := by
  intro h
  have : ((.error e, s) : Except Fault α × σ) = (.ok a, s') := h
  simp at this

theorem gives_bind : Gives (x >>= f) s b s'' ↔ ∃ a s', Gives x s a s' ∧ Gives (f a) s' b s'' := by
  constructor
  · intro h
    cases hx : StateT.run (ExceptT.run x) s with
    | mk r s' =>
      cases r with
      | ok a =>
        refine ⟨a, s', hx, ?_⟩
        cases hf : StateT.run (ExceptT.run (f a)) s' with
        | mk q t =>
          have hq : StateT.run (ExceptT.run (x >>= f)) s = (q, t) := by
            show (match StateT.run (ExceptT.run x) s with
                | (r, s') => StateT.run (ExceptT.bindCont f r) s') = _
            rw [hx]
            exact hf
          rw [Gives, hq] at h
          exact hf.trans h
      | error e =>
        have hq : StateT.run (ExceptT.run (x >>= f)) s = (.error e, s') := by
          show (match StateT.run (ExceptT.run x) s with
              | (r, s') => StateT.run (ExceptT.bindCont f r) s') = _
          rw [hx]
          rfl
        have e' : ((.error e, s') : Except Fault β × σ) = (.ok b, s'') := hq.symm.trans h
        simp at e'
  · rintro ⟨a, s', hx, hf⟩
    exact hx.bind hf

/-- What is left of work when its first part is known. -/
theorem gives_after {t : σ} (hx : Gives x s a t) (h : Gives (x >>= f) s b s') :
    Gives (f a) t b s' := by
  obtain ⟨_, _, hx', hf⟩ := gives_bind.1 h
  obtain ⟨rfl, rfl⟩ := hx.unique hx'
  exact hf

theorem gives_get {a : σ} : Gives (get : Running σ σ) s a s' ↔ a = s ∧ s' = s := by
  constructor
  · intro h
    have : ((.ok s, s) : Except Fault σ × σ) = (.ok a, s') := h
    simp only [Prod.mk.injEq, Except.ok.injEq] at this
    exact ⟨this.1.symm, this.2.symm⟩
  · rintro ⟨rfl, rfl⟩
    rfl

/-- What is done with the state as it is. -/
theorem Gives.get {f : σ → Running σ β} (h : Gives (f s) s b s') :
    Gives (MonadState.get >>= f) s b s' := (gives_get.2 ⟨rfl, rfl⟩).bind h

theorem gives_modify {f : σ → σ} {u : Unit} :
    Gives (modify f : Running σ Unit) s u s' ↔ s' = f s := by
  constructor
  · intro h
    have : ((.ok (), f s) : Except Fault Unit × σ) = (.ok u, s') := h
    simp only [Prod.mk.injEq] at this
    exact this.2.symm
  · rintro rfl
    rfl

/-- Work on the items of a list, one after the other. -/
theorem gives_mapM_nil : Gives ([].mapM f) s bs s' ↔ bs = [] ∧ s' = s := by
  rw [List.mapM_nil, gives_pure]

theorem gives_mapM_cons :
    Gives ((a :: as).mapM f) s bs s' ↔
      ∃ b t bs', Gives (f a) s b t ∧ Gives (as.mapM f) t bs' s' ∧ bs = b :: bs' := by
  rw [List.mapM_cons, gives_bind]
  constructor
  · rintro ⟨b, t, hb, h⟩
    obtain ⟨bs', t', hbs, h⟩ := gives_bind.1 h
    obtain ⟨rfl, rfl⟩ := gives_pure.1 h
    exact ⟨b, t, bs', hb, hbs, rfl⟩
  · rintro ⟨b, t, bs', hb, hbs, rfl⟩
    exact ⟨b, t, hb, hbs.bind (.pure _ _)⟩

theorem Gives.mapM (g : α → β) (as : List α) (h : ∀ a ∈ as, Gives (f a) s (g a) s) :
    Gives (as.mapM f) s (as.map g) s := by
  induction as with
  | nil => exact gives_mapM_nil.2 ⟨rfl, rfl⟩
  | cons a as ih =>
    exact gives_mapM_cons.2 ⟨g a, s, _, h a (by simp), ih fun b hb => h b (by simp [hb]), rfl⟩

theorem Gives.filterM {f : α → Running σ Bool} (p : α → Bool) (as : List α)
    (h : ∀ a ∈ as, Gives (f a) s (p a) s) : Gives (as.filterM f) s (as.filter p) s := by
  have hAux : ∀ (as acc : List α), (∀ a ∈ as, Gives (f a) s (p a) s) →
      Gives (as.filterAuxM f acc) s ((as.filter p).reverse ++ acc) s := by
    intro as
    induction as with
    | nil => exact fun acc _ => .pure acc s
    | cons a as ih =>
      intro acc h
      refine (h a (by simp)).bind ?_
      have := ih (cond (p a) (a :: acc) acc) fun b hb => h b (by simp [hb])
      cases hp : p a <;> simpa [hp] using this
  have := (hAux as [] h).bind (f := fun bs => Pure.pure bs.reverse) (.pure _ s)
  simpa [List.filterM] using this

variable {u : PUnit}

theorem gives_forM_nil {f : α → Running σ PUnit} : Gives ([].forM f) s u s' ↔ s' = s := by
  show Gives (pure PUnit.unit) s u s' ↔ s' = s
  rw [gives_pure]
  exact ⟨fun h => h.2, fun h => ⟨rfl, h⟩⟩

theorem gives_forM_cons {f : α → Running σ PUnit} :
    Gives ((a :: as).forM f) s u s' ↔ ∃ t, Gives (f a) s ⟨⟩ t ∧ Gives (as.forM f) t ⟨⟩ s' := by
  show Gives (f a >>= fun _ => as.forM f) s u s' ↔ _
  rw [gives_bind]
  constructor
  · rintro ⟨_, t, h, h'⟩
    exact ⟨t, h, h'⟩
  · rintro ⟨t, h, h'⟩
    exact ⟨_, t, h, h'⟩

end PxdGen
