import Mathlib.Data.List.Forall2
import PxdGen.Proofs.Run
/-! # Work that follows other work

`Follows S S' R x y` says that whatever `x` gives from a state, `y` gives something related by `R`
from each state that corresponds to it by `S`, and that the states in which they end correspond by
`S'`. Of work that stops it says nothing, so a step at which `x` stops can be followed by anything.
-/

namespace PxdGen

variable {σ τ α β γ δ : Type}

variable {a : α} {b : β} {bs : List β} {as : List α} {R : α → β → Prop}

theorem exists_of_forall₂_left (h : List.Forall₂ R as bs) (ha : a ∈ as) : ∃ b ∈ bs, R a b := by
  induction h with
  | nil => cases ha
  | @cons a' b as bs hab _ ih =>
    rcases List.mem_cons.1 ha with rfl | ha
    · exact ⟨b, by simp, hab⟩
    · obtain ⟨b', hb', hR⟩ := ih ha
      exact ⟨b', by simp [hb'], hR⟩

theorem exists_of_forall₂_right (h : List.Forall₂ R as bs) (hb : b ∈ bs) : ∃ a ∈ as, R a b :=
  exists_of_forall₂_left (R := flip R) h.flip hb

def Follows (S S' : σ → τ → Prop) (R : α → β → Prop) (x : Running σ α) (y : Running τ β) : Prop :=
  ∀ ⦃s t a s'⦄, S s t → Gives x s a s' → ∃ b t', Gives y t b t' ∧ R a b ∧ S' s' t'

variable {g : β → Running τ δ} {f : α → Running σ γ}

namespace Follows

variable {S S₁ S₂ : σ → τ → Prop} {R : α → β → Prop} {Q : γ → δ → Prop}
variable {x : Running σ α} {y : Running τ β}

theorem pure (h : R a b) : Follows S S R (Pure.pure a) (Pure.pure b) := by
  intro s t a' s' hs hx
  obtain ⟨rfl, rfl⟩ := gives_pure.1 hx
  exact ⟨b, t, .pure b t, h, hs⟩

theorem throw (e : Fault) : Follows S S₁ R (MonadExcept.throw e) y :=
  fun _ _ _ _ _ hx => absurd hx gives_throw

theorem bind (hx : Follows S S₁ R x y) (hf : ∀ a b, R a b → Follows S₁ S₂ Q (f a) (g b)) :
    Follows S S₂ Q (x >>= f) (y >>= g) := by
  intro s t c s'' hs h
  obtain ⟨a, s', ha, h⟩ := gives_bind.1 h
  obtain ⟨b, t', hb, hab, hs'⟩ := hx hs ha
  obtain ⟨d, t'', hd, hcd, hs''⟩ := hf a b hab hs' h
  exact ⟨d, t'', hb.bind hd, hcd, hs''⟩

theorem bindEq {x : Running σ α} {y : Running τ α} {g : α → Running τ δ} (hx : Follows S S₁ Eq x y)
    (hf : ∀ a, Follows S₁ S₂ Q (f a) (g a)) :
    Follows S S₂ Q (x >>= f) (y >>= g) := bind hx fun a _ hab => hab ▸ hf a

theorem assuming (h : ∀ s t, S s t → Follows S S₁ R x y) : Follows S S₁ R x y :=
  fun _ _ _ _ hs hx => h _ _ hs hs hx

/-- What is done with the states as they are. -/
theorem get {f : σ → Running σ γ} {g : τ → Running τ δ}
    (hf : ∀ s t, S s t → Follows S S₂ Q (f s) (g t)) : Follows S S₂ Q (get >>= f) (get >>= g) := by
  intro s t c s'' hs h
  obtain ⟨_, _, ha, h⟩ := gives_bind.1 h
  obtain ⟨rfl, rfl⟩ := gives_get.1 ha
  obtain ⟨d, t'', hd, hcd, hs''⟩ := hf _ t hs hs h
  exact ⟨d, t'', Gives.get hd, hcd, hs''⟩

theorem modify {f : σ → σ} {g : τ → τ} (h : ∀ s t, S s t → S₁ (f s) (g t)) :
    Follows S S₁ (fun _ _ => True) (modify f) (modify g) := by
  intro s t u s' hs hx
  obtain rfl := gives_modify.1 hx
  exact ⟨(), g t, gives_modify.2 rfl, trivial, h s t hs⟩

theorem mono {R' : α → β → Prop} (h : Follows S S₁ R x y) (hR : ∀ a b, R a b → R' a b) :
    Follows S S₁ R' x y := by
  intro s t a s' hs hx
  obtain ⟨b, t', hy, hab, hs'⟩ := h hs hx
  exact ⟨b, t', hy, hR a b hab, hs'⟩

/-- Work on the items of two lists, one after the other. -/
theorem mapM (hf : ∀ a b, R a b → Follows S S Q (f a) (g b)) (h : List.Forall₂ R as bs) :
    Follows S S (List.Forall₂ Q) (as.mapM f) (bs.mapM g) := by
  induction h with
  | nil => simpa using pure .nil
  | cons hab _ ih =>
    rw [List.mapM_cons, List.mapM_cons]
    exact bind (hf _ _ hab) fun c d hcd => bind ih fun cs ds hcds => pure (.cons hcd hcds)

/-- Work with equal results on the items of two lists. -/
theorem mapMEq {g : β → Running τ γ} (hf : ∀ a b, R a b → Follows S S Eq (f a) (g b))
    (h : List.Forall₂ R as bs) : Follows S S Eq (as.mapM f) (bs.mapM g) :=
  (mapM hf h).mono fun _ _ h => by rwa [List.forall₂_eq_eq_eq] at h

theorem forM {f : α → Running σ PUnit} {g : β → Running τ PUnit}
    (hf : ∀ a b, R a b → Follows S S (fun _ _ => True) (f a) (g b)) (h : List.Forall₂ R as bs) :
    Follows S S (fun _ _ => True) (as.forM f) (bs.forM g) := by
  induction h with
  | nil => exact pure trivial
  | cons hab _ ih => exact bind (hf _ _ hab) fun _ _ _ => ih

/-- A test of each item of two lists. -/
theorem filterM {f : α → Running σ Bool} {g : β → Running τ Bool}
    (hf : ∀ a b, R a b → Follows S S Eq (f a) (g b)) (h : List.Forall₂ R as bs) :
    Follows S S (List.Forall₂ R) (as.filterM f) (bs.filterM g) := by
  have hAux : ∀ {kept : List α} {kept' : List β}, List.Forall₂ R kept kept' →
      Follows S S (List.Forall₂ R) (as.filterAuxM f kept) (bs.filterAuxM g kept') := by
    induction h with
    | nil => exact fun hk => pure hk
    | cons hab _ ih =>
      intro kept kept' hk
      refine bind (hf _ _ hab) fun p q hpq => ?_
      subst hpq
      cases p
      · exact ih hk
      · exact ih (.cons hab hk)
  exact bind (hAux .nil) fun _ _ hk => pure (List.rel_reverse hk)

end Follows

end PxdGen
