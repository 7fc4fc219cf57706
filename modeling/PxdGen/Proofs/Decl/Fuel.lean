import PxdGen.Proofs.Decl.Unseen
import PxdGen.Proofs.Level
/-! # More fuel

Mentions follow links and have fuel for that. With more of it they do the same, unless they ran out
of it before. Which declarations run out can change with every step of fuel, but not for longer than
there are declarations: where one step makes no difference, no further step does.
-/

namespace PxdGen

section

variable {σ α β γ : Type} {x y : Running σ α} {f g : α → Running σ β}

/-- Work that runs out of fuel. -/
def RunsOut (x : Running σ α) (s : σ) : Prop := (outcome x s).1 = .error .endless

/-- The second work does what the first does, unless the first runs out of fuel. -/
def Extends (x y : Running σ α) : Prop := ∀ s, RunsOut x s ∨ outcome y s = outcome x s

namespace Extends

@[grind .]
theorem refl (x : Running σ α) : Extends x x := fun _ => .inr rfl

theorem trans {z : Running σ α} (h : Extends x y) (h' : Extends y z) : Extends x z := by
  intro s
  rcases h s with hs | hs
  · exact .inl hs
  · refine (h' s).imp (fun hy => ?_) fun hz => hz.trans hs
    rwa [RunsOut, ← hs]

@[grind ←]
theorem bind (hx : Extends x y) (hf : ∀ a, Extends (f a) (g a)) : Extends (x >>= f) (y >>= g) := by
  intro s
  rw [RunsOut, outcome_bind, outcome_bind]
  rcases hx s with hs | hs
  · rw [RunsOut] at hs
    generalize outcome x s = p at hs
    obtain ⟨_, s'⟩ := p
    obtain rfl := hs
    exact .inl rfl
  · rw [hs]
    cases outcome x s with
    | mk r s' =>
      cases r with
      | error e => exact .inr rfl
      | ok a => exact hf a s'

@[grind ←]
theorem mapM {f g : α → Running σ β} (hf : ∀ a, Extends (f a) (g a)) (as : List α) :
    Extends (as.mapM f) (as.mapM g) := by
  induction as with
  | nil => simpa using refl _
  | cons a as ih =>
    rw [List.mapM_cons, List.mapM_cons]
    exact bind (hf a) fun b => bind ih fun bs => refl _

end Extends

/-- **What grows below `n` stops growing** after at most `n` steps, for one step at least. -/
theorem exists_no_growth {n : Nat} {D : Nat → Nat → Prop} (hMono : ∀ k i, D k i → D (k + 1) i)
    (hBound : ∀ k i, D k i → i < n) : ∃ k ≤ n, ∀ i, D (k + 1) i → D k i := by
  classical
  by_contra hNot
  simp only [not_exists, not_and, not_forall] at hNot
  have hCount : ∀ k ≤ n + 1, k ≤ (List.range n).countP fun i => decide (D k i) := by
    intro k hk
    induction k with
    | zero => exact Nat.zero_le _
    | succ k ih =>
      obtain ⟨i, hi, hi'⟩ := hNot k (by omega)
      have hLt : (List.range n).countP (fun i => decide (D k i)) <
          (List.range n).countP fun i => decide (D (k + 1) i) :=
        countP_lt_countP (a := i) (fun j _ hj => by simpa using hMono k j (by simpa using hj))
          (List.mem_range.2 (hBound _ _ hi)) (by simpa using hi') (by simpa using hi)
      have := ih (by omega)
      omega
  have hLe := List.countP_le_length (p := fun i => decide (D (n + 1) i)) (l := List.range n)
  have := hCount (n + 1) (Nat.le_refl _)
  rw [List.length_range] at hLe
  omega

end

namespace Decl

open Work

variable {sub sub' : Value → Work Value} (hsub : ∀ v, Extends (sub v) (sub' v))

include hsub

@[grind ←]
theorem extends_mentionSignature (v : Value) (each : Value → Work Unit) :
    Extends (mentionSignature sub v each) (mentionSignature sub' v each) := by
  refine .bind (.refl _) fun args => ?_
  refine .bind (.mapM (fun arg => .bind (.refl _) fun _ => hsub arg) args) fun _ => ?_
  grind

theorem extends_mentionStep (v : Value) : Extends (mentionStep sub v) (mentionStep sub' v) := by
  refine .bind (.refl _) fun origin => .bind (.refl _) fun s => ?_
  split
  case h_10 =>
    refine .bind (.refl _) fun first => .bind (.refl _) fun first => ?_
    refine .bind (.refl _) fun last => .bind (.refl _) fun last => .bind (.refl _) fun w => ?_
    exact .bind (hsub w) fun _ => .refl _
  all_goals grind [mentionFunction]

omit hsub in
/-- **A mention with more fuel does the same**, unless it ran out of fuel. -/
theorem extends_mention {n m : Nat} (h : n ≤ m) (v : Value) :
    Extends (mention n v) (mention m v) := by
  have hNext : ∀ n v, Extends (mention n v) (mention (n + 1) v) := by
    intro n
    induction n with
    | zero => exact fun _ _ => .inl rfl
    | succ n ih => exact fun v => .bind (extends_mentionStep ih v) fun w => .refl _
  induction h with
  | refl => exact .refl _
  | step _ ih => exact ih.trans (hNext _ v)

end Decl

end PxdGen
