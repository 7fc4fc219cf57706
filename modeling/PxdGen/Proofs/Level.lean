/-! # Levels

Where every step from one number to another goes down in rank, the numbers can be given levels that
go down with each step too and are bounded by how many numbers there are. So a recursion along such
steps needs no more depth than that. Steps that never lead back to where they began have such
levels.
-/

namespace PxdGen

/-- How many numbers below `n` are ranked as low as `id`. -/
def levelOf (n : Nat) (rank : Nat → Nat) (id : Nat) : Nat :=
  (List.range n).countP fun j => decide (rank j ≤ rank id)

theorem levelOf_le (n : Nat) (rank : Nat → Nat) (id : Nat) : levelOf n rank id ≤ n := by
  have h := List.countP_le_length (p := fun j => decide (rank j ≤ rank id)) (l := List.range n)
  rwa [List.length_range] at h

variable {α : Type} {n : Nat} {R : Nat → Nat → Prop}

theorem levelOf_pos (rank : Nat → Nat) {id : Nat} (h : id < n) : 0 < levelOf n rank id := by
  rw [levelOf, List.countP_pos_iff]
  exact ⟨id, List.mem_range.2 h, by simp⟩

theorem countP_lt_countP {p q : α → Bool} {l : List α} (h : ∀ x ∈ l, p x = true → q x = true)
    {a : α} (ha : a ∈ l) (hp : p a = false) (hq : q a = true) : l.countP p < l.countP q := by
  induction l with
  | nil => cases ha
  | cons b l ih =>
    have hb := h b (by simp)
    have ht : ∀ x ∈ l, p x = true → q x = true := fun x hx => h x (by simp [hx])
    rw [List.countP_cons, List.countP_cons]
    rcases List.mem_cons.1 ha with rfl | ha
    · have := List.countP_mono_left ht
      simp only [hp, hq, Bool.false_eq_true, if_false, if_true]
      omega
    · have := ih ht ha
      by_cases hpb : p b = true
      · rw [if_pos hpb, if_pos (hb hpb)]
        omega
      · rw [if_neg hpb]
        omega

theorem levelOf_lt {rank : Nat → Nat} {c p : Nat} (hp : p < n) (h : rank c < rank p) :
    levelOf n rank c < levelOf n rank p := by
  refine countP_lt_countP (a := p) ?_ (List.mem_range.2 hp) ?_ ?_
  · intro j _ hj
    simp only [decide_eq_true_eq] at hj ⊢
    omega
  · simpa using h
  · simp

/-- **Steps that run in no circle have levels**: a step from a number goes to one on a lower level,
if all steps begin at numbers below `n`. -/
theorem exists_level (hBound : ∀ i j, R i j → i < n) (hCircle : ∀ i, ¬ Relation.TransGen R i i) :
    ∃ level : Nat → Nat, (∀ i, level i ≤ n) ∧ (∀ i < n, 0 < level i) ∧
      ∀ i j, R i j → level j < level i := by
  classical
  -- the level of a number counts what can be reached from it, itself included
  let reaches (i k : Nat) : Bool := decide (k = i ∨ Relation.TransGen R i k)
  refine ⟨fun i => (List.range n).countP (reaches i), fun i => ?_, fun i hi => ?_, fun i j hij =>
    ?_⟩
  · have h := List.countP_le_length (p := reaches i) (l := List.range n)
    rwa [List.length_range] at h
  · exact List.countP_pos_iff.2 ⟨i, List.mem_range.2 hi, by simp [reaches]⟩
  · refine countP_lt_countP (a := i) ?_ (List.mem_range.2 (hBound i j hij)) ?_ (by simp [reaches])
    · intro k _ hk
      simp only [reaches, decide_eq_true_eq] at hk ⊢
      rcases hk with rfl | hk
      · exact .inr (.single hij)
      · exact .inr (Relation.TransGen.trans (.single hij) hk)
    · simp only [reaches, decide_eq_false_iff_not, not_or]
      refine ⟨?_, fun hji => hCircle i (Relation.TransGen.trans (.single hij) hji)⟩
      rintro rfl
      exact hCircle i (.single hij)

/-- Steps that go down in rank run in no circle. -/
theorem not_transGen_of_lt {R : α → α → Prop} (rank : α → Nat) (h : ∀ a b, R a b → rank b < rank a)
    (a : α) : ¬ Relation.TransGen R a a := by
  have hLt : ∀ {a b}, Relation.TransGen R a b → rank b < rank a := by
    intro a b h'
    induction h' with
    | single h' => exact h _ _ h'
    | tail _ h' ih => exact Nat.lt_trans (h _ _ h') ih
  exact fun h' => Nat.lt_irrefl _ (hLt h')

/-- Where all ways end, no step runs in a circle. -/
theorem not_transGen_of_acc (i : Nat) :
    ¬ Relation.TransGen (fun a b => R a b ∧ Acc (fun c d => R d c) a) i i := by
  intro h
  have hFlip : ∀ {a b : Nat}, Relation.TransGen (fun a b => R a b ∧ Acc (fun c d => R d c) a) a b →
      Acc (fun c d => R d c) a ∧ Relation.TransGen (fun c d => R d c) b a := by
    intro a b h
    induction h with
    | single h => exact ⟨h.2, .single h.1⟩
    | tail _ h ih => exact ⟨ih.1, Relation.TransGen.trans (.single h.1) ih.2⟩
  obtain ⟨hAcc, hBack⟩ := hFlip h
  have hIrrefl : ∀ {a : Nat}, Acc (Relation.TransGen fun c d => R d c) a →
      ¬ Relation.TransGen (fun c d => R d c) a a := by
    intro a ha
    induction ha with
    | intro a _ ih => exact fun h => ih a h h
  exact hIrrefl hAcc.transGen hBack

end PxdGen
