import PxdGen.Proofs.Dump.Sound
/-! # Two readings side by side

A piece of a dump is read twice, from two sessions and under different keys. What is made and
entered corresponds piece by piece: the numbers differ by how far the sessions had come, the keys by
their renaming, and what was there before stays untouched on both sides.
-/

namespace PxdGen.Decl

variable {P P' : Nat → Nat → Prop} {ρ : String → String}

/-- Links to numbers that correspond. -/
def LinkBy (P : Nat → Nat → Prop) (v w : Value) : Prop := ∃ i j, P i j ∧ v = .link i ∧ w = .link j

/-- What corresponds in two declarations that have been read under other keys and numbers. -/
def Unresolved (P : Nat → Nat → Prop) (ρ : String → String) (name : String) (v w : Value) : Prop :=
  if name = "arguments" ∨ name = "values" then
    ∃ vs ws, v = .list vs ∧ w = .list ws ∧ List.Forall₂ (LinkBy P) vs ws
  else Fresh ρ name v w

variable {v w : Value} {name : String}

theorem LinkBy.mono (hP : ∀ i j, P i j → P' i j) (h : LinkBy P v w) : LinkBy P' v w := by
  obtain ⟨i, j, hij, rfl, rfl⟩ := h
  exact ⟨i, j, hP i j hij, rfl, rfl⟩

theorem Unresolved.mono (hP : ∀ i j, P i j → P' i j) (h : Unresolved P ρ name v w) :
    Unresolved P' ρ name v w := by
  unfold Unresolved at h ⊢
  by_cases hname : name = "arguments" ∨ name = "values"
  · rw [if_pos hname] at h ⊢
    obtain ⟨vs, ws, rfl, rfl, hl⟩ := h
    exact ⟨vs, ws, rfl, rfl, hl.imp fun _ _ => LinkBy.mono hP⟩
  · rw [if_neg hname] at h ⊢
    exact h

theorem Fresh.unresolved (h : Fresh ρ name v w) : Unresolved P ρ name v w := by
  unfold Unresolved
  split
  · rename_i hname
    obtain ⟨rfl, rfl⟩ : v = .list [] ∧ w = .list [] := by
      rcases hname with rfl | rfl <;> exact h
    exact ⟨[], [], rfl, rfl, .nil⟩
  · exact h

end PxdGen.Decl

namespace PxdGen.Dump

open Decl Decl.Work

variable {ρ : String → String}

/-- Keys and declarations that correspond. -/
structure KeyPair (P : Nat → Nat → Prop) (ρ : String → String) (f f' : Key × Value) : Prop where
  key : (∃ a, f.1 = .named (.text a) ∧ f'.1 = .named (.text (ρ a))) ∨
    ∃ i j, P i j ∧ f.1 = .serial i ∧ f'.1 = .serial j
  value : LinkBy P f.2 f'.2

theorem KeyPair.mono {P P' : Nat → Nat → Prop} (hP : ∀ i j, P i j → P' i j) {f f' : Key × Value}
    (h : KeyPair P ρ f f') : KeyPair P' ρ f f' := by
  refine ⟨h.key.imp_right ?_, h.value.mono hP⟩
  rintro ⟨i, j, hij, hk, hk'⟩
  exact ⟨i, j, hP i j hij, hk, hk'⟩

/-- Numbers of what has been made since `b` and since `c`, at the same distance. -/
def Beside (b c s : Session) (i j : Nat) : Prop :=
  b.graph.entries.size ≤ i ∧ i < s.graph.entries.size ∧
    j + b.graph.entries.size = i + c.graph.entries.size

/-- Readings that have led from `b` to `s` and from `c` to `t`. -/
structure Parallel (ρ : String → String) (b c s t : Session) : Prop where
  start : b.graph.entries.size ≤ s.graph.entries.size
  size : t.graph.entries.size + b.graph.entries.size = s.graph.entries.size + c.graph.entries.size
  left : ∀ i, i < b.graph.entries.size → s.graph.get? i = b.graph.get? i
  right : ∀ j, j < c.graph.entries.size → t.graph.get? j = c.graph.get? j
  entry : ∀ i j e, Beside b c s i j → s.graph.get? i = some e →
    ∃ e', t.graph.get? j = some e' ∧ e.Pairs (Unresolved (Beside b c s) ρ) e'
  context : List.Forall₂ (LinkBy (Beside b c s)) s.context t.context
  table : ∃ T T', s.table.entries.toList = b.table.entries.toList ++ T ∧
    t.table.entries.toList = c.table.entries.toList ++ T' ∧
    List.Forall₂ (KeyPair (Beside b c s) ρ) T T'
  revision : (s.revision = b.revision ∧ t.revision = c.revision) ∨ t.revision = s.revision

variable {form : Form} {e' e : Entry} {c b : Session}

theorem Beside.mono {s s' : Session} (hs : s.graph.entries.size ≤ s'.graph.entries.size) {i j : Nat}
    (h : Beside b c s i j) : Beside b c s' i j :=
  ⟨h.1, Nat.lt_of_lt_of_le h.2.1 hs, h.2.2⟩

theorem Parallel.refl (hb : b.context = []) (hc : c.context = []) :
    Parallel ρ b c b c where
  start := Nat.le_refl _
  size := Nat.add_comm _ _
  left := fun _ _ => rfl
  right := fun _ _ => rfl
  entry := fun i j e h => absurd h.1 (Nat.not_le_of_lt h.2.1)
  context := by rw [hb, hc]; exact .nil
  table := ⟨[], [], by simp, by simp, .nil⟩
  revision := .inl ⟨rfl, rfl⟩

namespace Parallel

variable {b c s t s' : Session} {tag : String} {attrs attrs' : List (String × String)}
variable {done done' : List Xml.Event}

/-- The numbers of the next declarations correspond. -/
theorem beside_next (h : Parallel ρ b c s t)
    (hs' : s'.graph.entries.size = s.graph.entries.size + 1) :
    Beside b c s' s.graph.entries.size t.graph.entries.size := by
  have := h.size
  exact ⟨h.start, by omega, by omega⟩

theorem pairs_mono (hs' : s.graph.entries.size ≤ s'.graph.entries.size)
    (h : e.Pairs (Unresolved (Beside b c s) ρ) e') : e.Pairs (Unresolved (Beside b c s') ρ) e' :=
  h.mono fun _ _ _ => Unresolved.mono fun _ _ => Beside.mono hs'

theorem declare (h : Parallel ρ b c s t) (hs : Sound done s) (ht : Sound done' t)
    (hr : Renamed ρ tag attrs attrs') (hkey : ∀ a, attrs.lookup "id" = some a → a ∉ ids done)
    (hkey' : ∀ a, attrs'.lookup "id" = some a → a ∉ ids done') (hnew : NewPair ρ form e e') :
    Parallel ρ b c (Dump.declare tag (attrs.lookup "id") e s)
      (Dump.declare tag (attrs'.lookup "id") e' t) := by
  have hsize : (Dump.declare tag (attrs.lookup "id") e s).graph.entries.size =
      s.graph.entries.size + 1 := Graph.size_add _ _
  have hsize' : (Dump.declare tag (attrs'.lookup "id") e' t).graph.entries.size =
      t.graph.entries.size + 1 := Graph.size_add _ _
  have hnext := h.beside_next hsize
  have hle : s.graph.entries.size ≤
      (Dump.declare tag (attrs.lookup "id") e s).graph.entries.size := by omega
  have hstart := h.start
  have hsizes := h.size
  constructor
  case start => omega
  case size => omega
  case left =>
    intro i hi
    exact (Graph.get?_add_of_lt _ _ (by omega)).trans (h.left i hi)
  case right =>
    intro j hj
    exact (Graph.get?_add_of_lt _ _ (by omega)).trans (h.right j hj)
  case entry =>
    intro i j e₀ hij he₀
    obtain ⟨hi, hi', hj⟩ := hij
    change (s.graph.add e).2.get? i = some e₀ at he₀
    show ∃ e₀', (t.graph.add e').2.get? j = some e₀' ∧ _
    rw [Graph.get?_add] at he₀ ⊢
    by_cases hlast : i = s.graph.entries.size
    · rw [if_pos hlast] at he₀
      obtain rfl := Option.some.inj he₀
      rw [if_pos (by omega)]
      exact ⟨e', rfl, hnew.pairs.mono fun _ _ _ => Fresh.unresolved⟩
    · rw [if_neg hlast] at he₀
      rw [if_neg (by omega)]
      obtain ⟨e₀', he₀', hp⟩ := h.entry i j e₀ ⟨hi, by omega, hj⟩ he₀
      exact ⟨e₀', he₀', pairs_mono hle hp⟩
  case context =>
    have hold : List.Forall₂ (LinkBy (Beside b c (Dump.declare tag (attrs.lookup "id") e s)))
        s.context t.context := h.context.imp fun _ _ => LinkBy.mono fun _ _ => Beside.mono hle
    simp only [Dump.declare]
    split
    · exact .cons ⟨_, _, hnext, rfl, rfl⟩ hold
    · exact hold
  case table =>
    obtain ⟨T, T', hT, hT', hTT⟩ := h.table
    refine ⟨T ++ [(keyFor s (attrs.lookup "id"), .link s.graph.entries.size)],
      T' ++ [(keyFor t (attrs'.lookup "id"), .link t.graph.entries.size)], ?_, ?_, ?_⟩
    · rw [← List.append_assoc, ← hT]
      exact Table.toList_insert_of_fresh _ (hs.fresh hkey)
    · rw [← List.append_assoc, ← hT']
      exact Table.toList_insert_of_fresh _ (ht.fresh hkey')
    · refine List.rel_append (hTT.imp fun f f' hf => ?_) (.cons ⟨?_, ?_⟩ .nil)
      · exact hf.mono fun _ _ => Beside.mono hle
      · rw [hr.key "id" (by decide)]
        cases attrs.lookup "id" with
        | none => exact .inr ⟨_, _, hnext, rfl, rfl⟩
        | some a => exact .inl ⟨a, rfl, rfl⟩
      · exact ⟨_, _, hnext, rfl, rfl⟩
  case revision => exact h.revision

theorem attach (h : Parallel ρ b c s t) {p q : Nat} (hpq : Beside b c s p q) {slot : String}
    (hslot : slot = "arguments" ∨ slot = "values") {items items' : List Value}
    (hitems : List.Forall₂ (LinkBy (Beside b c s)) items items') (hnew : NewPair ρ form e e') :
    Parallel ρ b c (Dump.attach p slot items e s) (Dump.attach q slot items' e' t) := by
  have hsize : (Dump.attach p slot items e s).graph.entries.size = s.graph.entries.size + 1 := by
    simp [Dump.attach]
  have hsize' : (Dump.attach q slot items' e' t).graph.entries.size = t.graph.entries.size + 1 := by
    simp [Dump.attach]
  have hnext := h.beside_next hsize
  have hle : s.graph.entries.size ≤ (Dump.attach p slot items e s).graph.entries.size := by omega
  have hstart := h.start
  have hsizes := h.size
  obtain ⟨hp, hp', hq⟩ := hpq
  have hq' : q < t.graph.entries.size := by omega
  constructor
  case start => omega
  case size => omega
  case left =>
    intro i hi
    rw [Sound.get?_attach hp', if_neg (by omega), if_neg (by omega), h.left i hi]
  case right =>
    intro j hj
    rw [Sound.get?_attach hq', if_neg (by omega), if_neg (by omega), h.right j hj]
  case entry =>
    intro i j e₀ hij he₀
    obtain ⟨hi, hi', hj⟩ := hij
    rw [Sound.get?_attach hq']
    obtain ⟨rfl, rfl⟩ | ⟨rfl, e₁, he₁, rfl⟩ | ⟨hip, hold⟩ := Sound.get?_attach_cases hp' he₀
    · rw [if_neg (by omega), if_pos (by omega)]
      exact ⟨e', rfl, hnew.pairs.mono fun _ _ _ => Fresh.unresolved⟩
    · obtain ⟨e₁', he₁', hpairs⟩ := h.entry i q e₁ ⟨hp, hp', hq⟩ he₁
      rw [if_pos (by omega), he₁']
      refine ⟨_, rfl, (pairs_mono hle hpairs).set ?_⟩
      rw [Unresolved, if_pos hslot]
      refine ⟨_, _, rfl, rfl, List.rel_append (hitems.imp fun _ _ => ?_)
        (.cons ⟨_, _, hnext, rfl, rfl⟩ .nil)⟩
      exact LinkBy.mono fun _ _ => Beside.mono hle
    · have hlt := Graph.lt_size_of_get? _ hold
      obtain ⟨e₀', he₀', hpairs⟩ := h.entry i j e₀ ⟨hi, hlt, hj⟩ hold
      rw [if_neg (by omega), if_neg (by omega)]
      exact ⟨e₀', he₀', pairs_mono hle hpairs⟩
  case context => exact h.context.imp fun _ _ => LinkBy.mono fun _ _ => Beside.mono hle
  case table =>
    obtain ⟨T, T', hT, hT', hTT⟩ := h.table
    refine ⟨T, T', hT, hT', hTT.imp fun f f' hf => ?_⟩
    exact hf.mono fun _ _ => Beside.mono hle
  case revision => exact h.revision

end Parallel

end PxdGen.Dump
