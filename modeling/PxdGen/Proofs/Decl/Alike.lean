import PxdGen.Decl.Member
import PxdGen.Proofs.Decl.Graph
import PxdGen.Proofs.Follow
/-! # Graphs that differ in their numbers

Two graphs have the same declarations under other numbers if the fields of each declaration of the
one correspond to those of its counterpart in the other. The numbers that are still free are the
same in both.
-/

namespace PxdGen.Decl

open Work

variable {name : String} {C' : String → Value → Value → Prop}

/-! ### Fields that correspond -/

variable {v w a b : Value}

namespace Entry

/-- Two declarations of one form whose fields correspond, name by name. -/
structure Pairs (C : String → Value → Value → Prop) (e e' : Entry) : Prop where
  form : e'.form = e.form
  fields : List.Forall₂ (fun f f' => f'.1 = f.1 ∧ C f.1 f.2 f'.2) e.fields e'.fields

variable {C : String → Value → Value → Prop} {e e' : Entry}

theorem Pairs.get? (h : e.Pairs C e') {name : String} (hv : e.get? name = some v) :
    ∃ w, e'.get? name = some w ∧ C name v w := by
  have hf := h.fields
  simp only [Entry.get?] at hv ⊢
  generalize e.fields = l, e'.fields = l' at hf hv ⊢
  induction hf with
  | nil => cases hv
  | @cons f f' l l' hff _ ih =>
    obtain ⟨n, a⟩ := f
    obtain ⟨n', b⟩ := f'
    obtain ⟨rfl, hC⟩ : n' = n ∧ C n a b := hff
    rw [List.lookup_cons] at hv ⊢
    split at hv
    · obtain rfl := Option.some.inj hv
      rename_i hn
      obtain rfl : name = n' := by simpa using hn
      exact ⟨b, by simp, hC⟩
    · rename_i hn
      obtain ⟨w, hw, hCw⟩ := ih hv
      exact ⟨w, by simpa [hn] using hw, hCw⟩

theorem Pairs.get?_none (h : e.Pairs C e') (hv : e.get? name = none) : e'.get? name = none := by
  have hf := h.fields
  simp only [Entry.get?] at hv ⊢
  generalize e.fields = l, e'.fields = l' at hf hv ⊢
  induction hf with
  | nil => rfl
  | @cons f f' l l' hff _ ih =>
    rw [List.lookup_cons] at hv ⊢
    split at hv
    · cases hv
    · rename_i hn
      simpa [hff.1, hn] using ih hv

theorem forall₂_putField {l l' : List (String × Value)} (hC : C name v w)
    (h : List.Forall₂ (fun f f' => f'.1 = f.1 ∧ C f.1 f.2 f'.2) l l') :
    List.Forall₂ (fun f f' => f'.1 = f.1 ∧ C f.1 f.2 f'.2)
      (Value.putField name v l) (Value.putField name w l') := by
  induction h with
  | nil => exact .cons ⟨rfl, hC⟩ .nil
  | @cons f f' l l' hff hl ih =>
    simp only [Value.putField, hff.1]
    split
    · rename_i hn
      obtain rfl : f.1 = name := by simpa using hn
      exact .cons ⟨rfl, hC⟩ hl
    · exact .cons ⟨rfl, hff.2⟩ ih

theorem Pairs.set (h : e.Pairs C e') {name : String} (hC : C name v w) :
    (e.set name v).Pairs C (e'.set name w) := ⟨h.form, forall₂_putField hC h.fields⟩

theorem Pairs.mono (h : e.Pairs C e')
    (hC : ∀ f ∈ e.fields, ∀ w, C f.1 f.2 w → C' f.1 f.2 w) : e.Pairs C' e' := by
  refine ⟨h.form, ?_⟩
  have hf := h.fields
  rw [List.forall₂_iff_zip] at hf ⊢
  refine ⟨hf.1, fun hab => ?_⟩
  obtain ⟨hn, hc⟩ := hf.2 hab
  exact ⟨hn, hC _ (List.of_mem_zip hab).1 _ hc⟩

/-- Two declarations of one form that have the same fields, in whatever order, with values that
correspond. -/
structure Corresponds (C : String → Value → Value → Prop) (e e' : Entry) : Prop where
  form : e'.form = e.form
  field : ∀ name, (e.get? name = none ∧ e'.get? name = none) ∨
    ∃ v w, e.get? name = some v ∧ e'.get? name = some w ∧ C name v w

theorem Pairs.corresponds (h : e.Pairs C e') : e.Corresponds C e' where
  form := h.form
  field := by
    intro name
    cases hv : e.get? name with
    | none => exact .inl ⟨rfl, h.get?_none hv⟩
    | some v =>
      obtain ⟨w, hw, hC⟩ := h.get? hv
      exact .inr ⟨v, w, rfl, hw, hC⟩

namespace Corresponds

theorem mono (h : e.Corresponds C e')
    (hC : ∀ name v w, C name v w → C' name v w) : e.Corresponds C' e' where
  form := h.form
  field := fun name => (h.field name).imp_right fun ⟨v, w, hv, hw, hvw⟩ =>
    ⟨v, w, hv, hw, hC name v w hvw⟩

theorem set (h : e.Corresponds C e') {name : String} (hC : C name v w) :
    (e.set name v).Corresponds C (e'.set name w) where
  form := h.form
  field := by
    intro n
    simp only [Entry.get?_set]
    split
    · rename_i hn
      exact .inr ⟨v, w, rfl, rfl, hn ▸ hC⟩
    · exact h.field n

end Corresponds

end Entry

/-! ### Links to counterparts -/

/-- A link and the link to its counterpart. -/
def Link (π : Nat → Nat) (v w : Value) : Prop := ∃ i, v = .link i ∧ w = .link (π i)

/-- Links to counterparts, or keys, which may differ. -/
def Near (π : Nat → Nat) (v w : Value) : Prop := Link π v w ∨ ∃ a b, v = .text a ∧ w = .text b

/-- Lists of links to counterparts. -/
def Links (π : Nat → Nat) (v w : Value) : Prop :=
  ∃ vs ws, v = .list vs ∧ w = .list ws ∧ List.Forall₂ (Link π) vs ws

/-- What corresponds under a name of a field when all keys have been resolved, apart from those of
arguments that nothing takes. -/
def Resolved (π : Nat → Nat) (name : String) (v w : Value) : Prop :=
  match name with
  | "typ" | "returns" | "context" => Near π v w
  | "members" | "bases" | "arguments" | "values" => Links π v w
  | "name" => w = v ∧ (v = .nothing ∨ ∃ a, v = .text a)
  | _ => w = v

/-- Two sessions whose graphs have the same declarations, where `π` numbers the counterparts. -/
structure Alike (π : Nat → Nat) (s t : Session) : Prop where
  origin : s.graph.origin = .dump ∧ t.graph.origin = .dump
  size : t.graph.entries.size = s.graph.entries.size
  inj : ∀ i j, π i = π j → i = j
  fixed : ∀ i, s.graph.entries.size ≤ i → π i = i
  entry : ∀ i e, s.graph.get? i = some e →
    ∃ e', t.graph.get? (π i) = some e' ∧ e.Corresponds (Resolved π) e'

namespace Alike

variable {π : Nat → Nat} {s t : Session} {v w : Value}

theorem get?_none (h : Alike π s t) {i : Nat} (hi : s.graph.get? i = none) :
    t.graph.get? (π i) = none := by
  have hs : s.graph.entries.size ≤ i := Array.getElem?_eq_none_iff.1 hi
  rw [h.fixed i hs]
  exact Array.getElem?_eq_none_iff.2 (h.size ▸ hs)

theorem form? (h : Alike π s t) (hv : Near π v w) : t.graph.form? w = s.graph.form? v := by
  obtain ⟨i, rfl, rfl⟩ | ⟨a, b, rfl, rfl⟩ := hv
  · cases he : s.graph.get? i with
    | none => simp [Graph.form?, he, h.get?_none he]
    | some e =>
      obtain ⟨e', he', hp⟩ := h.entry i e he
      simp [Graph.form?, he, he', hp.form]
  · rfl

theorem field? (h : Alike π s t) (hv : Near π v w) (name : String) :
    (s.graph.field? v name = none ∧ t.graph.field? w name = none) ∨
      ∃ a b, s.graph.field? v name = some a ∧ t.graph.field? w name = some b ∧
      Resolved π name a b := by
  obtain ⟨i, rfl, rfl⟩ | ⟨a, b, rfl, rfl⟩ := hv
  · cases he : s.graph.get? i with
    | none => exact .inl (by simp [Graph.field?, he, h.get?_none he])
    | some e =>
      obtain ⟨e', he', hp⟩ := h.entry i e he
      simp only [Graph.field?, he, he', Option.bind_some]
      exact hp.field name
  · exact .inl ⟨rfl, rfl⟩

theorem of_graph (h : Alike π s t) {s' t' : Session} (hs : s'.graph = s.graph)
    (ht : t'.graph = t.graph) : Alike π s' t' where
  origin := by rw [hs, ht]; exact h.origin
  size := by rw [hs, ht]; exact h.size
  inj := h.inj
  fixed := by rw [hs]; exact h.fixed
  entry := by rw [hs, ht]; exact h.entry

theorem setField (h : Alike π s t) (i : Nat) {name : String} (hab : Resolved π name a b) :
    Alike π { s with graph := s.graph.setField i name a }
      { t with graph := t.graph.setField (π i) name b } where
  origin := h.origin
  size := by simpa using h.size
  inj := h.inj
  fixed := by simpa using h.fixed
  entry := by
    intro j e he
    simp only [Graph.get?_setField] at he ⊢
    by_cases hij : i = j
    · subst hij
      rw [if_pos rfl] at he ⊢
      obtain ⟨e₀, he₀, rfl⟩ := Option.map_eq_some_iff.1 he
      obtain ⟨e', he', hp⟩ := h.entry i e₀ he₀
      exact ⟨e'.set name b, by simp [he'], hp.set hab⟩
    · rw [if_neg hij] at he
      rw [if_neg fun hπ => hij (h.inj i j hπ)]
      exact h.entry j e he

theorem add (h : Alike π s t) {e e' : Entry} (he : e.Corresponds (Resolved π) e') :
    Alike π { s with graph := (s.graph.add e).2 } { t with graph := (t.graph.add e').2 } where
  origin := h.origin
  size := by simp [h.size]
  inj := h.inj
  fixed := by
    intro i hi
    rw [Graph.size_add] at hi
    exact h.fixed i (by omega)
  entry := by
    intro i e₀ he₀
    rw [Graph.get?_add] at he₀
    split at he₀
    · rename_i hi
      obtain rfl := Option.some.inj he₀
      refine ⟨e', ?_, he⟩
      rw [h.fixed i (by omega), hi, ← h.size, Graph.get?_add_self]
    · obtain ⟨e₁, he₁, hp⟩ := h.entry i e₀ he₀
      exact ⟨e₁, by rw [Graph.get?_add_of_lt _ _ (Graph.lt_size_of_get? _ he₁), he₁], hp⟩

theorem same_eq (h : Alike π s t) {v' w' : Value} (hv : Near π v w) (hv' : Link π v' w') :
    w.same w' = v.same v' := by
  obtain ⟨j, rfl, rfl⟩ := hv'
  obtain ⟨i, rfl, rfl⟩ | ⟨a, b, rfl, rfl⟩ := hv
  · simp only [Value.same]
    by_cases hij : i = j
    · simp [hij]
    · have hπ : π i ≠ π j := fun hπ => hij (h.inj i j hπ)
      simp [hij, hπ]
  · rfl

end Alike

/-! ### The primitives -/

section

/-- Work on a graph and the same work on one with other numbers. -/
abbrev Mirrors (π : Nat → Nat) {α β : Type} (R : α → β → Prop) (x : Work α) (y : Work β) : Prop :=
  Follows (Alike π) (Alike π) R x y

variable {π : Nat → Nat} {v w : Value} {α : Type}

theorem follows_say (a b : String) :
    Mirrors π (fun _ _ => True) (say a) (say b) :=
  .modify fun _ _ h => h.of_graph rfl rfl

theorem follows_origin :
    Mirrors π (fun o o' => o = .dump ∧ o' = .dump) origin origin :=
  .get fun _ _ h => .pure h.origin

theorem follows_steps : Mirrors π Eq steps steps :=
  .get fun s t h => .pure (by rw [h.size])

theorem follows_shown (v w : Value) :
    Mirrors π (fun _ _ => True) (shown v) (shown w) :=
  .get fun _ _ _ => .pure trivial

theorem follows_check (e : Except Fault α) :
    Mirrors π Eq (check e) (check e) := by
  cases e with
  | ok a => exact .pure rfl
  | error f => exact .throw f

theorem follows_items (v : Value) : Mirrors π Eq (items v) (items v) := by
  unfold items
  cases v.items? with
  | some vs => exact .pure rfl
  | none => exact .throw _

theorem follows_hasForm (hv : Near π v w) (form : Form) :
    Mirrors π Eq (hasForm v form) (hasForm w form) :=
  .get fun s t h => .pure (by simp [Graph.hasForm, h.form? hv])

theorem follows_isContainer (hv : Near π v w) :
    Mirrors π Eq (isContainer v) (isContainer w) :=
  .get fun s t h => .pure (by simp [Graph.isContainer, h.form? hv])

theorem follows_field (hv : Near π v w) (name : String) :
    Mirrors π (Resolved π name) (field v name) (field w name) := by
  refine .get fun s t h => ?_
  obtain ⟨hs, -⟩ | ⟨a, b, hs, ht, hab⟩ := h.field? hv name
  · simp only [hs]
    exact .throw _
  · simp only [hs, ht]
    exact .pure hab

theorem follows_setField (hv : Link π v w) (hab : Resolved π name a b) :
    Mirrors π (fun _ _ => True) (setField v name a) (setField w name b) := by
  obtain ⟨i, rfl, rfl⟩ := hv
  exact .modify fun s t h => h.setField i hab

theorem follows_fieldItems (hv : Near π v w) (hname : ∀ a b, Resolved π name a b → Links π a b) :
    Mirrors π (List.Forall₂ (Link π)) (fieldItems v name) (fieldItems w name) := by
  refine .bind (follows_field hv name) fun a b hab => ?_
  obtain ⟨vs, ws, rfl, rfl, hl⟩ := hname a b hab
  exact .pure hl

end

end PxdGen.Decl
