import PxdGen.Decl.Session
/-! # Numbers as keys

The declarations of a unit are found by numbers. What a table has under a number changes only when
something is entered under that number.
-/

namespace PxdGen.Decl

def Key.ofInt (n : Int) : Key := .named (.int n)

@[simp] theorem Key.ofInt_beq (a b : Int) : (Key.ofInt a == Key.ofInt b) = (a == b) := rfl

theorem Key.eq_of_beq_ofInt {k : Key} {a b : Int} (ha : (k == Key.ofInt a) = true)
    (hb : (k == Key.ofInt b) = true) : a = b := by
  cases k with
  | serial id => cases ha
  | named v =>
    have ha : v.same (.int a) = true := ha
    have hb : v.same (.int b) = true := hb
    cases v with
    | flag c | int n => simp_all [Value.same]
    | _ => simp [Value.same] at ha

end PxdGen.Decl

namespace PxdGen.Table

open Decl

variable {α : Type}

/-- Entering a value into a list of pairs. -/
def put (k : Key) (v : α) : List (Key × α) → List (Key × α)
  | [] => [(k, v)]
  | (k', w) :: rest => if k' == k then (k', v) :: rest else (k', w) :: put k v rest

theorem put_eq (k : Key) (v : α) (l : List (Key × α)) :
    (match l.findIdx? (·.1 == k) with
      | some i => l.modify i fun (k', _) => (k', v)
      | none => l ++ [(k, v)]) = put k v l := by
  induction l with
  | nil => rfl
  | cons e l ih =>
    rw [List.findIdx?_cons, put]
    by_cases h : (e.1 == k) = true
    · simp [h]
    · rw [if_neg h, if_neg h, ← ih]
      cases l.findIdx? (·.1 == k) <;> simp

theorem toList_insert (t : Table Key α) (k : Key) (v : α) :
    (t.insert k v).entries.toList = put k v t.entries.toList := by
  obtain ⟨⟨l⟩⟩ := t
  rw [← put_eq, insert, List.findIdx?_toArray]
  cases l.findIdx? (·.1 == k) <;> simp

theorem get?_eq (t : Table Key α) (k : Key) :
    t.get? k = (t.entries.toList.find? (·.1 == k)).map (·.2) := by
  rw [get?, Array.find?_toList]

variable (t : Table Key α) (v : α)

theorem get?_insert_self (a : Int) : (t.insert (.ofInt a) v).get? (.ofInt a) = some v := by
  rw [get?_eq, toList_insert]
  induction t.entries.toList with
  | nil => simp [put]
  | cons e l ih =>
    rw [put]
    by_cases h : (e.1 == Key.ofInt a) = true
    · simp [h]
    · rw [if_neg h, List.find?_cons_of_neg (by simpa using h)]
      exact ih

theorem get?_insert_of_ne {a b : Int} (h : a ≠ b) :
    (t.insert (.ofInt a) v).get? (.ofInt b) = t.get? (.ofInt b) := by
  rw [get?_eq, get?_eq, toList_insert]
  induction t.entries.toList with
  | nil => simp [put, h]
  | cons e l ih =>
    rw [put]
    by_cases hb : (e.1 == Key.ofInt b) = true
    · have ha : ¬ (e.1 == Key.ofInt a) = true := fun ha => h (Key.eq_of_beq_ofInt ha hb)
      rw [if_neg ha, List.find?_cons_of_pos (by simpa using hb),
        List.find?_cons_of_pos (by simpa using hb)]
    · rw [List.find?_cons_of_neg (a := e) (by simpa using hb)]
      split
      · rw [List.find?_cons_of_neg (by simpa using hb)]
      · rw [List.find?_cons_of_neg (by simpa using hb)]
        exact ih

/-- What is in a table was there or has been entered. -/
theorem mem_values_insert {k : Key} {w : α} (h : w ∈ (t.insert k v).values) :
    w = v ∨ w ∈ t.values := by
  rw [values, toList_insert] at h
  rw [values]
  generalize t.entries.toList = l at h ⊢
  induction l with
  | nil => simpa [put] using h
  | cons e l ih =>
    rw [put] at h
    split at h
    · simp only [List.map_cons, List.mem_cons] at h ⊢
      exact h.imp_right .inr
    · simp only [List.map_cons, List.mem_cons] at h ⊢
      rcases h with h | h
      · exact .inr (.inl h)
      · exact (ih h).imp_right .inr

theorem mem_values_of_get? {k : Key} {w : α} (h : t.get? k = some w) : w ∈ t.values := by
  rw [get?_eq] at h
  obtain ⟨e, he, rfl⟩ := Option.map_eq_some_iff.1 h
  exact List.mem_map.2 ⟨e, List.mem_of_find?_eq_some he, rfl⟩

end PxdGen.Table
