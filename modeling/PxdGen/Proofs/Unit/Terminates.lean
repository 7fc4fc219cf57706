import PxdGen.Proofs.Unit.Advance
/-! # Reading comes to an end

Records refer to themselves and to one another, and reading them ends all the same. No cursor is
read again for the sake of a type once it has been entered in the table: each time that a type leads
from one cursor to another, there is one less that has not been entered.
-/

namespace PxdGen.Index

open Decl Decl.Work

variable {t u : TypeRef} {s : Session} {height : TypeRef → Nat} {c : Cursor} {level : Nat → Nat}
  {n i : Nat}

/-! ### Ways through a unit -/

section Unit

variable (tree : Tree)

/-- One cursor is a child of another, by their numbers. -/
def Tree.IsChild (i j : Nat) : Prop := j ∈ (tree.cursor (.numbered i)).children

/-- One type leads to another: to a part of it, or to what an unexposed type stands for. -/
inductive Tree.LeadsTo (tree : Tree) : TypeRef → TypeRef → Prop
  | part {t u : TypeRef} (h : u ∈ tree.parts t) : tree.LeadsTo t u
  | canonical {t : TypeRef} {kind : Kind} (hKind : tree.typeKind t = .ok kind)
      (hName : kind.name = "UNEXPOSED") (hNe : tree.canonicalType t ≠ t) :
      tree.LeadsTo t (tree.canonicalType t)

variable {tree}

theorem Tree.type_eq_or (t : TypeRef) : tree.type t = {} ∨ ∃ i < tree.types.size, t = some i := by
  cases t with
  | none => exact .inl rfl
  | some i =>
    by_cases hi : i < tree.types.size
    · exact .inr ⟨i, hi, rfl⟩
    · exact .inl (by simp [Tree.type, Array.getElem?_eq_none (Nat.le_of_not_lt hi)])

theorem Tree.parts_congr (h : tree.type t = tree.type u) : tree.parts t = tree.parts u := by
  simp only [parts, typeKind, h]

/-- A type that is not there leads nowhere, or else to itself. -/
theorem Tree.not_leadsTo_of_absent (hTypes : ∀ t, ¬ Relation.TransGen tree.LeadsTo t t)
    (ht : tree.type t = {}) : ¬ tree.LeadsTo t u := by
  intro h
  cases h with
  | part h =>
    have hNone : tree.type none = {} := rfl
    rw [Tree.parts_congr (ht.trans hNone.symm)] at h
    refine hTypes none (.single (.part ?_))
    revert h
    simp only [parts, hNone]
    cases tree.typeKind none with
    | error e => simp
    | ok kind =>
      dsimp only
      split <;> simp
  | canonical _ _ hNe =>
    rw [Tree.canonicalType, ht] at hNe
    exact hNe rfl

/-- **Types have levels** along what they lead to, of which there are no more than types. -/
theorem Tree.exists_leadLevel (hTypes : ∀ t, ¬ Relation.TransGen tree.LeadsTo t t) :
    ∃ level : TypeRef → Nat, (∀ t, level t ≤ tree.types.size) ∧
      ∀ t u, tree.LeadsTo t u → level u < level t := by
  have hThere : ∀ {t u}, tree.LeadsTo t u → ∃ i < tree.types.size, t = some i := by
    intro t u h
    exact (tree.type_eq_or t).resolve_left fun ht => not_leadsTo_of_absent hTypes ht h
  have hCircle : ∀ i, ¬ Relation.TransGen (fun i j => tree.LeadsTo (some i) (some j)) i i := by
    have hLift : ∀ {i j}, Relation.TransGen (fun i j => tree.LeadsTo (some i) (some j)) i j →
        Relation.TransGen tree.LeadsTo (some i) (some j) := by
      intro i j h
      induction h with
      | single h => exact .single h
      | tail _ h ih => exact .tail ih h
    exact fun i h => hTypes _ (hLift h)
  obtain ⟨level, hLe, hPos, hLt⟩ := exists_level (n := tree.types.size) (fun i j h => by
    obtain ⟨_, hi, he⟩ := hThere h
    cases he
    exact hi) hCircle
  refine ⟨fun t => (t.map level).getD 0, fun t => ?_, fun t u h => ?_⟩
  · cases t with
    | none => exact Nat.zero_le _
    | some i => exact hLe i
  · obtain ⟨i, hi, rfl⟩ := hThere h
    cases u with
    | none => exact hPos i hi
    | some j => exact hLt i j h

end Unit

variable {tree : Tree}

/-! ### Types -/

/-- A type is read within two steps for each level, and two more. -/
theorem advances_readType {keys : List Int} {k : Nat}
    {element element' : Cursor → Nat → Work Value}
    (hElement : ∀ c level s, tree.IsTagged c → s.knows (tree.cursor c).hash = false →
      Advances keys k GroundedIn (element c level) (element' c level) s)
    (hTagged : tree.HasTaggedTypes)
    (hHeight : ∀ t u, tree.LeadsTo t u → height u < height t)
    {fuel : Nat} {resolve : Bool}
    (hFuel : 2 * height t + (if resolve then 2 else 1) ≤ fuel) (level : Nat) :
    Advances keys k IsTyped (readType tree element fuel t level resolve)
      (readType tree element' fuel t level resolve) s := by
  induction fuel generalizing t level resolve s with
  | zero => cases resolve <;> simp at hFuel
  | succ fuel ih =>
    refine advances_typeStep hElement hTagged (fun u hu level s => ih ?_ level) ?_ level
    · have := hHeight t u (.part hu)
      cases resolve <;> simp at hFuel ⊢ <;> omega
    · rintro kind hKind hName rfl level s
      refine ih ?_ level
      simp only [if_true] at hFuel
      by_cases hNe : tree.canonicalType t = t
      · rw [hNe]
        simp only [Bool.false_eq_true, if_false]
        omega
      · have := hHeight t _ (.canonical hKind hName hNe)
        simp only [Bool.false_eq_true, if_false]
        omega

/-! ### Cursors -/

/-- The keys under which cursors can be found. -/
def Tree.hashes (tree : Tree) : List Int := tree.cursors.toList.map (·.hash)

theorem Tree.hash_mem_hashes (h : (tree.cursor c).children ≠ []) :
    (tree.cursor c).hash ∈ tree.hashes := by
  cases c with
  | numbered i =>
    simp only [Tree.cursor] at h ⊢
    cases hi : tree.cursors[i]? with
    | none => simp [hi] at h
    | some d => exact List.mem_map.2 ⟨d, Array.mem_toList_iff.2 (Array.mem_of_getElem? hi), rfl⟩
  | _ => exact absurd rfl h

/-- The level of a cursor by that of its number. -/
def Cursor.rank (level : Nat → Nat) : Cursor → Nat
  | .numbered i => level i
  | _ => 0

theorem Cursor.rank_le (h : ∀ i, level i ≤ n) (c : Cursor) : c.rank level ≤ n := by
  cases c with
  | numbered i => exact h i
  | _ => exact Nat.zero_le n

theorem Tree.rank_lt (hLevel : ∀ i j, tree.IsChild i j → level j < level i)
    (h : i ∈ (tree.cursor c).children) : level i < c.rank level := by
  cases c with
  | numbered j => exact hLevel j i h
  | _ => cases h

theorem Tree.lt_size_of_isChild {j : Nat} (h : tree.IsChild i j) : i < tree.cursors.size := by
  refine Nat.lt_of_not_le fun hi => ?_
  simp [Tree.IsChild, Tree.cursor, Array.getElem?_eq_none hi] at h

/-- The fuel that is needed: for each cursor that has not been entered, a way down the whole tree,
and the way down from the cursor itself. What a type leads to is entered at once, so that the way
down from there counts for the one that is entered. -/
theorem advances_readElement (hTypes : tree.HasTaggedTypes)
    (hHeight : ∀ t u, tree.LeadsTo t u → height u < height t)
    (hTop : ∀ t, height t ≤ tree.types.size)
    {depth : Nat → Nat} (hDepth : ∀ i j, tree.IsChild i j → depth j < depth i)
    (hDeep : ∀ i, depth i ≤ n) (extra fuel : Nat) :
    (∀ c k, k * (n + 1) + c.rank depth + 2 ≤ fuel → ∀ level s,
      Advances tree.hashes k GroundedIn (readElement tree fuel c level)
        (readElement tree (fuel + extra) c level) s) ∧
    ∀ c k, tree.IsTagged c → k * (n + 1) + 1 ≤ fuel → ∀ level s, s.knows (tree.cursor c).hash =
      false → Advances tree.hashes k GroundedIn (readElement tree fuel c level)
        (readElement tree (fuel + extra) c level) s := by
  induction fuel with
  | zero => exact ⟨fun c k h => by omega, fun c k _ h => by omega⟩
  | succ fuel ih =>
    obtain ⟨ihCursor, ihTagged⟩ := ih
    rw [Nat.add_right_comm]
    refine ⟨fun c k hFuel level s => ?_, fun c k hTagged hFuel level s hUnknown => ?_⟩
    · refine advances_elementStep (fun t level s => ?_) (fun i hi level s => ?_) level
      · refine advances_readType (fun c level s hTagged hUnknown => ?_) hTypes hHeight ?_ level
        · exact ihTagged c k hTagged (by omega) level s hUnknown
        · have := hTop t
          simp only [if_true]
          omega
      · have := Tree.rank_lt hDepth hi
        exact ihCursor _ k (by simp only [Cursor.rank]; omega) level s
    · refine advances_elementStep_tagged hTagged hUnknown Tree.hash_mem_hashes ?_ level
      rintro j rfl i hi level s
      have hLt := Tree.rank_lt hDepth hi
      have hLe := c.rank_le hDeep
      rw [Nat.succ_mul] at hFuel
      exact ihCursor _ j (by simp only [Cursor.rank]; omega) level s

/-- **Reading ends at every cursor.** If no cursor is inside itself, no type leads back to itself,
and types other than typedefs are declared by what is in no file or declares a type of its own, then
a reading that may be nested as deep as `nesting tree` is never stopped for its depth, and a reading
that may be nested deeper comes to the same end. This needs nothing of the ways on which the
declarations of types refer to one another. -/
theorem readElement_ends {tree : Tree} (hChildren : ∀ i, ¬ Relation.TransGen tree.IsChild i i)
    (hTypes : ∀ t, ¬ Relation.TransGen tree.LeadsTo t t)
    (hTagged : tree.HasTaggedTypes) {s : Session} (hs : s.IsGrounded) (c : Cursor) (level : Nat) :
    (outcome (readElement tree (nesting tree) c level) s).1 ≠ .error .endless ∧
      (outcome (readElement tree (nesting tree) c level) s).2.IsGrounded ∧
        ∀ extra, outcome (readElement tree (nesting tree + extra) c level) s =
          outcome (readElement tree (nesting tree) c level) s := by
  obtain ⟨height, hTop, hHeight⟩ := Tree.exists_leadLevel hTypes
  obtain ⟨depth, hDeep, -, hDepth⟩ :=
    exists_level (n := tree.cursors.size) (fun _ _ => Tree.lt_size_of_isChild) hChildren
  have hLacks : s.Lacks tree.hashes tree.cursors.size := by
    refine ⟨hs, Nat.le_trans List.countP_le_length ?_⟩
    simp [Tree.hashes]
  have hFuel : tree.cursors.size * (tree.cursors.size + 1) + c.rank depth + 2 ≤ nesting tree := by
    have := c.rank_le hDeep
    simp only [nesting, Nat.mul_add, Nat.add_mul]
    omega
  have hEnds := fun extra => (advances_readElement hTagged hHeight hTop hDepth hDeep extra
    (nesting tree)).1 c _ hFuel level s hLacks
  exact ⟨(hEnds 0).ne_endless, (hEnds 0).onward.isGrounded hs, fun extra => (hEnds extra).eq⟩

/-- Before anything has been read there is nothing whose types would not end. -/
theorem isGrounded_of_fresh (hContext : s.context = []) (hTable : s.table = {}) : s.IsGrounded := by
  intro v hv
  rw [hContext, hTable] at hv
  rcases hv with hv | hv <;> cases hv

/-- Two structs that have a pointer to each other, the second with a pointer to itself. -/
def mutualRecords : Tree where
  cursors := #[{ kind := 300, hash := 1, children := [1, 3] },
    { kind := 2, spelling := "A", hash := 2, location := { file := some "t.h" }, children := [2] },
    { kind := 6, spelling := "b", hash := 3, location := { file := some "t.h" }, type := some 0 },
    { kind := 2, spelling := "B", hash := 4, location := { file := some "t.h" }, children :=
      [4, 5] },
    { kind := 6, spelling := "a", hash := 5, location := { file := some "t.h" }, type := some 2 },
    { kind := 6, spelling := "next", hash := 6, location := { file := some "t.h" }, type :=
      some 0 }]
  types := #[{ kind := 101, pointee := some 1 }, { kind := 105, declaration := some 3 },
    { kind := 101, pointee := some 3 }, { kind := 105, declaration := some 1 }]

theorem not_transGen_isChild_mutualRecords (i : Nat) :
    ¬ Relation.TransGen mutualRecords.IsChild i i := by
  have hUp : ∀ i < 6, ∀ j ∈ (mutualRecords.cursor (.numbered i)).children, i < j := by decide
  refine not_transGen_of_lt (6 - ·) (fun i j h => ?_) i
  have hi : i < 6 := Tree.lt_size_of_isChild h
  have := hUp i hi j h
  omega

theorem not_transGen_leadsTo_mutualRecords (t : TypeRef) :
    ¬ Relation.TransGen mutualRecords.LeadsTo t t := by
  have hNone : mutualRecords.parts none = [] := by decide +kernel
  have hParts : ∀ i < 4, ∀ u ∈ mutualRecords.parts (some i),
      i = 0 ∧ u = some 1 ∨ i = 2 ∧ u = some 3 := by decide +kernel
  have hCanonical : ∀ i < 4, (mutualRecords.type (some i)).canonical = none := by decide
  refine not_transGen_of_lt (fun t => if t = some 0 ∨ t = some 2 then 1 else 0) ?_ t
  intro t u h
  rcases mutualRecords.type_eq_or t with ht | ⟨i, hi, rfl⟩
  · cases h with
    | part h =>
      rw [Tree.parts_congr (u := none) ht, hNone] at h
      cases h
    | canonical _ _ hNe => exact absurd (by rw [Tree.canonicalType, ht]; rfl) hNe
  · cases h with
    | part h => rcases hParts i hi u h with ⟨rfl, rfl⟩ | ⟨rfl, rfl⟩ <;> decide
    | canonical _ _ hNe => exact absurd (by rw [Tree.canonicalType, hCanonical i hi]; rfl) hNe

theorem hasTaggedTypes_mutualRecords : mutualRecords.HasTaggedTypes := by
  intro t _ _ _
  rcases mutualRecords.type_eq_or t with ht | ⟨i, hi, rfl⟩
  · rw [Tree.declaration, ht]
    exact .inl rfl
  · have hFour : i < 4 := hi
    obtain rfl | rfl | rfl | rfl : i = 0 ∨ i = 1 ∨ i = 2 ∨ i = 3 := by omega
    · exact .inl rfl
    · exact .inr ⟨_, rfl, by decide⟩
    · exact .inl rfl
    · exact .inr ⟨_, rfl, by decide⟩

set_option maxRecDepth 100000 in
theorem readElement_ends_mutualRecords :
    (outcome (readElement mutualRecords (nesting mutualRecords) (.numbered 0) 0)
        { graph := { origin := .unit } }).1.toOption.isSome = true ∧
      (outcome (readElement mutualRecords (nesting mutualRecords) (.numbered 0) 0)
        { graph := { origin := .unit } }).2.IsGrounded ∧
      ∀ extra, outcome (readElement mutualRecords (nesting mutualRecords + extra) (.numbered 0) 0)
        { graph := { origin := .unit } } =
          outcome (readElement mutualRecords (nesting mutualRecords) (.numbered 0) 0)
            { graph := { origin := .unit } } :=
  ⟨by decide +kernel, (readElement_ends not_transGen_isChild_mutualRecords
    not_transGen_leadsTo_mutualRecords hasTaggedTypes_mutualRecords
    (isGrounded_of_fresh rfl rfl) (.numbered 0) 0).2⟩

end PxdGen.Index
