import PxdGen.Proofs.Decl.Graph
/-! # Declarations in the order of their locations

The declarations of a dump are put in the order of their files, and of their lines within a file.
The order is stable: declarations at one location stay as they are. A declaration without a location
cannot be compared with any other, so two declarations can be put in order only if both have one.
-/

namespace PxdGen.Decl

open Work

/-- A declaration of a dump is located by the name of a file and a line. -/
def Located (g : Graph) (v : Value) : Prop :=
  ∃ file line, g.field? v "location" = some (.tuple [.text file, .int line])

/-- The first declaration is in an earlier file, or in the same file on an earlier line. -/
def Graph.Precedes (g : Graph) (v w : Value) : Prop :=
  ∃ file line file' line', g.field? v "location" = some (.tuple [.text file, .int line]) ∧
    g.field? w "location" = some (.tuple [.text file', .int line']) ∧
    (file < file' ∨ file = file' ∧ line < line')

/-- Whether a declaration is at a line of a file. -/
def Graph.isAt (g : Graph) (file : String) (line : Int) (v : Value) : Bool :=
  (g.field? v "location").any (·.same (.tuple [.text file, .int line]))

/-- The declarations `vs` in the order of their locations. -/
structure InOrder (g : Graph) (vs sorted : List Value) : Prop where
  perm : sorted.Perm vs
  ordered : sorted.Pairwise fun v w => ¬ g.Precedes w v
  ties : ∀ file line, sorted.filter (g.isAt file line) = vs.filter (g.isAt file line)

variable {g : Graph} {s : Session} {vs : List Value}

theorem InOrder.filter {sorted : List Value} (h : InOrder g vs sorted) (p : Value → Bool) :
    InOrder g (vs.filter p) (sorted.filter p) := by
  refine ⟨h.perm.filter p, h.ordered.filter p, fun file line => ?_⟩
  have hTies := congrArg (List.filter p) (h.ties file line)
  simpa only [List.filter_filter, Bool.and_comm] using hTies

theorem inOrder_singleton (g : Graph) (v : Value) : InOrder g [v] [v] :=
  ⟨.refl _, List.pairwise_singleton _ v, fun _ _ => rfl⟩

/-! ### Comparing -/

/-- A declaration with its location. -/
structure Sited where
  file : String
  line : Int
  decl : Value

namespace Sited

def location (p : Sited) : Value := .tuple [.text p.file, .int p.line]

/-- Whether the second does not come before the first. -/
def inTurn (p q : Sited) : Bool := decide (p.file < q.file ∨ p.file = q.file ∧ p.line ≤ q.line)

theorem before?_location (p q : Sited) : before? p.location q.location =
    some (decide (p.file < q.file ∨ p.file = q.file ∧ p.line < q.line)) := by
  simp only [location, before?, beforeAll?, Value.same, Value.asInt?]
  by_cases hFile : p.file = q.file
  · by_cases hLine : p.line = q.line <;> simp [hFile, hLine, String.lt_irrefl]
  · simp [hFile]

theorem file_lt_or_eq_or_gt (p q : Sited) :
    p.file < q.file ∨ p.file = q.file ∨ q.file < p.file := by
  by_cases h : p.file < q.file
  · exact .inl h
  · by_cases h' : q.file < p.file
    · exact .inr (.inr h')
    · exact .inr (.inl (String.le_antisymm (String.not_lt.1 h') (String.not_lt.1 h)))

theorem inTurn_eq (p q : Sited) : p.inTurn q = !(before? q.location p.location).getD false := by
  rw [before?_location, Option.getD_some, ← decide_not, inTurn, decide_eq_decide]
  constructor
  · rintro (h | ⟨h, hLine⟩) (h' | ⟨h', hLine'⟩)
    · exact String.lt_irrefl _ (String.lt_trans h h')
    · exact String.lt_irrefl _ (h' ▸ h)
    · exact String.lt_irrefl _ (h ▸ h')
    · omega
  · intro h
    rcases file_lt_or_eq_or_gt p q with hFile | hFile | hFile
    · exact .inl hFile
    · refine .inr ⟨hFile, Int.not_lt.1 fun hLine => h (.inr ⟨hFile.symm, hLine⟩)⟩
    · exact absurd (.inl hFile) h

theorem inTurn_trans (p q r : Sited) (hpq : p.inTurn q = true) (hqr : q.inTurn r = true) :
    p.inTurn r = true := by
  simp only [inTurn, decide_eq_true_eq] at *
  rcases hpq with h | ⟨h, hLine⟩ <;> rcases hqr with h' | ⟨h', hLine'⟩
  · exact .inl (String.lt_trans h h')
  · exact .inl (h' ▸ h)
  · exact .inl (h ▸ h')
  · exact .inr ⟨h.trans h', by omega⟩

theorem inTurn_total (p q : Sited) : (p.inTurn q || q.inTurn p) = true := by
  simp only [inTurn, Bool.or_eq_true, decide_eq_true_eq]
  rcases file_lt_or_eq_or_gt p q with h | h | h
  · exact .inl (.inl h)
  · rcases Int.le_total p.line q.line with hLine | hLine
    · exact .inl (.inr ⟨h, hLine⟩)
    · exact .inr (.inr ⟨h.symm, hLine⟩)
  · exact .inr (.inl h)

end Sited

/-- Located declarations with their locations. -/
theorem exists_sited (h : ∀ v ∈ vs, Located g v) :
    ∃ ps : List Sited, ps.map (·.decl) = vs ∧ ∀ p ∈ ps, g.field? p.decl "location" =
    some p.location := by
  induction vs with
  | nil => exact ⟨[], rfl, by simp⟩
  | cons v vs ih =>
    obtain ⟨ps, rfl, hps⟩ := ih fun w hw => h w (by simp [hw])
    obtain ⟨file, line, hv⟩ := h v (by simp)
    refine ⟨⟨file, line, v⟩ :: ps, rfl, fun p hp => ?_⟩
    rcases List.mem_cons.1 hp with rfl | hp
    · exact hv
    · exact hps p hp

theorem allOrdered_sited (ps : List Sited) : allOrdered (ps.map (·.location)) = true := by
  induction ps with
  | nil => rfl
  | cons p ps ih =>
    simp only [List.map_cons, allOrdered, ih, Bool.and_true, List.all_map, List.all_eq_true]
    intro q _
    simp [Sited.before?_location]

theorem inOrder_mergeSort {ps : List Sited}
    (h : ∀ p ∈ ps, g.field? p.decl "location" = some p.location) :
    InOrder g (ps.map (·.decl)) ((ps.mergeSort Sited.inTurn).map (·.decl)) := by
  have hPerm := List.mergeSort_perm ps Sited.inTurn
  have hSorted := List.pairwise_mergeSort Sited.inTurn_trans Sited.inTurn_total ps
  refine ⟨hPerm.map _, ?_, fun file line => ?_⟩
  · refine List.pairwise_map.2 (hSorted.imp_of_mem ?_)
    rintro p q hp hq hpq ⟨file, line, file', line', hv, hw, hBefore⟩
    rw [h q (hPerm.mem_iff.1 hq)] at hv
    rw [h p (hPerm.mem_iff.1 hp)] at hw
    simp only [Sited.location, Option.some.injEq, Value.tuple.injEq, List.cons.injEq,
      Value.text.injEq, Value.int.injEq, and_true] at hv hw
    rw [Sited.inTurn_eq, Sited.before?_location, hv.1, hv.2, hw.1, hw.2] at hpq
    rw [decide_eq_true hBefore] at hpq
    cases hpq
  · -- those at one location are in turn already, so they stay a part of the sorted list
    rw [List.filter_map, List.filter_map]
    congr 1
    let here := g.isAt file line ∘ Sited.decl
    have hHere : ∀ p ∈ ps.filter here, p.file = file ∧ p.line = line := by
      intro p hp
      obtain ⟨hp, hAt⟩ := List.mem_filter.1 hp
      simpa [here, Graph.isAt, h p hp, Sited.location, Value.same, Value.sameAll] using hAt
    have hTurn : (ps.filter here).Pairwise fun p q => p.inTurn q = true := by
      refine List.pairwise_of_forall_mem_list fun p hp q hq => ?_
      simp [Sited.inTurn, hHere p hp, hHere q hq]
    have hSub := (List.sublist_mergeSort Sited.inTurn_trans Sited.inTurn_total hTurn
      List.filter_sublist).filter here
    simp only [List.filter_filter, Bool.and_self] at hSub
    exact (hSub.eq_of_length (hPerm.filter here).length_eq.symm).symm

theorem gives_sortByLocation (h : ∀ v ∈ vs, Located s.graph v) :
    ∃ sorted, Gives (sortByLocation (.list vs)) s (.list sorted) s ∧ InOrder s.graph vs sorted := by
  obtain ⟨ps, rfl, hps⟩ := exists_sited h
  have hPlaced : Gives ((ps.map Sited.decl).mapM fun v => do pure (← field v "location", v)) s
      (ps.map fun p => (p.location, p.decl)) s := by
    rw [List.mapM_map]
    exact Gives.mapM (fun p : Sited => (p.location, p.decl)) ps fun p hp =>
      (gives_field (hps p hp)).bind (.pure _ s)
  refine ⟨_, (gives_items rfl).bind (hPlaced.bind ?_), inOrder_mergeSort hps⟩
  have hOrdered : allOrdered ((ps.map fun p => (p.location, p.decl)).map (·.1)) = true := by
    rw [List.map_map]
    exact allOrdered_sited ps
  rw [if_pos hOrdered, ← List.map_mergeSort (r := Sited.inTurn) fun p _ q _ => p.inTurn_eq q]
  simp [List.map_map, Function.comp_def]

/-! ### Declarations without a location -/

theorem before?_nothing (v : Value) : before? .nothing v = none ∧ before? v .nothing = none := by
  cases v <;> simp [before?, Value.asInt?]

theorem allOrdered_of_nothing {ls : List Value} (h : Value.nothing ∈ ls) (hTwo : 1 < ls.length) :
    allOrdered ls = false := by
  cases ls with
  | nil => cases h
  | cons l rest =>
    rw [allOrdered, Bool.and_eq_false_iff, List.all_eq_false]
    rcases List.mem_cons.1 h with rfl | h
    · obtain ⟨w, hw⟩ := List.exists_mem_of_length_pos (Nat.lt_of_succ_lt_succ hTwo)
      exact .inl ⟨w, hw, by simp [before?_nothing]⟩
    · exact .inl ⟨_, h, by simp [before?_nothing]⟩

theorem not_gives_sortByLocation {s' : Session} {w v : Value}
    (h : ∀ v ∈ vs, ∃ l, s.graph.field? v "location" = some l) (hv : v ∈ vs)
    (hNone : s.graph.field? v "location" = some .nothing) (hTwo : 1 < vs.length) :
    ¬ Gives (sortByLocation (.list vs)) s w s' := by
  intro hGives
  let place : Value → Value × Value := fun v => ((s.graph.field? v "location").getD .nothing, v)
  have hPlaced : Gives (vs.mapM fun v => do pure (← field v "location", v)) s (vs.map place) s :=
    Gives.mapM place vs fun v hv => by
      obtain ⟨l, hl⟩ := h v hv
      exact (gives_field hl).bind (by simp [place, hl])
  obtain ⟨ws, t, hItems, hRest⟩ := gives_bind.1 hGives
  obtain ⟨hws, ht⟩ := hItems.unique (gives_items rfl)
  rw [hws, ht] at hRest
  obtain ⟨ps, t', hMap, hLast⟩ := gives_bind.1 hRest
  rw [(hMap.unique hPlaced).1] at hLast
  have hOrdered : allOrdered ((vs.map place).map (·.1)) = false := by
    refine allOrdered_of_nothing ?_ (by simpa using hTwo)
    exact List.mem_map.2 ⟨place v, List.mem_map.2 ⟨v, hv, rfl⟩, by simp [place, hNone]⟩
  rw [if_neg (Bool.eq_false_iff.1 hOrdered)] at hLast
  exact gives_throw hLast

end PxdGen.Decl
