import PxdGen.Proofs.Flatten.Prepare
/-! # Dumps without nested containers

Where no container stands in another, preparing a dump puts its declarations in order and filters
them. The order is made first, and beside another declaration one without a location cannot be put
in order.
-/

namespace PxdGen.Decl

open Work Decl.Graph

/-- A dump whose global namespace holds the declarations `tops`, none of which holds a container.
Each has a location or has none. -/
structure Unnested (g : Graph) (vs tops : List Value) : Prop where
  origin : g.origin = .dump
  global : ∃ ns, vs.find? g.isGlobal = some ns ∧ g.field? ns "members" = some (.list tops)
  location : ∀ v ∈ tops, Located g v ∨ g.field? v "location" = some .nothing
  parts : ∀ v ∈ tops, ∀ name, (g.form? v).bind Form.parts? = some name →
    ∃ ws, g.field? v name = some (.list ws) ∧
      (g.isContainer v = true → ∀ w ∈ ws, g.isContainer w = false)
  outer : ∀ v ∈ tops, g.isContainer v = true →
    (∃ w, g.field? v "name" = some w) ∧ ∃ w, g.field? v "context" = some w

namespace Unnested

variable {g : Graph} {vs tops : List Value}

theorem location_isSome (hd : Unnested g vs tops) {v : Value} (hv : v ∈ tops) :
    ∃ l, g.field? v "location" = some l := by
  rcases hd.location v hv with ⟨file, line, h⟩ | h <;> exact ⟨_, h⟩

theorem gives_flatten {s : Session} (hd : Unnested s.graph vs tops) {sorted : List Value}
    (hmem : ∀ v ∈ sorted, v ∈ tops) : Gives (flatten (.list sorted)) s (.list sorted) s := by
  have hOne : ∀ v ∈ sorted, Gives (flattenOne (s.graph.entries.size + 1 + 1) v) s [v] s := by
    intro v hv
    refine (gives_isContainer v).bind ?_
    cases hc : s.graph.isContainer v with
    | true =>
      obtain ⟨id, -, rfl, -⟩ := form?_eq_of_isContainer s.graph hc
      obtain ⟨ws, hws, hFlat⟩ := hd.parts _ (hmem _ hv) "members" (parts?_of_isContainer hc)
      obtain ⟨⟨name, hName⟩, context, hContext⟩ := hd.outer _ (hmem _ hv) hc
      refine gives_flattenContainer_of_flat hws (hFlat hc) hContext ⟨name, hName, fun ho => ?_⟩
      cases hd.origin.symm.trans ho
    | false =>
      refine gives_origin.bind ((gives_hasForm v .typedef).bind ?_)
      simp only [hd.origin]
      exact .pure _ s
  have hAll := Gives.mapM (fun v => [v]) sorted hOne
  refine gives_steps.bind ((gives_items rfl).bind (hAll.bind ?_))
  rw [← List.flatMap_def, List.flatMap_singleton']
  exact .pure _ s

theorem gives_sortByLocation {s : Session} (hd : Unnested s.graph vs tops)
    (h : ¬ (1 < tops.length ∧ ∃ v ∈ tops, s.graph.field? v "location" = some .nothing)) :
    ∃ sorted, Gives (sortByLocation (.list tops)) s (.list sorted) s ∧
        InOrder s.graph tops sorted := by
  by_cases hTwo : 1 < tops.length
  · refine Decl.gives_sortByLocation fun v hv => (hd.location v hv).resolve_right fun hNone => ?_
    exact h ⟨hTwo, v, hv, hNone⟩
  · obtain rfl | ⟨v, rfl⟩ : tops = [] ∨ ∃ v, tops = [v] := by
      rcases tops with _ | ⟨v, _ | _⟩ <;> simp at hTwo ⊢
    · exact Decl.gives_sortByLocation (by simp)
    · obtain ⟨l, hl⟩ := hd.location_isSome (List.mem_singleton.2 rfl)
      have hPlace := Gives.mapM (f := fun v => do pure (← field v "location", v)) (fun v => (l, v))
        [v] (s := s) fun w hw => by
          obtain rfl := List.mem_singleton.1 hw
          exact (gives_field hl).bind (.pure _ s)
      refine ⟨[v], (gives_items rfl).bind (hPlace.bind ?_), inOrder_singleton s.graph v⟩
      simp [allOrdered]

theorem gives_prepare {s : Session} (hd : Unnested s.graph vs tops)
    (h : ¬ (1 < tops.length ∧ ∃ v ∈ tops, s.graph.field? v "location" = some .nothing)) :
    ∃ out g', Gives (prepare (.list vs)) s (.list out) { s with graph := g' } ∧
      InOrder s.graph (tops.filter s.graph.keeps) out ∧ OnlyParts s.graph s.graph g' out ∧
      ∀ v ∈ out, ∀ name ws, s.graph.field? v name = some (.list ws) →
        (s.graph.form? v).bind Form.parts? = some name →
          g'.field? v name = some (.list (s.graph.wanted ws)) := by
  obtain ⟨ns, hns, hMembers⟩ := hd.global
  obtain ⟨sorted, hSort, hOrder⟩ := hd.gives_sortByLocation h
  have hmem : ∀ v ∈ sorted, v ∈ tops := fun v => hOrder.perm.mem_iff.1
  obtain ⟨g', hFilter, -, hOnly, hParts⟩ := gives_filterIgnored (s := s)
    (fun v (hv : v ∈ sorted) => hd.location_isSome (hmem v hv)) fun v hv name hname =>
      (hd.parts v (hmem v hv) name hname).imp fun _ h => h.1
  refine ⟨_, g', (gives_findToplevel hd.origin hns hMembers).bind (gives_origin.bind ?_),
    hOrder.filter _, hOnly, hParts⟩
  simp only [hd.origin]
  exact hSort.bind ((hd.gives_flatten hmem).bind hFilter)

end Unnested

/-- **A declaration without a location is dropped only where it stands alone.** Preparing stops
exactly if there are several declarations and one of them has no location. Otherwise those that are
located and not ignored come out in the order of their files and lines, those at one location as
they stood, and nothing else changes but that ignored parts of them are dropped. -/
theorem prepare_unnested {s : Session} {vs tops : List Value} (hd : Unnested s.graph vs tops) :
    (Fails (prepare (.list vs)) s ↔
      1 < tops.length ∧ ∃ v ∈ tops, s.graph.field? v "location" = some .nothing) ∧
    ∀ v s', Gives (prepare (.list vs)) s v s' →
      ∃ out, v = .list out ∧ InOrder s.graph (tops.filter s.graph.keeps) out ∧
        OnlyParts s.graph s.graph s'.graph out ∧
        ∀ v ∈ out, ∀ name ws, s.graph.field? v name = some (.list ws) →
          (s.graph.form? v).bind Form.parts? = some name →
            s'.graph.field? v name = some (.list (s.graph.wanted ws)) := by
  have hStops : (1 < tops.length ∧ ∃ v ∈ tops, s.graph.field? v "location" = some .nothing) →
      ∀ v s', ¬ Gives (prepare (.list vs)) s v s' := by
    rintro ⟨hTwo, v, hv, hNone⟩ w s' hGives
    obtain ⟨ns, hns, hMembers⟩ := hd.global
    obtain ⟨top, t, hTop, hRest⟩ := gives_bind.1 hGives
    obtain ⟨rfl, rfl⟩ := hTop.unique (gives_findToplevel hd.origin hns hMembers)
    obtain ⟨o, t, hOrigin, hLast⟩ := gives_bind.1 hRest
    obtain ⟨rfl, rfl⟩ := hOrigin.unique gives_origin
    simp only [hd.origin] at hLast
    obtain ⟨sorted, t, hSort, -⟩ := gives_bind.1 hLast
    exact not_gives_sortByLocation (fun v hv => hd.location_isSome hv) hv hNone hTwo hSort
  refine ⟨⟨fun hFails => ?_, fun h => fails_iff.2 (hStops h)⟩, fun v s' hGives => ?_⟩
  · by_cases h : 1 < tops.length ∧ ∃ v ∈ tops, s.graph.field? v "location" = some .nothing
    · exact h
    · obtain ⟨out, g', hGives, -⟩ := hd.gives_prepare h
      exact absurd hGives (fails_iff.1 hFails _ _)
  · obtain ⟨out, g', hGives', hOut⟩ := hd.gives_prepare fun h => hStops h v s' hGives
    obtain ⟨rfl, rfl⟩ := hGives.unique hGives'
    exact ⟨out, rfl, hOut⟩

/-- A variable behind an enumeration with an ignored value, in the global namespace. -/
def ignoredValue : Graph where
  entries := #[
    ⟨.nameSpace, [("name", .text "::"), ("members", .list [.link 1, .link 2])]⟩,
    ⟨.globalVariable, [("name", .text "x"), ("location", .tuple [.text "t.h", .int 5])]⟩,
    ⟨.enumeration, [("name", .text "e"), ("values", .list [.link 3]),
      ("location", .tuple [.text "t.h", .int 2])]⟩,
    ⟨.ignored, []⟩]

theorem prepare_ignoredValue : Unnested ignoredValue [.link 0] [.link 1, .link 2] ∧
    ¬ Fails (prepare (.list [.link 0])) { graph := ignoredValue } ∧
    ∃ out s', Gives (prepare (.list [.link 0])) { graph := ignoredValue } (.list out) s' ∧
      InOrder ignoredValue [.link 1, .link 2] out ∧
      s'.graph.field? (.link 2) "values" = some (.list []) := by
  have hd : Unnested ignoredValue [.link 0] [.link 1, .link 2] := by
    refine ⟨rfl, ⟨.link 0, rfl, rfl⟩, ?_, ?_, ?_⟩
    · simp only [List.forall_mem_cons]
      exact ⟨.inl ⟨_, _, rfl⟩, .inl ⟨_, _, rfl⟩, by simp⟩
    · simp only [List.forall_mem_cons]
      refine ⟨fun name h => ?_, fun name h => ?_, by simp⟩
      · cases h
      · obtain rfl : "values" = name := Option.some.inj h
        exact ⟨_, rfl, fun hc => by cases hc⟩
    · have hNone : ∀ v ∈ [Value.link 1, .link 2], ignoredValue.isContainer v = false := by
        simp only [List.forall_mem_cons]
        exact ⟨rfl, rfl, by simp⟩
      exact fun v hv hc => absurd hc (by simp [hNone v hv])
  obtain ⟨hFails, hGives⟩ := prepare_unnested (s := { graph := ignoredValue }) hd
  have hNot : ¬ Fails (prepare (.list [.link 0])) { graph := ignoredValue } := by
    rw [hFails]
    rintro ⟨-, v, hv, hNone⟩
    simp only [List.mem_cons, List.not_mem_nil, or_false] at hv
    rcases hv with rfl | rfl <;> cases hNone
  obtain ⟨v, s', hv⟩ :
      ∃ v s', Gives (prepare (.list [.link 0])) { graph := ignoredValue } v s' := by
    simpa [fails_iff] using hNot
  obtain ⟨out, rfl, hOrder, -, hParts⟩ := hGives v s' hv
  have hKept : [.link 1, .link 2].filter ignoredValue.keeps = [.link 1, .link 2] := rfl
  rw [hKept] at hOrder
  exact ⟨hd, hNot, out, s', hv, hOrder,
    hParts _ (hOrder.perm.mem_iff.2 (by simp)) "values" [.link 3] rfl rfl⟩

end PxdGen.Decl
