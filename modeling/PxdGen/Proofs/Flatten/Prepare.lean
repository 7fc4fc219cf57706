import PxdGen.Proofs.Flatten.Flattening
import PxdGen.Proofs.Flatten.Order
/-! # Preparing a dump

The toplevel declarations of a dump are put in order, flattened and then filtered. Filtering drops
what has no location, and a typedef that flattening has made has none.
-/

namespace PxdGen.Decl

open Work Decl.Graph

variable {g : Graph} {tops : List Value}

variable {tops' vs : List Value} {id p t c : Nat} {v : Value} {name : String} {s : Session}

/-! ### Forests in another order -/

theorem Graph.Reached.of_mem (hmem : ∀ v ∈ tops, v ∈ tops')
    (h : Reached g tops id) : Reached g tops' id := by
  induction h with
  | top h => exact .top (hmem _ h)
  | typedef _ ho hform htyp ih => exact .typedef ih ho hform htyp
  | member _ hn ih => exact .member ih hn

theorem Forest.of_mem_iff (hf : Forest g tops) (hmem : ∀ v, v ∈ tops' ↔ v ∈ tops) :
    Forest g tops' := by
  have hr : ∀ {id}, Reached g tops' id → Reached g tops id := fun h => h.of_mem fun v => (hmem v).1
  refine ⟨?_, fun id h => hf.valid id (hr h), ?_, fun p h => hf.once p (hr h), ?_, ?_,
    fun p h => hf.members p (hr h), fun p h => hf.name p (hr h), fun p h => hf.context p (hr h), ?_,
    fun p f h => hf.typ p f (hr h), fun ho t h => hf.typedefs ho t (hr h)⟩
  · obtain ⟨rank, hNested, hTypedef⟩ := hf.ranked
    exact ⟨rank, fun p c h => hNested p c (hr h), fun t id h => hTypedef t id (hr h)⟩
  · exact fun p q c hp hq => hf.unique p q c (hr hp) (hr hq)
  · intro p c hp hn hc
    exact hf.not_top p c (hr hp) hn ((hmem _).1 hc)
  · exact fun p c t hp hn ho ht => hf.not_named p c t (hr hp) hn ho (hr ht)
  · intro ho p hp hc hOuter
    exact hf.named ho p (hr hp) hc fun q hq => hOuter q (hq.of_mem fun v => (hmem v).2)

/-! ### Filtering -/

/-- Whether a declaration is kept: it is not ignored and has a location. -/
def Graph.keeps (g : Graph) (v : Value) : Bool :=
  !g.hasForm v .ignored && match g.field? v "location" with
    | none | some .nothing => false
    | some _ => true

/-- Those that are not ignored. -/
def Graph.wanted (g : Graph) (vs : List Value) : List Value :=
  vs.filter fun v => !g.hasForm v .ignored

theorem Graph.wanted_wanted (g : Graph) (vs : List Value) :
    g.wanted (g.wanted vs) = g.wanted vs := by
  simp [wanted, List.filter_filter]

theorem mem_of_parts? (h : (g.form? v).bind Form.parts? = some name) :
    name ∈ ["members", "values", "arguments"] := by
  obtain ⟨form, -, hform⟩ := Option.bind_eq_some_iff.1 h
  cases form <;> cases hform <;> simp

theorem parts?_of_isContainer (h : g.isContainer v = true) :
    (g.form? v).bind Form.parts? = some "members" := by
  obtain ⟨_, form, -, hform, hIs⟩ := form?_eq_of_isContainer g h
  rw [hform]
  cases form <;> simp_all [Form.parts?, Form.isContainer]

/-- The graph `g'` is `g` with the ignored parts of some declarations dropped. -/
structure Trims (g g' : Graph) : Prop where
  form : ∀ v, g'.form? v = g.form? v
  other : ∀ v name, name ∉ ["members", "values", "arguments"] → g'.field? v name = g.field? v name
  parts : ∀ v name ws, g.field? v name = some (.list ws) →
    g'.field? v name = some (.list ws) ∨ g'.field? v name = some (.list (g.wanted ws))

variable {g' h : Graph} {roots : List Nat} {ws out : List Value}

namespace Trims

variable {g' : Graph}

theorem refl (g : Graph) : Trims g g := ⟨fun _ => rfl, fun _ _ _ => rfl, fun _ _ _ => .inl⟩

theorem hasForm (ht : Trims g g') (v : Value) (form : Form) :
    g'.hasForm v form = g.hasForm v form := by
  simp only [Graph.hasForm, ht.form]

theorem wanted (ht : Trims g g') (vs : List Value) : g'.wanted vs = g.wanted vs := by
  simp only [Graph.wanted, ht.hasForm]

theorem setField (ht : Trims g g') {id : Nat} {name : String}
    (hname : name ∈ ["members", "values", "arguments"])
    (h : g.field? (.link id) name = some (.list ws)) :
    Trims g (g'.setField id name (.list (g.wanted ws))) := by
  have hid : id < g'.entries.size := by
    rcases ht.parts _ _ _ h with h' | h' <;> exact lt_size_of_field? g' h'
  refine ⟨fun v => (form?_setField ..).trans (ht.form v), fun v name' hname' => ?_, ?_⟩
  · rw [← ht.other v name' hname']
    cases v with
    | link id' =>
      rw [field?_setField g' hid, if_neg]
      rintro ⟨-, rfl⟩
      exact hname' hname
    | _ => rfl
  · intro v name' ws' h'
    cases v with
    | link id' =>
      rw [field?_setField g' hid]
      by_cases e : id' = id ∧ name' = name
      · obtain ⟨rfl, rfl⟩ := e
        obtain rfl : ws' = ws := by simpa using h'.symm.trans h
        exact .inr (if_pos ⟨rfl, rfl⟩)
      · rw [if_neg e]
        exact ht.parts _ _ _ h'
    | _ => cases h'

end Trims

theorem gives_dropIgnored (ht : Trims g s.graph) (h : g.field? (.link id) name = some (.list ws)) :
    Gives (dropIgnored (.link id) name) s ()
    { s with graph := s.graph.setField id name (.list (g.wanted ws)) } := by
  have hField : ∃ us, s.graph.field? (.link id) name = some (.list us) ∧
      g.wanted us = g.wanted ws := by
    rcases ht.parts _ _ _ h with h' | h'
    · exact ⟨ws, h', rfl⟩
    · exact ⟨_, h', g.wanted_wanted ws⟩
  obtain ⟨us, hus, hWanted⟩ := hField
  refine Gives.get ((gives_fieldItems hus).bind ?_)
  rw [← hWanted, ← ht.wanted]
  exact gives_setField id name _

/-- Nothing but the parts of the declarations `vs` differs between the graphs. -/
def OnlyParts (g h h' : Graph) (vs : List Value) : Prop :=
  ∀ u name, ¬ (u ∈ vs ∧ (g.form? u).bind Form.parts? = some name) →
    h'.field? u name = h.field? u name

theorem gives_dropParts (ht : Trims g s.graph)
    (h : ∀ name, (g.form? v).bind Form.parts? = some name →
    ∃ ws, g.field? v name = some (.list ws)) :
    ∃ g', Gives (dropParts v) s () { s with graph := g' } ∧ Trims g g' ∧
      OnlyParts g s.graph g' [v] ∧ ∀ name ws, g.field? v name = some (.list ws) →
        (g.form? v).bind Form.parts? = some name →
        g'.field? v name = some (.list (g.wanted ws)) := by
  have hGet : Gives get s s s := gives_get.2 ⟨rfl, rfl⟩
  cases hParts : (g.form? v).bind Form.parts? with
  | none =>
    refine ⟨s.graph, hGet.bind ?_, ht, fun _ _ _ => rfl, by simp⟩
    rw [ht.form, hParts]
    exact .pure () s
  | some name =>
    obtain ⟨ws, hws⟩ := h name hParts
    cases v with
    | link id =>
      have hid : id < s.graph.entries.size := by
        rcases ht.parts _ _ _ hws with h' | h' <;> exact lt_size_of_field? s.graph h'
      refine ⟨_, hGet.bind ?_, ht.setField (mem_of_parts? hParts) hws, fun u name' hu => ?_, ?_⟩
      · rw [ht.form, hParts]
        exact gives_dropIgnored ht hws
      · cases u with
        | link id' =>
          rw [field?_setField _ hid, if_neg]
          rintro ⟨rfl, rfl⟩
          exact hu ⟨by simp, hParts⟩
        | _ => rfl
      · intro name' ws' hws' hname'
        obtain rfl := Option.some.inj hname'
        obtain rfl : ws' = ws := by simpa using hws'.symm.trans hws
        rw [field?_setField _ hid, if_pos ⟨rfl, rfl⟩]
    | _ => cases hws

theorem gives_forM_dropParts (ht : Trims g s.graph)
    (h : ∀ v ∈ vs, ∀ name, (g.form? v).bind Form.parts? = some name →
      ∃ ws, g.field? v name = some (.list ws)) : ∃ g', Gives (vs.forM dropParts) s ⟨⟩
      { s with graph := g' } ∧ Trims g g' ∧
      OnlyParts g s.graph g' vs ∧
      ∀ v ∈ vs, ∀ name ws, g.field? v name = some (.list ws) →
        (g.form? v).bind Form.parts? = some name →
        g'.field? v name = some (.list (g.wanted ws)) := by
  induction vs generalizing s with
  | nil => exact ⟨s.graph, gives_forM_nil.2 rfl, ht, fun _ _ _ => rfl, by simp⟩
  | cons v vs ih =>
    obtain ⟨g₁, hGives₁, ht₁, hOnly₁, hParts₁⟩ := gives_dropParts ht (h v (by simp))
    obtain ⟨g₂, hGives₂, ht₂, hOnly₂, hParts₂⟩ := ih (s := { s with graph := g₁ }) ht₁ fun w hw =>
      h w (by simp [hw])
    refine ⟨g₂, gives_forM_cons.2 ⟨_, hGives₁, hGives₂⟩, ht₂, fun u name hu => ?_,
      fun u hu name ws hws hname => ?_⟩
    · exact (hOnly₂ u name fun h => hu ⟨by simp [h.1], h.2⟩).trans
        (hOnly₁ u name fun h => hu ⟨by simp [List.mem_singleton.1 h.1], h.2⟩)
    · by_cases hLater : u ∈ vs
      · exact hParts₂ u hLater name ws hws hname
      · obtain rfl := (List.mem_cons.1 hu).resolve_right hLater
        exact (hOnly₂ u name fun h => hLater h.1).trans (hParts₁ name ws hws hname)

theorem gives_isKept {l : Value} (h : s.graph.field? v "location" = some l) :
    Gives (isKept v) s (s.graph.keeps v) s := by
  refine (gives_hasForm v .ignored).bind ?_
  simp only [Graph.keeps, h]
  cases s.graph.hasForm v .ignored with
  | true => exact .pure false s
  | false =>
    refine (gives_field h).bind ?_
    cases l <;> exact .pure _ s

/-- **Filtering keeps** what is not ignored and has a location, and drops what is ignored within. -/
theorem gives_filterIgnored (hLocation : ∀ v ∈ vs, ∃ l, s.graph.field? v "location" = some l)
    (hParts : ∀ v ∈ vs, ∀ name, (s.graph.form? v).bind Form.parts? = some name →
      ∃ ws, s.graph.field? v name = some (.list ws)) :
    ∃ g', Gives (filterIgnored (.list vs)) s (.list (vs.filter s.graph.keeps))
      { s with graph := g' } ∧ Trims s.graph g' ∧
      OnlyParts s.graph s.graph g' (vs.filter s.graph.keeps) ∧
      ∀ v ∈ vs.filter s.graph.keeps, ∀ name ws, s.graph.field? v name = some (.list ws) →
        (s.graph.form? v).bind Form.parts? = some name →
          g'.field? v name = some (.list (s.graph.wanted ws)) := by
  have hKept : Gives (vs.filterM isKept) s (vs.filter s.graph.keeps) s :=
    Gives.filterM s.graph.keeps vs fun v hv => gives_isKept (hLocation v hv).choose_spec
  have hKeptParts : ∀ v ∈ vs.filter s.graph.keeps, ∀ name,
      (s.graph.form? v).bind Form.parts? = some name →
      ∃ ws, s.graph.field? v name = some (.list ws) :=
    fun v hv => hParts v (List.mem_filter.1 hv).1
  obtain ⟨g', hGives, hTrimmed⟩ := gives_forM_dropParts (Trims.refl s.graph) hKeptParts
  exact ⟨g', (gives_items rfl).bind (hKept.bind (hGives.bind (.pure _ _))), hTrimmed⟩

/-! ### The prepared list -/

/-- Toplevel declarations of a dump whose containers form a forest. They and everything nested in
them are located. -/
structure LocatedForest (g : Graph) (tops : List Value) : Prop extends Forest g tops where
  linked : ∀ v ∈ tops, ∃ id, v = .link id
  located : ∀ id, Reached g tops id → Located g (.link id)
  parts : ∀ v ∈ tops, ∀ name, (g.form? v).bind Form.parts? = some name →
    ∃ ws, g.field? v name = some (.list ws)

/-- A dump whose one global namespace holds the declarations `tops`. -/
structure Dumped (g : Graph) (vs tops : List Value) : Prop where
  origin : g.origin = .dump
  global : ∃ ns, vs.filter g.isGlobal = [ns] ∧ g.field? ns "members" = some (.list tops)
  forest : LocatedForest g tops

/-- What preparing the declarations `tops` of the dump `g` to `out` means for the graph `g'`. -/
structure Prepared (g : Graph) (tops out : List Value) (g' : Graph) : Prop where
  /-- the toplevel declarations and what was nested in them come out, unless they are ignored -/
  mem_iff : ∀ v, v ∈ out ↔ v ∈ g.wanted tops ∨ ∃ p c, Reached g tops p ∧ g.Nested p c ∧ v = .link c
  /-- a nested container comes out before the one it was nested in -/
  before : ∀ p c, Reached g tops p → g.Nested p c →
    ∃ front back, out = front ++ .link c :: back ∧ .link p ∉ front ∧ .link p ∈ back
  /-- a container keeps its plain members -/
  members : ∀ p, Reached g tops p → g.isContainer (.link p) = true →
    g'.field? (.link p) "members" = some (.list (g.wanted (g.plainMembers p)))
  /-- the type of a field beside a nested container is the typedef made for that -/
  typ : ∀ p c f, Reached g tops p → g.isContainer (.link p) = true → g.Sibling p c f →
    ∃ t, MadeFor g g' t c ∧ g'.field? (.link f) "typ" = some (.link t)
  /-- no typedef that was made comes out -/
  dropped : ∀ t c, MadeFor g g' t c → .link t ∉ out

theorem Dumped.gives_findToplevel {s : Session} {vs : List Value} (hd : Dumped s.graph vs tops) :
    Gives (findToplevel (.list vs)) s (.list tops) s := by
  obtain ⟨ns, hns, hMembers⟩ := hd.global
  have hFind : vs.find? s.graph.isGlobal = some ns := by
    rw [← List.head?_filter, hns]
    rfl
  exact Decl.gives_findToplevel hd.origin hFind hMembers

theorem Flattening.mem_of_reached (hfl : Flattening g tops out g') (ho : g.origin = .dump)
    (hp : Reached g tops p) : .link p ∈ out := by
  cases hp with
  | top h => exact hfl.kept.subset h
  | typedef _ ho' => cases ho.symm.trans ho'
  | member hq hn =>
    obtain ⟨t, hPlaced⟩ := hfl.placed _ _ hq hn
    obtain ⟨front, back, rfl, -⟩ := hPlaced.place
    simp

theorem Lifts.hasForm_ignored (hl : Lifts g tops roots h) (v : Value) :
    h.hasForm v .ignored = g.hasForm v .ignored := by
  obtain ⟨renamed, hp, -⟩ := hl.partly
  rw [Bool.eq_iff_iff]
  simp only [Graph.hasForm, beq_iff_eq]
  exact hp.form?_eq (by simp)

theorem Lifts.location_of_madeFor (hl : Lifts g tops roots h) (ht : MadeFor g h t c) :
    h.field? (.link t) "location" = some .nothing := by
  obtain ⟨k, hk, rfl⟩ := hl.of_madeFor ht
  obtain ⟨renamed, hp, -⟩ := hl.partly
  exact hp.unlocated k (List.getElem?_eq_some_iff.1 hk).1

theorem Trims.madeFor_iff (ht : Trims h g') : MadeFor g g' t c ↔ MadeFor g h t c := by
  have hTyp := ht.other (.link t) "typ" (by simp)
  constructor
  · rintro ⟨hNew, hForm, htyp⟩
    exact ⟨hNew, (ht.form _).symm.trans hForm, hTyp.symm.trans htyp⟩
  · rintro ⟨hNew, hForm, htyp⟩
    exact ⟨hNew, (ht.form _).trans hForm, hTyp.trans htyp⟩

section Flattened

variable {h : Graph} {roots : List Nat} {out : List Value} (ho : g.origin = .dump)
  (hd : LocatedForest g tops) (hfl : Flattening g tops out h) (hl : Lifts g tops roots h)

include hd hfl

theorem LocatedForest.location {id : Nat} (hid : Reached g tops id) : Located h (.link id) := by
  obtain ⟨file, line, hloc⟩ := hd.located id hid
  exact ⟨file, line, (hfl.other id (hd.valid id hid) "location" (by simp) (by simp) (by simp)).trans
    hloc⟩

theorem LocatedForest.flattened_parts (hv : v ∈ out)
    (hname : (h.form? v).bind Form.parts? = some name) :
    ∃ ws, h.field? v name = some (.list ws) := by
  have hContainer : ∀ id, Reached g tops id → g.isContainer (.link id) = true →
      (h.form? (.link id)).bind Form.parts? = some name →
      ∃ ws, h.field? (.link id) name = some (.list ws) := by
    intro id hid hc hname
    rw [hfl.form id (hd.valid id hid), parts?_of_isContainer hc] at hname
    obtain rfl := Option.some.inj hname
    exact ⟨_, hfl.members id hid hc⟩
  rcases hfl.rest v hv with htop | ⟨p, c, t, hp, hn, ht, rfl | rfl⟩
  · obtain ⟨id, rfl⟩ := hd.linked v htop
    by_cases hc : g.isContainer (.link id) = true
    · exact hContainer id (.top htop) hc hname
    · have hid := hd.valid id (.top htop)
      rw [hfl.form id hid] at hname
      obtain ⟨ws, hws⟩ := hd.parts _ htop name hname
      have hOther : name ≠ "typ" ∧ name ≠ "name" ∧ name ≠ "context" := by
        have := mem_of_parts? hname
        simp only [List.mem_cons, List.not_mem_nil, or_false] at this
        rcases this with rfl | rfl | rfl <;> simp
      exact ⟨ws, (hfl.other id hid name hOther.1 (fun _ h => hc h.2) fun e =>
        absurd e (not_or.2 hOther.2)).trans hws⟩
  · exact hContainer c (.member hp hn) hn.isContainer hname
  · simp [ht.form, Form.parts?] at hname

include hl

/-- Of the flattened list the typedefs that were made are dropped, and what is ignored. -/
theorem LocatedForest.keeps_of_reached (hid : Reached g tops id) :
    h.keeps (.link id) = !g.hasForm (.link id) .ignored := by
  obtain ⟨file, line, hloc⟩ := hd.location hfl hid
  rw [Graph.keeps, hloc, hl.hasForm_ignored, Bool.and_true]

theorem LocatedForest.keeps_of_nested (hp : Reached g tops p) (hn : g.Nested p c) :
    h.keeps (.link c) = true := by
  rw [hd.keeps_of_reached hfl hl (.member hp hn),
    hasForm_of_isContainer g hn.isContainer rfl, Bool.not_false]

omit hd hfl in
theorem Lifts.keeps_of_madeFor (ht : MadeFor g h t c) : h.keeps (.link t) = false := by
  rw [Graph.keeps, hl.location_of_madeFor ht, Bool.and_false]

theorem LocatedForest.mem_kept : v ∈ out.filter h.keeps ↔
    v ∈ g.wanted tops ∨ ∃ p c, Reached g tops p ∧ g.Nested p c ∧ v = .link c := by
  rw [List.mem_filter, Graph.wanted, List.mem_filter]
  constructor
  · rintro ⟨hv, hKept⟩
    rcases hfl.rest v hv with htop | ⟨p, c, t, hp, hn, ht, rfl | rfl⟩
    · obtain ⟨id, rfl⟩ := hd.linked v htop
      exact .inl ⟨htop, (hd.keeps_of_reached hfl hl (.top htop)).symm.trans hKept⟩
    · exact .inr ⟨p, c, hp, hn, rfl⟩
    · rw [hl.keeps_of_madeFor ht] at hKept
      cases hKept
  · rintro (⟨htop, hWanted⟩ | ⟨p, c, hp, hn, rfl⟩)
    · obtain ⟨id, rfl⟩ := hd.linked v htop
      exact ⟨hfl.kept.subset htop, (hd.keeps_of_reached hfl hl (.top htop)).trans hWanted⟩
    · obtain ⟨t, hPlaced⟩ := hfl.placed p c hp hn
      obtain ⟨front, back, rfl, -⟩ := hPlaced.place
      exact ⟨by simp, hd.keeps_of_nested hfl hl hp hn⟩

include ho

theorem LocatedForest.kept_split (hp : Reached g tops p) (hn : g.Nested p c) :
    ∃ front back, out.filter h.keeps = front ++ .link c :: back ∧ .link p ∉ front ∧
    .link p ∈ back := by
  obtain ⟨t, hPlaced⟩ := hfl.placed p c hp hn
  obtain ⟨front, back, rfl, -, -, hFront, v, hv, hLeads⟩ := hPlaced.place
  refine ⟨front.filter h.keeps, back.filter h.keeps, ?_, fun hmem => ?_, ?_⟩
  · simp [hd.keeps_of_nested hfl hl hp hn, hl.keeps_of_madeFor hPlaced.made]
  · exact hFront _ (List.mem_filter.1 hmem).1 (.container hn.1)
  · cases hLeads with
    | container hc =>
      refine List.mem_filter.2 ⟨hv, ?_⟩
      rw [hd.keeps_of_reached hfl hl hp, hasForm_of_isContainer g hc rfl, Bool.not_false]
    | typedef ho' => cases ho.symm.trans ho'

end Flattened

theorem LocatedForest.gives_filter_flatten {tops : List Value}
    (ho : s.graph.origin = .dump) (hd : LocatedForest s.graph tops) :
    ∃ out s', Gives (do filterIgnored (← flatten (.list tops))) s (.list out) s' ∧
      Prepared s.graph tops out s'.graph := by
  obtain ⟨out, roots, h, k, hFlatten, hUnfolds, hl⟩ := gives_flatten hd.toForest
  have hfl := hd.flattening hUnfolds hl
  have hLocation : ∀ v ∈ out, ∃ l, h.field? v "location" = some l := by
    intro v hv
    rcases hfl.rest v hv with htop | ⟨p, c, t, hp, hn, ht, rfl | rfl⟩
    · obtain ⟨id, rfl⟩ := hd.linked v htop
      obtain ⟨file, line, hloc⟩ := hd.location hfl (.top htop)
      exact ⟨_, hloc⟩
    · obtain ⟨file, line, hloc⟩ := hd.location hfl (.member hp hn)
      exact ⟨_, hloc⟩
    · exact ⟨_, hl.location_of_madeFor ht⟩
  obtain ⟨g', hFilter, ht, -, hExact⟩ := gives_filterIgnored
    (s := { s with graph := h, console := k }) hLocation fun v hv name => hd.flattened_parts hfl hv
  refine ⟨_, _, hFlatten.bind hFilter, fun v => hd.mem_kept hfl hl, fun p c =>
    hd.kept_split ho hfl hl, ?_, ?_, ?_⟩
  · intro p hp hc
    have hKept : .link p ∈ out.filter h.keeps := by
      refine List.mem_filter.2 ⟨hfl.mem_of_reached ho hp, ?_⟩
      rw [hd.keeps_of_reached hfl hl hp, hasForm_of_isContainer _ hc rfl, Bool.not_false]
    have hParts : (h.form? (.link p)).bind Form.parts? = some "members" := by
      rw [hfl.form p (hd.valid p hp)]
      exact parts?_of_isContainer hc
    rw [hExact _ hKept "members" _ (hfl.members p hp hc) hParts]
    simp only [Graph.wanted, hl.hasForm_ignored]
  · intro p c f hp hc hs
    obtain ⟨t, hMade, htyp⟩ := hfl.typ p c f hp hc hs
    exact ⟨t, ht.madeFor_iff.2 hMade, (ht.other _ "typ" (by simp)).trans htyp⟩
  · intro t c hMade hmem
    have hKept := (List.mem_filter.1 hmem).2
    rw [hl.keeps_of_madeFor (ht.madeFor_iff.1 hMade)] at hKept
    cases hKept

theorem Prepared.of_mem_iff (hp : Prepared g tops out g') (hmem : ∀ v, v ∈ tops' ↔ v ∈ tops) :
    Prepared g tops' out g' := by
  have hr : ∀ {id}, Reached g tops' id → Reached g tops id := fun h => h.of_mem fun v => (hmem v).1
  have hr' : ∀ {id}, Reached g tops id → Reached g tops' id := fun h => h.of_mem fun v => (hmem v).2
  refine ⟨fun v => (hp.mem_iff v).trans (or_congr ?_ ?_), fun p c h => hp.before p c (hr h),
    fun p h => hp.members p (hr h), fun p c f h => hp.typ p c f (hr h), hp.dropped⟩
  · simp only [Graph.wanted, List.mem_filter, hmem]
  · exact ⟨fun ⟨p, c, h, hn⟩ => ⟨p, c, hr' h, hn⟩, fun ⟨p, c, h, hn⟩ => ⟨p, c, hr h, hn⟩⟩

/-- **Preparing a dump drops the typedefs that flattening makes.** Every nested container comes out
before the one it was nested in, and the fields beside it have its typedef as their type, but the
typedef does not come out. -/
theorem prepare_dump {s : Session} {vs tops : List Value} (hd : Dumped s.graph vs tops) :
    ∃ out s', Gives (prepare (.list vs)) s (.list out) s' ∧ Prepared s.graph tops out s'.graph := by
  have hLocated : ∀ v ∈ tops, Located s.graph v := by
    intro v hv
    obtain ⟨id, rfl⟩ := hd.forest.linked v hv
    exact hd.forest.located id (.top hv)
  obtain ⟨sorted, hSort, hOrder⟩ := gives_sortByLocation hLocated
  have hmem : ∀ v, v ∈ sorted ↔ v ∈ tops := fun v => hOrder.perm.mem_iff
  have hForest : LocatedForest s.graph sorted :=
    { toForest := hd.forest.toForest.of_mem_iff hmem
      linked := fun v hv => hd.forest.linked v ((hmem v).1 hv)
      located := fun id h => hd.forest.located id (h.of_mem fun v => (hmem v).1)
      parts := fun v hv => hd.forest.parts v ((hmem v).1 hv) }
  obtain ⟨out, s', hGives, hPrepared⟩ := hForest.gives_filter_flatten hd.origin
  refine ⟨out, s', ?_, hPrepared.of_mem_iff fun v => (hmem v).symm⟩
  refine hd.gives_findToplevel.bind (gives_origin.bind ?_)
  simp only [hd.origin]
  exact hSort.bind hGives

/-- A struct with a union in it and a field of that union, in the global namespace. -/
def unionInStruct : Graph where
  entries := #[
    ⟨.nameSpace, [("name", .text "::"), ("members", .list [.link 1])]⟩,
    ⟨.struct, [("name", .text "S"), ("members", .list [.link 2, .link 3]), ("context", .link 0),
      ("location", .tuple [.text "t.h", .int 1])]⟩,
    ⟨.union, [("name", .text "u"), ("members", .list []), ("context", .link 1),
      ("location", .tuple [.text "t.h", .int 2])]⟩,
    ⟨.field, [("name", .text "x"), ("typ", .link 2), ("context", .link 1),
      ("location", .tuple [.text "t.h", .int 3])]⟩]

theorem unionInStruct_dumped : Dumped unionInStruct [.link 0] [.link 1] := by
  refine ⟨rfl, ⟨.link 0, rfl, rfl⟩,
    ⟨.of_ids [1, 2] (2 - ·) (by decide) (by decide) (by decide) (by decide), ?_, ?_, ?_⟩⟩
  · exact fun v hv => ⟨1, by simpa using hv⟩
  · intro id hid
    have hMem : id ∈ [1, 2] := hid.mem_ids (by decide) (by decide)
    obtain rfl | rfl : id = 1 ∨ id = 2 := by simpa using hMem
    all_goals exact ⟨_, _, rfl⟩
  · intro v hv name hname
    obtain rfl : v = .link 1 := by simpa using hv
    obtain rfl : "members" = name := by simpa [unionInStruct, form?, Graph.get?, Form.parts?] using
      hname
    exact ⟨_, rfl⟩

theorem prepare_unionInStruct : Dumped unionInStruct [.link 0] [.link 1] ∧
    ∃ out s', Gives (prepare (.list [.link 0])) { graph := unionInStruct } (.list out) s' ∧
      Prepared unionInStruct [.link 1] out s'.graph :=
  ⟨unionInStruct_dumped, prepare_dump (s := { graph := unionInStruct }) unionInStruct_dumped⟩

end PxdGen.Decl
