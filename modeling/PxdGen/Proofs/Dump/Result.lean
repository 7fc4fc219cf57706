import PxdGen.Proofs.Dump.Resolution
/-! # What a dump gives

A session of a dump that has been read holds keys in a few fields only, and each of them is resolved
exactly once. So the declarations that a dump gives have no keys left in them, unless a key is not
known.
-/

namespace PxdGen.Decl.Unread

/-! ### Fields that have been read -/

variable {name : String} {v : Value}

theorem key (h : Unread name v) (hname : name ∈ singleFields) : ∃ k, v = .text k := by
  simp only [singleFields, List.mem_cons, List.not_mem_nil, or_false] at hname
  obtain ⟨ρ, w, hw⟩ := h (by rintro rfl; simp at hname) (by rintro rfl; simp at hname)
  rcases hname with rfl | rfl | rfl <;> exact hw.imp fun k hk => hk.1

theorem keys (h : Unread name v) (hname : name ∈ listFields) :
    ∃ ks, v = Dump.textList ks := by
  simp only [listFields, List.mem_cons, List.not_mem_nil, or_false] at hname
  obtain ⟨ρ, w, hw⟩ := h (by rintro rfl; simp at hname) (by rintro rfl; simp at hname)
  rcases hname with rfl | rfl <;> exact hw.imp fun k hk => hk.1

theorem location (h : Unread "location" v) : v = .nothing ∨ ∃ l, v = .text l := by
  obtain ⟨ρ, w, hw⟩ := h (by decide) (by decide)
  exact hw.imp And.left fun ⟨l, _, hl, _⟩ => ⟨l, hl⟩

theorem isName (h : Unread "name" v) : v = .nothing ∨ ∃ a, v = .text a := by
  obtain ⟨ρ, w, hw⟩ := h (by decide) (by decide)
  exact hw.2

end PxdGen.Decl.Unread

namespace PxdGen.Dump

open Decl Decl.Work

variable {done : List Xml.Event} {s : Session} {i j : Nat}

variable {form : Form} {place : KeyPlace} {e : Entry} {n k document : String} {v : Value}
  {vs : List Value} {w : List String} {t : Session} {events : List Xml.Event}

/-- Keys stand where declarations of a form have them from the start. -/
def placeFits (form : Form) : KeyPlace → Bool
  | .one n => singleFields.contains n && (neededOf form).contains n
  | .many n | .each n => listFields.contains n && (neededOf form).contains n
  | .arguments => takesArguments form && form != .ignored

theorem placeFits_of_mem {places : List KeyPlace}
    (h : keyPlaces? .dump form = some places) (hplace : place ∈ places) :
    placeFits form place = true := by
  have hall : places.all (placeFits form) = true := by cases form <;> cases h <;> decide
  exact List.all_eq_true.1 hall place hplace

namespace Sound

theorem entry (h : Sound done s) (hi : .link i ∈ s.table.values) :
    ∃ e, s.graph.get? i = some e ∧ isStanding e.form = true := by
  obtain ⟨_, e, hl, he, hform⟩ := h.registered _ hi
  cases hl
  exact ⟨e, he, hform⟩

theorem places (h : Sound done s) (hi : .link i ∈ s.table.values) :
    ∃ e places, s.graph.get? i = some e ∧ e.form ≠ .argument ∧
    keyPlaces? .dump e.form = some places := by
  obtain ⟨e, he, hstanding⟩ := h.entry hi
  have hform : e.form ≠ .argument := by
    intro hform
    rw [hform] at hstanding
    cases hstanding
  obtain ⟨places, hplaces⟩ := Entry.isShaped.resolvable (h.shaped i e he) hform
  exact ⟨e, places, he, hform, hplaces⟩

theorem ready (h : Sound done s) (he : s.graph.get? i = some e) {places : List KeyPlace}
    (hplaces : keyPlaces? .dump e.form = some places) (hplace : place ∈ places) :
    Ready s i place := by
  have hfits := placeFits_of_mem hplaces hplace
  have hfield : ∀ n ∈ neededOf e.form, ∃ v, s.graph.field? (.link i) n = some v ∧ Unread n v := by
    intro n hn
    obtain ⟨v, hv⟩ := Entry.isShaped.needed (h.shaped i e he) hn
    exact ⟨v, by rw [Graph.field?_of_get? _ he, hv], h.unread i e he n v hv⟩
  cases place with
  | one n =>
    simp only [placeFits, Bool.and_eq_true, List.contains_iff_mem] at hfits
    obtain ⟨v, hv, hunread⟩ := hfield n hfits.2
    obtain ⟨k, rfl⟩ := hunread.key hfits.1
    exact ⟨hfits.1, k, hv⟩
  | many n | each n =>
    simp only [placeFits, Bool.and_eq_true, List.contains_iff_mem] at hfits
    obtain ⟨v, hv, hunread⟩ := hfield n hfits.2
    obtain ⟨ks, rfl⟩ := hunread.keys hfits.1
    exact ⟨hfits.1, ks, hv⟩
  | arguments =>
    simp only [placeFits, Bool.and_eq_true] at hfits
    obtain ⟨v, hv, -⟩ := hfield "arguments" (by simp [neededOf, hfits.1])
    obtain ⟨owner, howner⟩ := h.owned
    obtain ⟨js, rfl, hnodup, hjs⟩ := howner i e he v (by rw [← hv, Graph.field?_of_get? _ he])
    refine ⟨e.form, js, Graph.form?_of_get? _ he, hfits.1, hv, hnodup, fun j hj => ?_⟩
    obtain ⟨a, ha, hform⟩ := Option.map_eq_some_iff.1 (hjs j hj).2
    have hneeded : "typ" ∈ neededOf a.form := by
      rw [hform]
      decide
    obtain ⟨w, hw⟩ := Entry.isShaped.needed (h.shaped j a ha) hneeded
    obtain ⟨k, rfl⟩ := (h.unread j a ha "typ" w hw).key (by decide)
    exact ⟨k, by rw [Graph.field?_of_get? _ ha, hw]⟩

theorem isName (h : Sound done s) (hi : .link i ∈ s.table.values) :
    ∃ name, s.graph.field? (.link i) "name" = some name ∧
    (name = .nothing ∨ ∃ a, name = .text a) := by
  obtain ⟨e, he, -⟩ := h.entry hi
  have hneeded : "name" ∈ neededOf e.form := by
    rw [neededOf]
    split <;> simp
  obtain ⟨v, hv⟩ := Entry.isShaped.needed (h.shaped i e he) hneeded
  exact ⟨v, by rw [Graph.field?_of_get? _ he, hv], (h.unread i e he "name" v hv).isName⟩

theorem resolvable (h : Sound done s) : Resolvable s where
  origin := h.origin
  named := by
    intro v hv
    obtain ⟨i, -, rfl, -⟩ := h.registered v hv
    obtain ⟨name, hname, -⟩ := h.isName hv
    exact ⟨i, name, rfl, hname⟩
  location := by
    intro i hi v hv
    obtain ⟨e, he, -⟩ := h.entry hi
    rw [Graph.field?_of_get? _ he] at hv
    exact (h.unread i e he "location" v hv).location
  ready := by
    intro i hi
    obtain ⟨e, places, he, -, hplaces⟩ := h.places hi
    exact ⟨e.form, places, Graph.form?_of_get? _ he, hplaces, fun place => h.ready he hplaces⟩
  once := h.once
  standing := by
    intro i hi hargument
    obtain ⟨e, -, he, hform, -⟩ := h.places hi
    rw [Graph.form?_of_get? _ he] at hargument
    exact hform (Option.some.inj hargument)
  owned := by
    obtain ⟨owner, howner⟩ := h.owned
    refine ⟨owner, fun i items hitems j hj => ?_⟩
    obtain ⟨e, he, hv⟩ := Option.bind_eq_some_iff.1 hitems
    obtain ⟨js, hjs, -, hall⟩ := howner i e he _ hv
    cases hjs
    obtain ⟨j', hj', hlink⟩ := List.mem_map.1 hj
    cases hlink
    exact hall j hj'

end Sound

/-! ### Keys that are due -/

/-- Where keys are to be resolved: in what has been registered, and in the types of arguments, those
of what is ignored apart. -/
def IsDue (s : Session) : Places := fun j n =>
  (.link j ∈ s.table.values ∧ n ∈ "location" :: keyFields ∧
    ∃ v, s.graph.field? (.link j) n = some v ∧ v ≠ .nothing) ∨
  (n = "typ" ∧ ∃ i items, .link i ∈ s.table.values ∧ s.graph.form? (.link i) ≠ some .ignored ∧
    s.graph.field? (.link i) "arguments" = some (.list items) ∧ .link j ∈ items)

theorem Ready.isDue (hi : .link i ∈ s.table.values) (hready : Ready s i place)
    (hignored : place = .arguments → s.graph.form? (.link i) ≠ some .ignored)
    (h : placesAt s i place j n) : IsDue s j n := by
  cases place with
  | one n =>
    obtain ⟨rfl, rfl⟩ := h
    obtain ⟨hn, k, hk⟩ := hready
    exact .inl ⟨hi, List.mem_cons_of_mem _ (mem_keyFields.2 (.inl hn)), _, hk, by simp⟩
  | many n | each n =>
    obtain ⟨rfl, rfl⟩ := h
    obtain ⟨hn, ks, hks⟩ := hready
    exact .inl ⟨hi, List.mem_cons_of_mem _ (mem_keyFields.2 (.inr hn)), _, hks, by simp [textList]⟩
  | arguments =>
    obtain ⟨rfl, items, hitems, hj⟩ := h
    exact .inr ⟨rfl, i, items, hi, hignored rfl, hitems, hj⟩

theorem Sound.keysOf_of_field (h : Sound done s) (he : s.graph.get? i = some e)
    (hn : n ∈ keyFields) (hv : e.get? n = some v) : n ∈ keysOf e.form := by
  have hhold := Entry.isShaped.mayHold (h.shaped i e he) hv
  have hne : (n == "arguments") = false ∧ (n == "location") = false :=
    (by decide : ∀ n ∈ keyFields, (n == "arguments") = false ∧ (n == "location") = false) n hn
  simpa [mayHold, hne, hn] using hhold

theorem Sound.takesArguments (h : Sound done s) {e : Entry} (he : s.graph.get? i = some e)
    {v : Value} (hv : e.get? "arguments" = some v) : takesArguments e.form = true :=
  Entry.isShaped.mayHold (h.shaped i e he) hv

theorem exists_place (hform : form ≠ .argument) {places : List KeyPlace}
    (hplaces : keyPlaces? .dump form = some places) (hn : n ∈ keysOf form) :
    ∃ place ∈ places, placesAt s i place i n := by
  have hkeys : keysOf form = places.filterMap KeyPlace.field? := by
    rw [keysOf, hplaces]
    · rfl
    · exact hform
  rw [hkeys, List.mem_filterMap] at hn
  obtain ⟨place, hplace, hfield⟩ := hn
  refine ⟨place, hplace, ?_⟩
  cases place with
  | arguments => cases hfield
  | _ => exact ⟨rfl, (Option.some.inj hfield).symm⟩

theorem arguments_mem (htakes : takesArguments form = true) (hform : form ≠ .ignored)
    {places : List KeyPlace} (hplaces : keyPlaces? .dump form = some places) :
    .arguments ∈ places := by
  cases form <;> cases htakes <;> cases hplaces <;> simp_all

/-- **Each key that is due is resolved, and nothing else.** -/
theorem Sound.allPlaces_iff (h : Sound done s) : allPlaces s j n ↔ IsDue s j n := by
  constructor
  · rintro ⟨v, hv, i, form, places, rfl, hform, hplaces, hplace⟩
    obtain ⟨e, he, -⟩ := h.entry hv
    obtain rfl : e.form = form := by
      rw [Graph.form?_of_get? _ he] at hform
      exact Option.some.inj hform
    obtain ⟨rfl, rfl, l, hl⟩ | ⟨place, hplace, hat⟩ := hplace
    · exact .inl ⟨hv, List.mem_cons_self, _, hl, by simp⟩
    · refine (h.ready he hplaces hplace).isDue hv ?_ hat
      rintro rfl hignored
      have hfits := placeFits_of_mem hplaces hplace
      rw [hform] at hignored
      rw [Option.some.inj hignored] at hfits
      cases hfits
  · intro hdue
    have hfind : ∀ i, .link i ∈ s.table.values → ∀ e places, s.graph.get? i = some e →
        keyPlaces? .dump e.form = some places → placesOf s i places j n → allPlaces s j n :=
      fun i hi e places he hplaces hplace =>
        ⟨_, hi, i, e.form, places, rfl, Graph.form?_of_get? _ he, hplaces, hplace⟩
    obtain ⟨hj, hn, v, hv, hne⟩ | ⟨rfl, i, items, hi, hform, hitems, hj⟩ := hdue
    · obtain ⟨e, places, he, hform, hplaces⟩ := h.places hj
      refine hfind j hj e places he hplaces ?_
      have hget : e.get? n = some v := by rw [← hv, Graph.field?_of_get? _ he]
      rcases List.mem_cons.1 hn with rfl | hn
      · obtain rfl | ⟨l, rfl⟩ := (h.unread j e he _ v hget).location
        · exact absurd rfl hne
        · exact .inl ⟨rfl, rfl, l, hv⟩
      · exact .inr (exists_place hform hplaces (h.keysOf_of_field he hn hget))
    · obtain ⟨e, places, he, -, hplaces⟩ := h.places hi
      refine hfind i hi e places he hplaces (.inr ⟨.arguments, ?_, rfl, items, hitems, hj⟩)
      have hget : e.get? "arguments" = some (.list items) := by
        rw [← hitems, Graph.field?_of_get? _ he]
      rw [Graph.form?_of_get? _ he] at hform
      exact arguments_mem (h.takesArguments he hget) (fun hf => hform (congrArg some hf)) hplaces

/-! ### The declarations of a dump -/

/-- The declarations that are handed on, in the order of their keys. -/
def interesting (s : Session) : List Value :=
  s.table.values.filter fun v => (s.graph.form? v).any (·.isInteresting s.graph.origin)

theorem gives_checkRevision
    (hrevision : ∀ r, s.revision = some r → isOld r = true → r.length = 2) :
    ∃ w, Gives checkRevision s () { s with warnings := w } := by
  have hwarn : ∀ text, outcome checkRevision s = outcome (warn text) s →
      ∃ w, Gives checkRevision s () { s with warnings := w } := fun text h =>
    ⟨text :: s.warnings, gives_iff_outcome.2 h⟩
  rcases Option.eq_none_or_eq_some s.revision with hr | ⟨r, hr⟩
  · refine hwarn "Could not determine CVS revision of GCCXML" ?_
    rw [checkRevision, outcome_bind, gives_iff_outcome.1 (gives_get.2 ⟨rfl, rfl⟩)]
    simp only [hr]
  · cases hold : isOld r with
    | true =>
      obtain ⟨major, minor, rfl⟩ := List.length_eq_two.1 (hrevision r hr hold)
      refine hwarn ("CVS Revision of GCCXML is " ++ Text.ofInt major ++ "." ++ Text.ofInt minor) ?_
      rw [checkRevision, outcome_bind, gives_iff_outcome.1 (gives_get.2 ⟨rfl, rfl⟩)]
      simp only [hr, hold, if_true]
    | false =>
      have hnothing : outcome checkRevision s = outcome (pure ()) s := by
        rw [checkRevision, outcome_bind, gives_iff_outcome.1 (gives_get.2 ⟨rfl, rfl⟩)]
        simp only [hr, hold, Bool.false_eq_true, if_false]
      exact ⟨s.warnings, gives_iff_outcome.2 hnothing⟩

theorem length_of_gives_checkRevision {s' : Session} (h : Gives checkRevision s () s')
    {r : List Int} (hr : s.revision = some r) (hold : isOld r = true) : r.length = 2 := by
  have h := gives_after (gives_get.2 ⟨rfl, rfl⟩) h
  simp only [hr, hold, if_true] at h
  split at h
  · rfl
  · exact absurd h gives_throw

theorem gives_namesOf (h : ∀ v ∈ vs, ∃ name,
    s.graph.field? v "name" = some name ∧ (name = .nothing ∨ ∃ a, name = .text a)) :
    ∃ names, Gives (namesOf vs) s names s := by
  rw [namesOf]
  generalize ({} : Table Key Value) = known
  induction vs generalizing known with
  | nil => exact ⟨known, .pure known s⟩
  | cons v vs ih =>
    obtain ⟨name, hname, hcases⟩ := h v List.mem_cons_self
    have hread : Gives (field? v "name") s (some name) s := by
      rw [← hname]
      rfl
    rw [List.foldlM_cons]
    have hrest := ih fun w hw => h w (List.mem_cons_of_mem v hw)
    obtain rfl | ⟨a, rfl⟩ := hcases
    · obtain ⟨names, hnames⟩ := hrest known
      exact ⟨names, (hread.bind (.pure known s)).bind hnames⟩
    · obtain ⟨names, hnames⟩ := hrest (known.insert (.named (.text a)) v)
      exact ⟨names, (hread.bind (.pure (known.insert (.named (.text a)) v) s)).bind hnames⟩

/-- What is left to do when all keys are resolved. -/
def handOn : Work (List Value) := do
  let s ← get
  let names ← namesOf (interesting s)
  readSynonyms (← sectionText "aliases") fun name => pure (names.get? (.named (.text name)))
  pure (interesting s)

theorem gives_sectionText (h : s.sections = {}) (name : String) :
    Gives (sectionText name) s .nothing s := by
  refine Gives.get ?_
  rw [h]
  exact .pure Value.nothing s

theorem outcome_result (horigin : s.graph.origin = .dump)
    (hsections : s.sections = {}) (hw : Gives checkRevision s () { s with warnings := w }) :
    outcome Decl.result s = outcome (resolveAll >>= fun _ => handOn) { s with warnings := w } := by
  rw [Decl.result, outcome_bind, gives_iff_outcome.1 gives_origin]
  simp only [horigin, beq_self_eq_true, if_true]
  rw [outcome_bind, gives_iff_outcome.1 hw]
  simp only
  have htext := gives_sectionText (s := { s with warnings := w }) hsections "functions"
  rw [outcome_bind, gives_iff_outcome.1 htext]
  rfl

theorem gives_handOn (hsections : t.sections = {}) (h : ∀ v ∈ interesting t, ∃ name,
    t.graph.field? v "name" = some name ∧ (name = .nothing ∨ ∃ a, name = .text a)) :
    Gives handOn t (interesting t) t := by
  obtain ⟨names, hnames⟩ := gives_namesOf h
  refine Gives.get (hnames.bind ?_)
  exact (gives_sectionText hsections _).bind (.pure _ t)

theorem gives_checkRevision_of_result
    (horigin : s.graph.origin = .dump) (h : Gives Decl.result s vs t) :
    ∃ s', Gives checkRevision s () s' := by
  have h := gives_after gives_origin h
  simp only [horigin, beq_self_eq_true, if_true] at h
  obtain ⟨_, s', hrevision, -⟩ := gives_bind.1 h
  exact ⟨s', hrevision⟩

theorem Blocked.of_warnings {Q : Places} {f : Fault} (h : Blocked { s with warnings := w } Q f) :
    Blocked s Q f := by
  cases h with
  | missing hk hQ hat => exact .missing hk hQ hat
  | malformed f hQ hl hmalformed => exact .malformed f hQ hl hmalformed

/-- **Resolution is exact.** -/
theorem Sound.result (h : Sound done s) {w : List String}
    (hw : Gives checkRevision s () { s with warnings := w }) :
    (∃ t, Gives Decl.result s (interesting s) t ∧ Midway { s with warnings := w } (IsDue s) t ∧
      ∀ j n k, IsDue s j n → KeyAt s j n k → (named? s k).isSome = true) ∨
    ∃ f t, outcome Decl.result s = (.error f, t) ∧ Blocked s (IsDue s) f := by
  have hsound : Sound done { s with warnings := w } := { h with }
  have hrun := outcome_result h.origin h.sections hw
  obtain ⟨_, t, hgives, -, hmid, hknown⟩ | ⟨f, t, herror, hblocked⟩ :=
    hsound.resolvable.resolveAll _ _ (.start _) fun _ _ _ h => h
  · simp only [false_or, hsound.allPlaces_iff] at hmid
    have hall : interesting t = interesting s := by
      rw [interesting, hmid.rest, hmid.origin]
      simp only [hmid.form]
      rfl
    refine .inl ⟨t, ?_, hmid, fun j n k hdue => hknown j n k (hsound.allPlaces_iff.2 hdue)⟩
    rw [gives_iff_outcome, hrun, outcome_bind, gives_iff_outcome.1 hgives, ← hall]
    refine gives_iff_outcome.1 (gives_handOn ?_ fun v hv => ?_)
    · rw [hmid.rest]
      exact h.sections
    · rw [hall] at hv
      have hv' := (List.mem_filter.1 hv).1
      obtain ⟨i, -, rfl, -⟩ := h.registered v hv'
      obtain ⟨name, hname, hcases⟩ := h.isName hv'
      exact ⟨name, (hmid.field?_other i (by decide)).trans hname, hcases⟩
  · refine .inr ⟨f, t, ?_, (hblocked.mono fun _ _ => hsound.allPlaces_iff.1).of_warnings⟩
    rw [hrun, outcome_bind, herror]

theorem Sound.link_of_named? (h : Sound done s) {w : Value}
    (hw : named? s k = some w) : ∃ i, w = .link i := by
  obtain ⟨i, -, rfl, -⟩ := h.registered w (Table.mem_values_of_get? _ hw)
  exact ⟨i, rfl⟩

theorem Sound.not_keyAt (h : Sound done s) {w : Value}
    (hbecomes : Becomes s n v w) (hw : t.graph.field? (.link j) n = some w) : ¬ KeyAt t j n k := by
  have hlist : ∀ ks ws, List.Forall₂ (fun k w => named? s k = some w) ks ws → .text k ∉ ws := by
    intro ks ws hall hmem
    obtain ⟨k', -, hk'⟩ := exists_of_forall₂_right hall hmem
    obtain ⟨i, hi⟩ := h.link_of_named? hk'
    cases hi
  rintro (⟨-, htext⟩ | ⟨-, items, hitems, hmem⟩ | ⟨-, l, line, hl, -⟩)
  · obtain rfl := Option.some.inj (hw.symm.trans htext)
    cases hbecomes with
    | key _ hk => cases (h.link_of_named? hk).choose_spec
  · obtain rfl := Option.some.inj (hw.symm.trans hitems)
    cases hbecomes with
    | key _ hk => cases (h.link_of_named? hk).choose_spec
    | keys _ hall => exact hlist _ _ hall hmem
  · obtain rfl := Option.some.inj (hw.symm.trans hl)
    cases hbecomes with
    | key _ hk => cases (h.link_of_named? hk).choose_spec

theorem KeyAt.field {n k : String} (h : KeyAt s j n k) :
    ∃ v, s.graph.field? (.link j) n = some v ∧ v ≠ .nothing ∧ n ∈ "location" :: keyFields := by
  obtain ⟨hn, hv⟩ | ⟨hn, items, hv, -⟩ | ⟨rfl, l, line, hv, -⟩ := h
  · exact ⟨_, hv, by simp, List.mem_cons_of_mem _ hn⟩
  · exact ⟨_, hv, by simp, List.mem_cons_of_mem _ hn⟩
  · exact ⟨_, hv, by simp, List.mem_cons_self⟩

/-- Of what is not registered, only the types of arguments are keys. -/
theorem Sound.isArgument (h : Sound done s) (he : s.graph.get? j = some e)
    (hstanding : isStanding e.form = false) (hn : n ∈ "location" :: keyFields)
    (hv : e.get? n = some v) (hne : v ≠ .nothing) : e.form = .argument ∧ n = "typ" := by
  rcases List.mem_cons.1 hn with rfl | hn
  · have hhold := Entry.isShaped.mayHold (h.shaped j e he) hv
    obtain rfl | ⟨l, rfl⟩ := (h.unread j e he _ v hv).location
    · exact absurd rfl hne
    · change (isStanding e.form || false) = true at hhold
      rw [hstanding] at hhold
      cases hhold
  · have hkeys := h.keysOf_of_field he hn hv
    cases hform : e.form with
    | argument =>
      rw [hform] at hkeys
      exact ⟨rfl, List.mem_singleton.1 hkeys⟩
    | enumValue =>
      rw [hform] at hkeys
      cases hkeys
    | _ =>
      rw [hform] at hstanding
      cases hstanding

/-- **The keys that are left are those in the arguments of what is ignored.** -/
theorem Sound.left_keys (h : Sound done s) (hmid : Midway s (IsDue s) t)
    (hat : KeyAt t j n k) : n = "typ" ∧ ∃ i items, t.graph.form? (.link i) = some .ignored ∧
      t.graph.field? (.link i) "arguments" = some (.list items) ∧ .link j ∈ items := by
  by_cases hdue : IsDue s j n
  · obtain ⟨v, w, -, hw, hbecomes⟩ := hmid.become j n hdue
    exact absurd hat (h.not_keyAt hbecomes hw)
  obtain ⟨v, hv, hne, hn⟩ := hat.field
  rw [hmid.kept j n hdue] at hv
  obtain ⟨e, he, hget⟩ := Option.bind_eq_some_iff.1 hv
  cases hstanding : isStanding e.form with
  | true => exact absurd (.inl ⟨h.complete j e he hstanding, hn, v, hv, hne⟩) hdue
  | false =>
    obtain ⟨hform, rfl⟩ := h.isArgument he hstanding hn hget hne
    obtain ⟨i, items, hitems, hj⟩ := h.held j (by rw [Graph.form?_of_get? _ he, hform])
    obtain ⟨p, hp, hargs⟩ := Option.bind_eq_some_iff.1 hitems
    have hi : .link i ∈ s.table.values := by
      refine h.complete i p hp ?_
      have htakes := h.takesArguments hp hargs
      cases hf : p.form <;> rw [hf] at htakes <;> first | rfl | cases htakes
    refine ⟨rfl, i, items, ?_, (hmid.field?_other i (by decide)).trans hitems, hj⟩
    rw [hmid.form]
    by_contra hignored
    exact hdue (.inr ⟨rfl, i, items, hi, hignored, hitems, hj⟩)

theorem gives_readDocument {s₀ : Session} (hdocument : Xml.read document = .ok ⟨events, true⟩) :
    Gives (readDocument document) s₀ () s ↔ Gives (events.forM takeEvent) s₀ () s := by
  rw [readDocument, hdocument, gives_bind]
  constructor
  · rintro ⟨reading, s₁, hreading, h⟩
    cases hreading
    obtain ⟨_, s₂, hevents, h⟩ := gives_bind.1 h
    obtain ⟨-, rfl⟩ := gives_pure.1 h
    exact hevents
  · exact fun h => ⟨⟨events, true⟩, s₀, rfl, h.bind (.pure () s)⟩

theorem Becomes.of_warnings {v' : Value} (h : Becomes { s with warnings := w } n v v') :
    Becomes s n v v' := by
  cases h with
  | key hn hk => exact .key hn hk
  | keys hn hks => exact .keys hn hks
  | location hl hn hv hname => exact .location hl hn hv hname

/-- **A dump gives its declarations exactly when every key in them is known.** Then every key has
been replaced by what is registered under it and every location by a file name and a line, nothing
else has changed, and the only keys that are left are in the arguments of what is ignored. Otherwise
a key is missing. -/
theorem gives_result_iff {document : String} {events : List Xml.Event} {s : Session}
    (hdocument : Xml.read document = .ok ⟨events, true⟩)
    (hread : Gives (readDocument document) {} () s) (hids : (ids events).Nodup)
      (hsections : ∀ ev ∈ events, isRead ev = true)
    (hrevision : ∀ r, s.revision = some r → r.length = 2)
    (hlocated : ∀ i l, s.graph.field? (.link i) "location" = some (.text l) → isLocation l = true) :
    ((∃ vs t, Gives result s vs t) ↔ ∀ j n k, IsDue s j n → KeyAt s j n k →
      (named? s k).isSome = true) ∧
    (∀ vs t, Gives result s vs t →
      vs = interesting s ∧ t.table = s.table ∧ (∀ v, t.graph.form? v = s.graph.form? v) ∧
      (∀ j n, IsDue s j n → ∃ v w, s.graph.field? (.link j) n = some v ∧
        t.graph.field? (.link j) n = some w ∧ Becomes s n v w) ∧
      (∀ j n, ¬ IsDue s j n → t.graph.field? (.link j) n = s.graph.field? (.link j) n) ∧
      ∀ j n k, KeyAt t j n k → n = "typ" ∧ ∃ i items, t.graph.form? (.link i) = some .ignored ∧
        t.graph.field? (.link i) "arguments" = some (.list items) ∧ .link j ∈ items) ∧
    ∀ f t, outcome result s = (.error f, t) → ∃ k, f = .missingKey (some k) ∧ named? s k = none ∧
      ∃ j n, IsDue s j n ∧ KeyAt s j n k := by
  have h : Sound events s := by
    have hevents := (gives_readDocument hdocument).1 hread
    simpa using sound_empty.forM hsections (by simpa using hids) hevents
  obtain ⟨w, hw⟩ := gives_checkRevision fun r hr _ => hrevision r hr
  obtain ⟨t, hgives, hmid, hknown⟩ | ⟨f, t, herror, hblocked⟩ := h.result hw
  · refine ⟨⟨fun _ => hknown, fun _ => ⟨_, t, hgives⟩⟩, fun vs t' hgives' => ?_, fun f t' herror =>
      ?_⟩
    · obtain ⟨rfl, rfl⟩ := hgives.unique hgives'
      refine ⟨rfl, by rw [hmid.rest], hmid.form, fun j n hdue => ?_, hmid.kept, fun j n k => ?_⟩
      · obtain ⟨v, w', hv, hw', hbecomes⟩ := hmid.become j n hdue
        exact ⟨v, w', hv, hw', hbecomes.of_warnings⟩
      · exact Sound.left_keys (s := { s with warnings := w }) { h with } hmid
    · rw [gives_iff_outcome.1 hgives] at herror
      cases herror
  · have hfails : ∀ vs t, ¬ Gives result s vs t := by
      intro vs t' hgives
      rw [gives_iff_outcome.1 hgives] at herror
      cases herror
    cases hblocked with
    | malformed _ _ hl hmalformed =>
      rw [hlocated _ _ hl] at hmalformed
      cases hmalformed
    | missing hnone hdue hat =>
      refine ⟨⟨fun ⟨vs, t', hgives⟩ => absurd hgives (hfails vs t'), fun hknown => ?_⟩,
        fun vs t' hgives => absurd hgives (hfails vs t'), fun f t' herror' => ?_⟩
      · have := hknown _ _ _ hdue hat
        rw [hnone] at this
        cases this
      · rw [herror] at herror'
        cases herror'
        exact ⟨_, rfl, hnone, _, _, hdue, hat⟩

/-- A dump with a struct, a method of it and a file. The method is ignored, so that the type of its
argument need not be known. -/
def smallDump : String :=
  "<D><Struct id='s' name='S' align='8' members='m' context='s' location='f:3'/>" ++
  "<Method id='m' name='go'><Argument type='u'/></Method><File id='f' name='a.h'/></D>"

def smallEvents : List Xml.Event :=
  [.start "D" [],
    .start "Struct" [("id", "s"), ("name", "S"), ("align", "8"), ("members", "m"), ("context", "s"),
      ("location", "f:3")],
    .stop "Struct" "", .start "Method" [("id", "m"), ("name", "go")],
    .start "Argument" [("type", "u")], .stop "Argument" "", .stop "Method" "",
    .start "File" [("id", "f"), ("name", "a.h")],
    .stop "File" "", .stop "D" ""]

theorem read_of_toOption
    (h : (Xml.read document).toOption.map (fun r => (r.events, r.isWellFormed)) =
      some (events, true)) : Xml.read document = .ok ⟨events, true⟩ := by
  cases hr : Xml.read document with
  | error f =>
    rw [hr] at h
    cases h
  | ok reading =>
    obtain ⟨events, isWellFormed⟩ := reading
    rw [hr] at h
    cases h
    rfl

theorem read_smallDump : Xml.read smallDump = .ok ⟨smallEvents, true⟩ :=
  read_of_toOption (by decide +kernel)

/-- The session in which it has been read. -/
def smallSession : Session := (outcome (smallEvents.forM takeEvent) {}).2

theorem isLocation_smallSession (i : Nat) (l : String)
    (h : smallSession.graph.field? (.link i) "location" = some (.text l)) :
    isLocation l = true := by
  have hall : smallSession.graph.entries.toList.all (fun e =>
      ((e.get? "location").bind Value.asText?).all isLocation) = true := by decide +kernel
  obtain ⟨e, he, hv⟩ := Option.bind_eq_some_iff.1 h
  have := List.all_eq_true.1 hall e (Array.mem_toList_iff.2 (Array.mem_of_getElem? he))
  rw [hv] at this
  exact this

theorem gives_result_iff_smallDump : Gives (readDocument smallDump) {} () smallSession ∧
    (∃ vs t, Gives result smallSession vs t) ∧ (named? smallSession "u").isNone = true ∧
    ∀ j n k, IsDue smallSession j n → KeyAt smallSession j n k →
      (named? smallSession k).isSome = true := by
  obtain ⟨⟨⟩, hevents⟩ :=
    exists_gives_of_isOk (x := smallEvents.forM takeEvent) (s := {}) (by decide +kernel)
  have hread : Gives (readDocument smallDump) {} () smallSession :=
    (gives_readDocument read_smallDump).2 hevents
  obtain ⟨vs, hresult⟩ :=
    exists_gives_of_isOk (x := result) (s := smallSession) (by decide +kernel)
  have hrevision : smallSession.revision.isNone = true := by decide +kernel
  exact ⟨hread, ⟨vs, _, hresult⟩, by decide +kernel, ((gives_result_iff read_smallDump hread
    (by decide +kernel) (by decide +kernel) (by simp [Option.isNone_iff_eq_none.1 hrevision])
      isLocation_smallSession).1).1 ⟨vs, _, hresult⟩⟩

end PxdGen.Dump
