import PxdGen.Proofs.Flatten.Mangled
/-! # Flattening one container

A container is flattened by lifting the containers nested in it, each after what is nested in that
one, and then taking them out. By induction on the depth of the recursion all containers under it
are lifted, in the order of `under`, and every one of them is flat afterwards.
-/

namespace PxdGen.Decl

open Work Decl.Graph

variable {r n : Nat} {s : Session} {ms : List Value} {flat lifted renamed : List Nat}
  {qs : List (Nat × Nat × Nat)}

/-- Lifted containers, each with its typedef behind it; the typedefs are numbered from `start`. -/
def liftedItems (start : Nat) (cs : List Nat) : List Value :=
  (cs.zipIdx start).flatMap fun (c, t) => [.link c, .link t]

theorem liftedItems_append (start : Nat) (as bs : List Nat) :
    liftedItems start (as ++ bs) = liftedItems start as ++ liftedItems (start + as.length) bs := by
  rw [liftedItems, List.zipIdx_append, List.flatMap_append]
  rfl

theorem liftedItems_singleton (start c : Nat) :
    liftedItems start [c] = [.link c, .link start] := rfl

/-! ### Names -/

/-- A container that has a name for what is nested in it. -/
def Graph.OuterNamed (h : Graph) (r : Nat) : Prop :=
  ∃ v, h.field? (.link r) "name" = some v ∧
    (h.origin = .unit → v.isTrue = true ∨ ∃ w, h.field? (.link r) "typedef_name" = some w)

theorem gives_outerName (hr : s.graph.OuterNamed r) : ∃ v, Gives (outerName (.link r)) s v s := by
  obtain ⟨v, hv, hUnit⟩ := hr
  cases ho : s.graph.origin with
  | dump =>
    refine ⟨v, Gives.bind (gives_field hv) (Gives.bind gives_origin ?_)⟩
    rw [ho]
    exact .pure v s
  | unit =>
    by_cases ht : v.isTrue = true
    · refine ⟨v, Gives.bind (gives_field hv) (Gives.bind gives_origin ?_)⟩
      simp only [ho, ht, if_true]
      exact .pure v s
    · obtain ⟨w, hw⟩ := (hUnit ho).resolve_left ht
      refine ⟨w, Gives.bind (gives_field hv) (Gives.bind gives_origin ?_)⟩
      simp only [ho, ht]
      exact gives_field hw

/-! ### Containers without nested ones -/

theorem gives_nestedIn
    (hm : s.graph.field? (.link r) "members" = some (.list ms)) :
    Gives (nestedIn (.link r)) s ((s.graph.placesIn ms.zipIdx).map fun (i, c) => (i, .link c))
        s := by
  rw [← placesIn_eq]
  exact Gives.get (Gives.bind (gives_fieldItems hm) (.pure _ s))

theorem gives_flattenContainer_of_flat {v : Value}
    (hm : s.graph.field? (.link r) "members" = some (.list ms))
    (hFlat : ∀ m ∈ ms, s.graph.isContainer m = false)
    (hContext : s.graph.field? (.link r) "context" = some v) (hNamed : s.graph.OuterNamed r) :
    Gives (flattenContainer (n + 1) (.link r)) s [.link r] s := by
  obtain ⟨outer, hOuter⟩ := gives_outerName hNamed
  have hNone : s.graph.placesIn ms.zipIdx = [] := by
    rw [placesIn, List.filterMap_eq_nil_iff]
    rintro ⟨m, i⟩ hmi
    have hmem : m ∈ ms := List.fst_mem_of_mem_zipIdx hmi
    simp [containerId?_of_not (hFlat m hmem)]
  have hNested := gives_nestedIn hm
  rw [hNone, List.map_nil] at hNested
  refine Gives.bind (gives_field hContext) (Gives.bind hOuter (Gives.bind hNested ?_))
  exact Gives.bind (gives_mapM_nil.2 ⟨rfl, rfl⟩) (Gives.bind (.pure () s) (.pure _ s))

/-! ### Lifting -/

theorem gives_lift (inner : Value → Work (List Value)) (outer context : Value) (i : Nat) {c : Nat}
    {v : Value} (hv : s.graph.field? (.link c) "name" = some v) {t k : String}
    (ht : t = "__" ++ outer.display s.graph.display ++ "_" ++ v.display s.graph.display)
    {before : List Value} {h : Graph} (hInner : Gives (inner (.link c))
      { s with graph := (s.graph.setField c "name" (.text t)).setField c "context" context }
      before { s with graph := h, console := k }) :
    Gives (lift inner outer context i (.link c)) s
      (before ++ [.link h.entries.size], .of i c h.entries.size)
      { s with graph := (h.add (typedefEntry (t ++ "_t") (.link c) context)).2, console := k } := by
  subst ht
  refine Gives.bind (gives_shown outer) (Gives.bind (gives_field hv) ?_)
  refine Gives.bind (gives_shown v) (Gives.bind (gives_setField c "name" _) ?_)
  refine Gives.bind (gives_setField c "context" _) (Gives.bind hInner ?_)
  exact Gives.bind (gives_make (make?_typedef _ _ _ _)) (.pure _ _)

variable {g : Graph} {tops : List Value}

/-- What flattening a container does to a partly flattened graph: it lifts what is under it. -/
def FlattensUnder (g : Graph) (tops : List Value) (n r : Nat) : Prop :=
  ∀ (flat lifted renamed : List Nat) (s : Session), Partly g flat lifted renamed s.graph →
    (∀ p ∈ flat, Reached g tops p ∧ g.isContainer (.link p) = true) →
    (∀ x, g.Below r x → x ∉ flat) → s.graph.OuterNamed r →
    ∃ h k renamed', Gives (flattenContainer n (.link r)) s
        (liftedItems (g.entries.size + lifted.length) (g.under r) ++ [.link r])
        { s with graph := h, console := k } ∧
      Partly g (flat ++ (g.under r ++ [r])) (lifted ++ g.under r) renamed' h ∧
      ∀ id ∈ renamed', id ∈ renamed ∨ id ∈ g.under r

/-- What flattening a container does to the names: all that is under it is lifted. -/
def NamesUnder (g : Graph) (tops : List Value) (n r : Nat) : Prop :=
  ∀ (flat lifted renamed : List Nat) (s s' : Session) (items : List Value) (path : List String),
    Partly g flat lifted renamed s.graph →
    (∀ p ∈ flat, Reached g tops p ∧ g.isContainer (.link p) = true) →
    (∀ x, g.Below r x → x ∉ flat) → (∀ x ∈ g.under r, x ∉ renamed) → g.Spelled tops r path →
    mangle path ≠ "" → s.graph.field? (.link r) "name" = some (.text (mangle path)) →
    Gives (flattenContainer n (.link r)) s items s' →
    NamesLifted g tops s.graph (g.under r) s'.graph

/-- What lifting the containers `cs` with their positions has given, when `lifted` had been lifted
before: `qs` are the positions and containers with the typedefs made for them. -/
structure LiftedAs (g : Graph) (lifted : List Nat) (cs : List (Nat × Nat))
    (ls : List (List Value × Lifted)) (qs : List (Nat × Nat × Nat)) : Prop where
  items : ls.flatMap (·.1) =
    liftedItems (g.entries.size + lifted.length) (g.underAll (cs.map (·.2)))
  lifted_eq : ls.map (·.2) = qs.map fun q => .of q.1 q.2.1 q.2.2
  places : qs.map (fun q => (q.1, q.2.1)) = cs
  typedefs : ∀ q ∈ qs, ∃ k, (lifted ++ g.underAll (cs.map (·.2)))[k]? = some q.2.1 ∧
    q.2.2 = g.entries.size + k

theorem LiftedAs.cons {lifted : List Nat} {i c : Nat} {cs : List (Nat × Nat)}
    {ls : List (List Value × Lifted)} {qs : List (Nat × Nat × Nat)}
    (h : LiftedAs g (lifted ++ (g.under c ++ [c])) cs ls qs) :
    LiftedAs g lifted ((i, c) :: cs)
      ((liftedItems (g.entries.size + lifted.length) (g.under c) ++ [.link c] ++
          [.link (g.entries.size + (lifted ++ g.under c).length)],
        .of i c (g.entries.size + (lifted ++ g.under c).length)) :: ls)
      ((i, c, g.entries.size + (lifted ++ g.under c).length) :: qs) := by
  have hAll :
    g.underAll (((i, c) :: cs).map (·.2)) = g.under c ++ [c] ++ g.underAll (cs.map (·.2)) := rfl
  refine ⟨?_, ?_, ?_, ?_⟩
  · rw [hAll, List.flatMap_cons, h.items, liftedItems_append, liftedItems_append,
      liftedItems_singleton]
    simp only [List.length_append, List.length_singleton, List.append_assoc, Nat.add_assoc,
      List.cons_append, List.nil_append]
  · rw [List.map_cons, h.lifted_eq, List.map_cons]
  · rw [List.map_cons, h.places]
  · intro q hq
    rw [hAll, ← List.append_assoc]
    rcases List.mem_cons.1 hq with rfl | hq
    · refine ⟨(lifted ++ g.under c).length, ?_, rfl⟩
      rw [← List.append_assoc, List.append_assoc]
      simp
    · exact h.typedefs q hq

theorem gives_liftAll (hf : Forest g tops) (hr : Reached g tops r)
    (hInner : ∀ c, g.Nested r c → FlattensUnder g tops n c ∧
    (NamedForest g tops → NamesUnder g tops n c))
    (outer context : Value)
    (cs : List (Nat × Nat)) (hcs : ∀ q ∈ cs, g.Nested r q.2) (hNodup : (cs.map (·.2)).Nodup)
    (hp : Partly g flat lifted renamed s.graph)
    (hFlat : ∀ p ∈ flat, Reached g tops p ∧ g.isContainer (.link p) = true)
    (hApart : ∀ q ∈ cs, ∀ x, g.Below q.2 x → x ∉ flat) :
    ∃ h k renamed' ls qs, Gives ((cs.map fun (i, c) => (i, Value.link c)).mapM fun (i, nested) =>
          lift (flattenContainer n) outer context i nested) s ls
        { s with graph := h, console := k } ∧
      LiftedAs g lifted cs ls qs ∧
      Partly g (flat ++ g.underAll (cs.map (·.2))) (lifted ++ g.underAll (cs.map (·.2))) renamed'
        h ∧
      (∀ id ∈ renamed', id ∈ renamed ∨ id ∈ g.underAll (cs.map (·.2))) ∧
      (NamedForest g tops → (∀ q ∈ cs, ∀ x, g.Below q.2 x → x ∉ renamed) → ∀ path,
        g.Spelled tops r path → outer = .text (mangle path) →
        NamesLifted g tops s.graph (g.underAll (cs.map (·.2))) h) := by
  induction cs generalizing flat lifted renamed s with
  | nil =>
    refine ⟨s.graph, s.console, renamed, [], [], gives_mapM_nil.2 ⟨rfl, rfl⟩,
      ⟨rfl, rfl, rfl, by simp⟩, ?_, fun id hid => .inl hid, fun _ _ _ _ _ => .refl g tops _⟩
    simpa [underAll] using hp
  | cons q cs ih =>
    obtain ⟨i, c⟩ := q
    have hrc : g.Nested r c := hcs (i, c) (by simp)
    have hc : Reached g tops c := .member hr hrc
    have hcSize := hf.valid c hc
    obtain ⟨hcNot, hNodup⟩ := List.nodup_cons.1 hNodup
    obtain ⟨_, hOwn⟩ := hf.name c hc hrc.isContainer
    obtain ⟨v, hv⟩ := hp.field_isSome hOwn
    obtain ⟨t, ht⟩ : ∃ t, t = "__" ++ outer.display s.graph.display ++ "_" ++
      v.display s.graph.display := ⟨_, rfl⟩
    have hp₁ := hp.rename hcSize (t := t) (by simp [ht]) context
    obtain ⟨t', ht', hne⟩ := hp₁.name c (by simp)
    obtain ⟨h₁, k₁, renamed₁, hGives₁, hp₁', hRenamed₁⟩ := (hInner c hrc).1 flat lifted
      (c :: renamed) { s with graph := _ } hp₁ hFlat (hApart (i, c) (by simp))
      ⟨_, ht', fun _ => .inl (by simpa [Value.isTrue] using hne)⟩
    have hLifted := gives_lift (flattenContainer n) outer context i hv ht hGives₁
    have hp₂ := hp₁'.lift c (e := typedefEntry (t ++ "_t") (.link c) context) rfl rfl rfl
    rw [List.append_assoc] at hp₂
    have hFlat₂ : ∀ p ∈ flat ++ (g.under c ++ [c]),
        Reached g tops p ∧ g.isContainer (.link p) = true := by
      intro p hp
      rcases List.mem_append.1 hp with hp | hp
      · exact hFlat p hp
      · exact hf.reached_of_mem_tree hc hrc.isContainer hp
    have hSiblings : ∀ q ∈ cs, ∀ x, g.Below q.2 x → x ∉ g.under c ++ [c] := by
      intro q hq x hx hmem
      rw [hf.mem_tree hc hrc.isContainer] at hmem
      have hne : c ≠ q.2 := by
        rintro rfl
        exact hcNot (List.mem_map.2 ⟨q, hq, rfl⟩)
      exact hf.siblings_apart hr hrc (hcs q (by simp [hq])) hne hmem hx
    have hApart₂ : ∀ q ∈ cs, ∀ x, g.Below q.2 x → x ∉ flat ++ (g.under c ++ [c]) := by
      intro q hq x hx hmem
      exact (List.mem_append.1 hmem).elim (hApart q (by simp [hq]) x hx) (hSiblings q hq x hx)
    obtain ⟨h₂, k₂, renamed₂, ls, qs, hGives₂, hls, hp₂', hRenamed₂, hNames₂⟩ :=
      ih (s := { s with graph := _, console := k₁ }) (fun q hq => hcs q (by simp [hq])) hNodup hp₂
        hFlat₂ hApart₂
    have hAll : g.underAll (((i, c) :: cs).map (·.2)) =
        g.under c ++ [c] ++ g.underAll (cs.map (·.2)) := rfl
    rw [hp₁'.size] at hLifted
    have hRenamed : ∀ id ∈ renamed₁, id ∈ renamed ∨ id ∈ g.under c ++ [c] := by
      intro id hid
      rcases hRenamed₁ id hid with hid | hid
      · rcases List.mem_cons.1 hid with rfl | hid
        · simp
        · exact .inl hid
      · simp [hid]
    refine ⟨h₂, k₂, renamed₂, _, _, gives_mapM_cons.2 ⟨_, _, _, hLifted, hGives₂, rfl⟩, hls.cons,
      ?_, ?_, ?_⟩
    · simpa only [hAll, List.append_assoc] using hp₂'
    · intro id hid
      rw [hAll, List.mem_append]
      rcases hRenamed₂ id hid with hid | hid
      · exact (hRenamed id hid).imp_right .inl
      · exact .inr (.inr hid)
    · intro hNamed hFresh path hPath hOuter
      obtain ⟨name, hName⟩ := hNamed.texts c hc
      have hcFresh := hFresh (i, c) (by simp)
      have hcUnder := hf.not_mem_under_self hc hrc.isContainer
      have hTreeBelow : ∀ x ∈ g.under c ++ [c], g.Below c x := fun x hx =>
        (hf.mem_tree hc hrc.isContainer).1 hx
      have hPath' := hPath.nested hrc hName
      obtain rfl : v = .text name :=
        Option.some.inj
          (hv.symm.trans ((hp.old c hcSize (hcFresh c .refl) _ (.inl rfl)).trans hName))
      rw [hOuter] at ht
      have hMangle : t = mangle (path ++ [name]) := ht.trans (mangle_concat hPath.ne_nil name).symm
      subst hMangle
      have hNe : mangle (path ++ [name]) ≠ "" := by
        rw [mangle_concat hPath.ne_nil]
        simp
      have hOwnName :
          ((s.graph.setField c "name" (.text (mangle (path ++ [name])))).setField c "context"
          context).field? (.link c) "name" = some (.text (mangle (path ++ [name]))) := by
        rw [field?_setField _ (by simpa using hp.lt_size hcSize), if_neg (by simp),
          field?_setField _ (hp.lt_size hcSize), if_pos ⟨rfl, rfl⟩]
      have hInside := (hInner c hrc).2 hNamed _ _ _ _ _ _ _ hp₁ hFlat (hApart (i, c) (by simp))
        (fun x hx => by
          rw [List.mem_cons, not_or]
          exact ⟨fun e => hcUnder (e ▸ hx), hcFresh x (hTreeBelow x (by simp [hx]))⟩)
        hPath' hNe hOwnName hGives₁
      have hFirst := hInside.lift (e := typedefEntry (mangle (path ++ [name]) ++ "_t") (.link c)
        context) hPath' (hp.lt_size hcSize) hcUnder rfl
      have hOthers := hNames₂ hNamed (fun q hq x hx hmem => (hRenamed x hmem).elim
        (hFresh q (by simp [hq]) x hx) (hSiblings q hq x hx)) path hPath hOuter
      have hBelow : ∀ x ∈ g.underAll (cs.map (·.2)), ∃ q ∈ cs, g.Below q.2 x := by
        intro x hx
        obtain ⟨d, hd, hx⟩ := List.mem_flatMap.1 hx
        obtain ⟨q, hq, rfl⟩ := List.mem_map.1 hd
        have hrq := hcs q (by simp [hq])
        exact ⟨q, hq, (hf.mem_tree (.member hr hrq) hrq.isContainer).1 hx⟩
      rw [hAll]
      refine hFirst.trans hOthers (fun x hx => hp.lt_size ?_) fun x hx hmem => ?_
      · obtain hx | hx := List.mem_append.1 hx
        · exact hf.valid x ((hTreeBelow x hx).reached hc)
        · obtain ⟨q, hq, hqx⟩ := hBelow x hx
          exact hf.valid x (hqx.reached (.member hr (hcs q (by simp [hq]))))
      · obtain ⟨q, hq, hqx⟩ := hBelow x hmem
        exact hSiblings q hq x hqx hx

/-! ### Taking the lifted containers out -/

theorem eraseIdx_places
    (hqs : qs.map (fun q => (q.1, q.2.1)) = g.placesIn ms.zipIdx) :
    qs.reverse.foldl (fun ms q => ms.eraseIdx q.1) ms = ms.filter fun m => !g.isContainer m := by
  have hPos : qs.map (·.1) = (ms.zipIdx.filter fun x => g.isContainer x.1).map (·.2) := by
    have h1 : qs.map (·.1) = (g.placesIn ms.zipIdx).map (·.1) := by
      rw [← hqs, List.map_map]
      rfl
    have h2 := congrArg (List.map (·.1)) (placesIn_eq g ms.zipIdx)
    rw [List.map_map, List.map_map] at h2
    exact h1.trans h2.symm
  have hFold := foldr_eraseIdx_positions g.isContainer ms
  rw [← hPos, List.foldr_map] at hFold
  rw [List.foldl_reverse, hFold]

theorem gives_detachNested (hf : Forest g tops) (hr : Reached g tops r)
    (hc : g.isContainer (.link r) = true)
    (hqs : qs.map (fun q => (q.1, q.2.1)) = g.placesIn (g.membersOf r).zipIdx)
    (hp : Partly g flat lifted renamed s.graph)
    (hFlat : ∀ p ∈ flat, Reached g tops p ∧ g.isContainer (.link p) = true) (hrFlat : r ∉ flat)
    (hTypedefs : ∀ q ∈ qs, ∃ k, lifted[k]? = some q.2.1 ∧ q.2.2 = g.entries.size + k) :
    ∃ h k, Gives ((qs.map fun q => Lifted.of q.1 q.2.1 q.2.2).reverse.forM (detach (.link r))) s ()
        { s with graph := h, console := k } ∧
      Partly g (flat ++ [r]) lifted renamed h ∧ s.graph.SameNames h := by
  obtain ⟨ms, hms⟩ := hf.members r hr hc
  have hMembers : g.membersOf r = ms := by simp [membersOf, hms]
  rw [hMembers] at hqs
  have hq : ∀ q ∈ qs.reverse, ms[q.1]? = some (.link q.2.1) ∧ g.Nested r q.2.1 := by
    intro q hq
    have hmem : (q.1, q.2.1) ∈ g.placesIn ms.zipIdx := by
      rw [← hqs]
      exact List.mem_map.2 ⟨q, List.mem_reverse.1 hq, rfl⟩
    obtain ⟨hi, hqc⟩ := mem_placesIn hmem
    refine ⟨hi, hc, mem_nestedIds.2 ⟨?_, hqc⟩⟩
    rw [hMembers]
    exact List.mem_of_getElem? hi
  have hDown : qs.reverse.Pairwise fun a b => b.1 < a.1 := by
    have hUp := pairwise_placesIn g ms
    rw [← hqs, List.pairwise_map] at hUp
    exact List.pairwise_reverse.2 hUp
  have hIds : (qs.reverse.map (·.2)).map (·.1) = (g.nestedIds r).reverse := by
    rw [nestedIds, hMembers, ← placesIn_snd g ms 0, ← hqs, List.map_reverse, List.map_reverse,
      List.map_map, List.map_map]
    rfl
  obtain ⟨h, k, hGives, hd⟩ := gives_detachAll (r := r) qs.reverse hDown (fun q hq' => by
      obtain ⟨k, -, hk⟩ := hTypedefs q (List.mem_reverse.1 hq')
      have := hf.valid _ (.member hr (hq q hq').2)
      omega)
    ((hp.members_old r (hf.valid r hr) hrFlat).trans hms)
    (fun q hq' => (hq q hq').1)
    (fun q hq' => hasForm_of_isContainer _ ((hp.isContainer_eq _).trans (hq q hq').2.isContainer)
      rfl)
    (fun q hq' => by
      have hrq := (hq q hq').2
      obtain ⟨v, hv⟩ := hf.name q.2.1 (.member hr hrq) hrq.isContainer
      exact hp.field_isSome hv)
    (fun f hfm hform => by
      obtain ⟨v, hv⟩ := hf.typ r f hr hc (by rwa [hMembers]) ((hp.hasField_eq _).symm.trans hform)
      exact hp.field_isSome hv)
  rw [eraseIdx_places hqs] at hd
  refine ⟨h, k, by rwa [← List.map_reverse], hp.detach hrFlat ?_ ?_ ?_ ?_ ?_
    (by rw [plainMembers, hMembers]; exact hd), hd.sameNames⟩
  · -- a container that is nested in both would make the two the same
    intro p hpf c hcr hcp
    obtain ⟨hpr, hpc⟩ := hFlat p hpf
    obtain rfl := hf.unique p r c hpr hr ⟨hpc, hcp⟩ ⟨hc, hcr⟩
    exact hrFlat hpf
  · intro ct hct
    obtain ⟨q, hq', rfl⟩ := List.mem_map.1 hct
    exact hTypedefs q (List.mem_reverse.1 hq')
  · intro c
    rw [hIds, List.mem_reverse]
  · rw [hIds]
    exact List.pairwise_reverse.2 ((hf.once r hr hc).imp Ne.symm)
  · exact fun c hcr => hf.valid c (.member hr ⟨hc, hcr⟩)

theorem gives_outerName_of_text {name : String} (hNe : name ≠ "")
    (h : s.graph.field? (.link r) "name" = some (.text name)) :
    Gives (outerName (.link r)) s (.text name) s := by
  refine Gives.bind (gives_field h) (Gives.bind gives_origin ?_)
  split
  · exact .pure _ s
  · have hTrue : (Value.text name).isTrue = true := by simpa [Value.isTrue] using hNe
    rw [if_pos hTrue]
    exact .pure _ s

/-- **What is nested in a container is lifted and then detached from it.** -/
theorem gives_flattenContainer (hf : Forest g tops) (hr : Reached g tops r)
    (hc : g.isContainer (.link r) = true) (hInner : ∀ c, g.Nested r c →
      FlattensUnder g tops n c ∧ (NamedForest g tops → NamesUnder g tops n c))
    {flat lifted renamed : List Nat} (hp : Partly g flat lifted renamed s.graph)
    (hFlat : ∀ p ∈ flat, Reached g tops p ∧ g.isContainer (.link p) = true)
    (hApart : ∀ x, g.Below r x → x ∉ flat) (hOuterNamed : s.graph.OuterNamed r) :
    ∃ h k renamed', Gives (flattenContainer (n + 1) (.link r)) s
        (liftedItems (g.entries.size + lifted.length) (g.under r) ++ [.link r])
        { s with graph := h, console := k } ∧
      Partly g (flat ++ (g.under r ++ [r])) (lifted ++ g.under r) renamed' h ∧
      (∀ id ∈ renamed', id ∈ renamed ∨ id ∈ g.under r) ∧
      (NamedForest g tops → (∀ x ∈ g.under r, x ∉ renamed) → ∀ path, g.Spelled tops r path →
        mangle path ≠ "" → s.graph.field? (.link r) "name" = some (.text (mangle path)) →
        NamesLifted g tops s.graph (g.under r) h) := by
  have hrFlat : r ∉ flat := hApart r .refl
  obtain ⟨ms, hms⟩ := hf.members r hr hc
  have hMembers : g.membersOf r = ms := by simp [membersOf, hms]
  have hm : s.graph.field? (.link r) "members" = some (.list ms) :=
    (hp.members_old r (hf.valid r hr) hrFlat).trans hms
  obtain ⟨v, hv⟩ := hf.context r hr hc
  obtain ⟨context, hContext⟩ := hp.field_isSome hv
  obtain ⟨outer, hOuter⟩ := gives_outerName hOuterNamed
  have hNested := gives_nestedIn hm
  rw [hp.placesIn_eq, ← hMembers] at hNested
  have hIds : (g.placesIn (g.membersOf r).zipIdx).map (·.2) = g.nestedIds r :=
    placesIn_snd g _ 0
  have hcs : ∀ q ∈ g.placesIn (g.membersOf r).zipIdx, g.Nested r q.2 := fun q hq => by
    refine ⟨hc, ?_⟩
    rw [← hIds]
    exact List.mem_map.2 ⟨q, hq, rfl⟩
  obtain ⟨h₁, k₁, renamed₁, ls, qs, hGives₁, hls, hp₁, hRenamed₁, hNames⟩ :=
    gives_liftAll hf hr hInner outer context _ hcs (by rw [hIds]; exact hf.once r hr hc) hp hFlat
      (fun q hq x hx => hApart x (Graph.Below.trans (.step .refl (hcs q hq)) hx))
  have hTypedefs := hls.typedefs
  have hItems := hls.items
  rw [hIds, ← hf.under_eq hr hc] at hp₁ hRenamed₁ hTypedefs hItems hNames
  have hFlat₁ : ∀ p ∈ flat ++ g.under r, Reached g tops p ∧ g.isContainer (.link p) = true := by
    intro p hpf
    rcases List.mem_append.1 hpf with hpf | hpf
    · exact hFlat p hpf
    · exact hf.reached_of_mem_tree hr hc (List.mem_append.2 (.inl hpf))
  have hrFlat₁ : r ∉ flat ++ g.under r := by
    rw [List.mem_append, not_or]
    exact ⟨hrFlat, hf.not_mem_under_self hr hc⟩
  obtain ⟨h₂, k₂, hGives₂, hp₂, hSame⟩ := gives_detachNested hf hr hc hls.places
    (s := { s with graph := h₁, console := k₁ }) hp₁ hFlat₁ hrFlat₁ hTypedefs
  rw [List.append_assoc] at hp₂
  refine ⟨h₂, k₂, renamed₁, ?_, hp₂, hRenamed₁, fun hNamed hFresh path hPath hNe hName => ?_⟩
  · refine Gives.bind (gives_field hContext) (Gives.bind hOuter (Gives.bind hNested ?_))
    refine Gives.bind hGives₁ ?_
    rw [hls.lifted_eq, hItems]
    exact Gives.bind hGives₂ (.pure _ _)
  · refine (hNames hNamed (fun q hq x hx => hFresh x ?_) path hPath
      (hOuter.unique (gives_outerName_of_text hNe hName)).1).same hSame
    exact (hf.mem_under hr hc).2 ⟨q.2, hcs q hq, hx⟩

/-- **A container is flattened with all that is under it.** The depth of the recursion only has to
be as large as its level. -/
theorem flattensUnder (hf : Forest g tops) {level : Nat → Nat}
    (hpos : ∀ id, Reached g tops id → 0 < level id)
    (hl : ∀ p c, Reached g tops p → g.Nested p c → level c < level p) (n r : Nat)
    (hr : Reached g tops r) (hc : g.isContainer (.link r) = true) (hn : level r ≤ n) :
    FlattensUnder g tops n r ∧ (NamedForest g tops → NamesUnder g tops n r) := by
  induction n generalizing r with
  | zero =>
    have := hpos r hr
    omega
  | succ n ih =>
    have hInner := fun c hrc => ih c (.member hr hrc) hrc.isContainer (by
      have := hl r c hr hrc
      omega)
    refine ⟨fun flat lifted renamed s hp hFlat hApart hOuterNamed => ?_, fun hNamed => ?_⟩
    · obtain ⟨h, k, renamed', hGives, hp', hRenamed, -⟩ :=
        gives_flattenContainer hf hr hc hInner hp hFlat hApart hOuterNamed
      exact ⟨h, k, renamed', hGives, hp', hRenamed⟩
    · intro flat lifted renamed s s' items path hp hFlat hApart hFresh hPath hNe hName hGives
      obtain ⟨h, k, -, hGives', -, -, hNames⟩ := gives_flattenContainer hf hr hc hInner hp hFlat
        hApart ⟨_, hName, fun _ => .inl (by simpa [Value.isTrue] using hNe)⟩
      obtain ⟨-, rfl⟩ := hGives.unique hGives'
      exact hNames hNamed hFresh path hPath hNe hName

end PxdGen.Decl
