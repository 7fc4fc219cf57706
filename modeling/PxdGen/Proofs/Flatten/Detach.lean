import PxdGen.Decl.Flatten
import PxdGen.Proofs.Decl.Graph
/-! # Taking lifted containers out

Lifted containers are taken out of the members from the last one to the first, so that the positions
of the others stay what they were. After each, the fields that have the container as their type get
its typedef instead.
-/

namespace PxdGen.Decl

open Work

variable {v : Option Value} {c t i r : Nat} {cts : List (Nat × Nat)} {s : Session} {w : Value}
  {ms : List Value}

/-! ### Types of fields -/

/-- The type of a field after a container has got a typedef: `ct` is the container with it. -/
def retype (v : Option Value) (ct : Nat × Nat) : Option Value :=
  match v with
  | some (.link c) => if c = ct.1 then some (.link ct.2) else v
  | _ => v

theorem retype_self (c t : Nat) : retype (some (.link c)) (c, t) = some (.link t) := by
  simp [retype]

theorem retype_of_ne (h : v ≠ some (.link c)) : retype v (c, t) = v := by
  match v with
  | some (.link c') =>
    have : c' ≠ c := by
      rintro rfl
      exact h rfl
    simp [retype, this]
  | none => rfl
  | some .nothing | some (.flag _) | some (.int _) | some (.float _) | some (.text _)
  | some (.list _) | some (.tuple _) | some (.record _) | some (.node _ _) | some (.ofKind _) => rfl

theorem retype_retype (h : t ≠ c) : retype (retype v (c, t)) (c, t) = retype v (c, t) := by
  by_cases hv : v = some (.link c)
  · subst hv
    rw [retype_self]
    exact retype_of_ne (by simpa using h)
  · rw [retype_of_ne hv, retype_of_ne hv]

theorem same_link {v : Value} : v.same (.link c) = true ↔ v = .link c := by
  cases v <;> simp [Value.same]

theorem foldl_retype_of_not_mem (h : ∀ ct ∈ cts, v ≠ some (.link ct.1)) :
    cts.foldl retype v = v := by
  induction cts with
  | nil => rfl
  | cons ct cts ih =>
    rw [List.foldl_cons, retype_of_ne (c := ct.1) (t := ct.2) (h ct (by simp))]
    exact ih fun ct' h' => h ct' (by simp [h'])

theorem foldl_retype_of_mem (hct : (c, t) ∈ cts)
    (hNodup : (cts.map (·.1)).Nodup) (hNew : ∀ ct ∈ cts, ct.1 ≠ t) :
    cts.foldl retype (some (.link c)) = some (.link t) := by
  induction cts with
  | nil => cases hct
  | cons ct cts ih =>
    obtain ⟨c', t'⟩ := ct
    obtain ⟨hFirst, hNodup⟩ := List.nodup_cons.1 hNodup
    have hRest : ∀ ct ∈ cts, ct.1 ≠ t := fun ct h => hNew ct (by simp [h])
    rw [List.foldl_cons]
    rcases List.mem_cons.1 hct with e | hmem
    · obtain ⟨rfl, rfl⟩ := Prod.mk.inj e
      rw [retype_self]
      exact foldl_retype_of_not_mem fun ct h => by simpa using (hRest ct h).symm
    · have hne : c ≠ c' := by
        rintro rfl
        exact hFirst (List.mem_map.2 ⟨_, hmem, rfl⟩)
      rw [retype_of_ne (by simpa using hne)]
      exact ih hmem hNodup hRest

/-- What has changed from `h` to `h'` when the fields among `vs` have been given new types. -/
structure Retyped (h : Graph) (vs : List Value) (cts : List (Nat × Nat)) (h' : Graph) : Prop where
  origin : h'.origin = h.origin
  size : h'.entries.size = h.entries.size
  form : ∀ v, h'.form? v = h.form? v
  typ : ∀ f, .link f ∈ vs → h.hasForm (.link f) .field = true →
    h'.field? (.link f) "typ" = cts.foldl retype (h.field? (.link f) "typ")
  other : ∀ id name, (name = "typ" → .link id ∈ vs → h.hasForm (.link id) .field = false) →
    h'.field? (.link id) name = h.field? (.link id) name

variable {h h' : Graph} {vs ms' : List Value}

theorem Retyped.hasForm {cts : List (Nat × Nat)} (hr : Retyped h vs cts h') (v : Value)
    (form : Form) : h'.hasForm v form = h.hasForm v form := by
  rw [Graph.hasForm, hr.form, Graph.hasForm]

/-- One member of a container gets a new type, if it is a field of the old one. -/
def retypeMember (container typedef member : Value) : Work Unit := do
  if ← hasForm member .field then
    if (← field member "typ").same container then setField member "typ" typedef

theorem gives_retypeMember {v : Value} (htyp : ∀ f, v = .link f → s.graph.hasForm v .field = true →
      ∃ w, s.graph.field? v "typ" = some w) :
    ∃ h, Gives (retypeMember (.link c) (.link t) v) s () { s with graph := h } ∧
      Retyped s.graph [v] [(c, t)] h := by
  by_cases hv : s.graph.hasForm v .field = true
  · cases v with
    | link f =>
      obtain ⟨w, hw⟩ := htyp f rfl hv
      have hf := Graph.lt_size_of_field? _ hw
      by_cases hs : w = .link c
      · subst hs
        refine ⟨s.graph.setField f "typ" (.link t), ?_, ?_⟩
        · refine Gives.bind (gives_hasForm _ _) ?_
          rw [if_pos hv]
          refine Gives.bind (gives_field hw) ?_
          rw [if_pos (same_link.2 rfl)]
          exact gives_setField f "typ" _
        · refine ⟨rfl, by simp, fun v => by simp, ?_, ?_⟩
          · intro f' hf' _
            obtain rfl : f' = f := by simpa using hf'
            rw [Graph.field?_setField _ hf, if_pos ⟨rfl, rfl⟩, hw]
            exact (retype_self c t).symm
          · intro id name hne
            rw [Graph.field?_setField _ hf, if_neg]
            rintro ⟨rfl, rfl⟩
            rw [hne rfl (by simp)] at hv
            cases hv
      · refine ⟨s.graph, ?_, ?_⟩
        · refine Gives.bind (gives_hasForm _ _) ?_
          rw [if_pos hv]
          refine Gives.bind (gives_field hw) ?_
          rw [if_neg fun e => hs (same_link.1 e)]
          exact .pure () s
        · refine ⟨rfl, rfl, fun _ => rfl, ?_, fun _ _ _ => rfl⟩
          intro f' hf' _
          obtain rfl : f' = f := by simpa using hf'
          exact (retype_of_ne (by simpa [hw] using hs)).symm
    | _ => simp [Graph.hasForm, Graph.form?] at hv
  · refine ⟨s.graph, ?_, ?_⟩
    · refine Gives.bind (gives_hasForm _ _) ?_
      rw [if_neg hv]
      exact .pure () s
    · refine ⟨rfl, rfl, fun _ => rfl, ?_, fun _ _ _ => rfl⟩
      intro f hf hform
      obtain rfl := List.mem_singleton.1 hf
      exact absurd hform hv

theorem gives_retypeMembers (hct : t ≠ c) (vs : List Value)
    (htyp : ∀ f, .link f ∈ vs → s.graph.hasForm (.link f) .field = true →
      ∃ w, s.graph.field? (.link f) "typ" = some w) :
    ∃ h, Gives (vs.forM (retypeMember (.link c) (.link t))) s () { s with graph := h } ∧
      Retyped s.graph vs [(c, t)] h := by
  induction vs generalizing s with
  | nil =>
    exact ⟨s.graph, gives_forM_nil.2 rfl,
      ⟨rfl, rfl, fun _ => rfl, fun _ hf => absurd hf (by simp), fun _ _ _ => rfl⟩⟩
  | cons v vs ih =>
    obtain ⟨h₁, hv, hr₁⟩ := gives_retypeMember (c := c) (t := t) (v := v) (s := s)
      fun f hf => by subst hf; exact htyp f (by simp)
    have htyp₁ : ∀ f, .link f ∈ vs → h₁.hasForm (.link f) .field = true →
        ∃ w, h₁.field? (.link f) "typ" = some w := by
      intro f hf hform
      rw [hr₁.hasForm] at hform
      obtain ⟨w, hw⟩ := htyp f (by simp [hf]) hform
      by_cases hfv : .link f ∈ [v]
      · rw [hr₁.typ f hfv hform, hw]
        by_cases hwc : some w = some (.link c)
        · exact ⟨.link t, by rw [hwc]; exact retype_self c t⟩
        · exact ⟨w, retype_of_ne hwc⟩
      · exact ⟨w, by rw [hr₁.other f "typ" fun _ hm => absurd hm hfv, hw]⟩
    obtain ⟨h₂, hvs, hr₂⟩ := ih (s := { s with graph := h₁ }) htyp₁
    refine ⟨h₂, gives_forM_cons.2 ⟨_, hv, hvs⟩, ?_⟩
    refine ⟨hr₂.origin.trans hr₁.origin, hr₂.size.trans hr₁.size,
      fun v => (hr₂.form v).trans (hr₁.form v), ?_, ?_⟩
    · intro f hf hform
      have hform₁ : h₁.hasForm (.link f) .field = true := by rw [hr₁.hasForm]; exact hform
      -- a field may stand in the list more than once, but it gets its type only once
      have hStep : h₁.field? (.link f) "typ" = s.graph.field? (.link f) "typ" ∨
          h₁.field? (.link f) "typ" = retype (s.graph.field? (.link f) "typ") (c, t) := by
        by_cases hfv : .link f ∈ [v]
        · exact .inr (hr₁.typ f hfv hform)
        · exact .inl (hr₁.other f "typ" fun _ hm => absurd hm hfv)
      by_cases hfvs : .link f ∈ vs
      · rw [hr₂.typ f hfvs hform₁]
        rcases hStep with e | e
        · show ([(c, t)].foldl retype (h₁.field? (.link f) "typ")) = _
          rw [e]
        · show retype (h₁.field? (.link f) "typ") (c, t) = _
          rw [e]
          exact retype_retype hct
      · rw [hr₂.other f "typ" fun _ hm => absurd hm hfvs]
        have hfv : .link f ∈ [v] := by
          rcases List.mem_cons.1 hf with e | e
          · exact List.mem_singleton.2 e
          · exact absurd e hfvs
        exact hr₁.typ f hfv hform
    · intro id name hne
      have h₁' : h₁.field? (.link id) name = s.graph.field? (.link id) name :=
        hr₁.other id name fun e hm => hne e (by simpa using .inl (List.mem_singleton.1 hm))
      have h₂' : h₂.field? (.link id) name = h₁.field? (.link id) name := by
        refine hr₂.other id name fun e hm => ?_
        show h₁.hasForm _ _ = false
        rw [hr₁.hasForm]
        exact hne e (by simp [hm])
      rw [h₂', h₁']

/-! ### Members -/

/-- What has changed from `h` to `h'` when the members `ms` of a container have become `ms'` and the
fields among them have been given new types. -/
structure Detached (h : Graph) (r : Nat) (ms ms' : List Value) (cts : List (Nat × Nat))
    (h' : Graph) : Prop where
  origin : h'.origin = h.origin
  size : h'.entries.size = h.entries.size
  form : ∀ v, h'.form? v = h.form? v
  members : h'.field? (.link r) "members" = some (.list ms')
  typ : ∀ f, .link f ∈ ms → h.hasForm (.link f) .field = true →
    h'.field? (.link f) "typ" = cts.foldl retype (h.field? (.link f) "typ")
  other : ∀ id name, ¬ (id = r ∧ name = "members") →
    (name = "typ" → .link id ∈ ms → h.hasForm (.link id) .field = false) →
    h'.field? (.link id) name = h.field? (.link id) name

/-- Neither declarations nor names have been added or changed. -/
structure Graph.SameNames (g g' : Graph) : Prop where
  size : g'.entries.size = g.entries.size
  name : ∀ id, g'.field? (.link id) "name" = g.field? (.link id) "name"

theorem Detached.sameNames {r : Nat} {ms : List Value} {cts : List (Nat × Nat)}
    (hd : Detached h r ms ms' cts h') : h.SameNames h' :=
  ⟨hd.size, fun id => hd.other id "name" (by simp) (by simp)⟩

theorem Detached.hasForm {r : Nat} {ms : List Value} {cts : List (Nat × Nat)}
    (hd : Detached h r ms ms' cts h') (v : Value) (form : Form) :
    h'.hasForm v form = h.hasForm v form := by
  rw [Graph.hasForm, hd.form, Graph.hasForm]

theorem mem_eraseIdx_of_ne {v : Value} (hw : vs[i]? = some w) (hv : v ∈ vs) (hne : v ≠ w) :
    v ∈ vs.eraseIdx i := by
  obtain ⟨j, hj⟩ := List.mem_iff_getElem?.1 hv
  refine List.mem_eraseIdx_iff_getElem?.2 ⟨j, ?_, hj⟩
  rintro rfl
  exact hne (Option.some.inj (hj.symm.trans hw))

/-- A lifted container with its position and its typedef. -/
def Lifted.of (position container typedef : Nat) : Lifted :=
  ⟨position, .link container, .link typedef⟩

theorem gives_detach (hct : t ≠ c)
    (hm : s.graph.field? (.link r) "members" = some (.list ms)) (hi : ms[i]? = some (.link c))
    (hc : s.graph.hasForm (.link c) .field = false)
    (hName : ∃ v, s.graph.field? (.link c) "name" = some v)
    (htyp : ∀ f, .link f ∈ ms → s.graph.hasForm (.link f) .field = true →
      ∃ w, s.graph.field? (.link f) "typ" = some w) :
    ∃ h k, Gives (detach (.link r) (.of i c t)) s () { s with graph := h, console := k } ∧
      Detached s.graph r ms (ms.eraseIdx i) [(c, t)] h := by
  have hr := Graph.lt_size_of_field? _ hm
  obtain ⟨v, hv⟩ := hName
  let s₁ : Session :=
    { s with graph := s.graph.setField r "members" (.list (ms.eraseIdx i)) }
  have hField₁ : ∀ id name, ¬ (id = r ∧ name = "members") →
      s₁.graph.field? (.link id) name = s.graph.field? (.link id) name := by
    intro id name hne
    rw [Graph.field?_setField _ hr, if_neg hne]
  have hMembers₁ : s₁.graph.field? (.link r) "members" = some (.list (ms.eraseIdx i)) := by
    rw [Graph.field?_setField _ hr, if_pos ⟨rfl, rfl⟩]
  have hSub : ∀ {v}, v ∈ ms.eraseIdx i → v ∈ ms := fun h => List.mem_of_mem_eraseIdx h
  have hRest : ∀ k, ∃ h, Gives (do
      (← fieldItems (.link r) "members").forM (retypeMember (.link c) (.link t)) : Work Unit)
      { s₁ with console := k } () { s with graph := h, console := k } ∧
      Retyped s₁.graph (ms.eraseIdx i) [(c, t)] h := by
    intro k
    obtain ⟨h, hEach, hRetyped⟩ := gives_retypeMembers hct (ms.eraseIdx i)
      (s := { s₁ with console := k }) (by
        intro f hf hform
        show ∃ w, s₁.graph.field? (.link f) "typ" = some w
        rw [hField₁ f "typ" (by simp)]
        exact htyp f (hSub hf) (by simpa [s₁] using hform))
    exact ⟨h, Gives.bind (gives_fieldItems hMembers₁) hEach, hRetyped⟩
  -- only a unit says what it removes
  obtain ⟨h, k, hGives, hRetyped⟩ : ∃ h k,
      Gives (detach (.link r) (.of i c t)) s () { s with graph := h, console := k } ∧
      Retyped s₁.graph (ms.eraseIdx i) [(c, t)] h := by
    by_cases ho : s.graph.origin = .unit
    · let line := "removed member " ++ v.display s₁.graph.display
      have hSaid : Gives (say line) s₁ () { s₁ with console := s.console ++ (line ++ "\n") } := rfl
      obtain ⟨h, hGives, hRetyped⟩ := hRest (s.console ++ (line ++ "\n"))
      refine ⟨h, s.console ++ (line ++ "\n"), ?_, hRetyped⟩
      refine Gives.bind (gives_fieldItems hm) (Gives.bind (gives_setField r "members" _) ?_)
      refine Gives.bind gives_origin ?_
      rw [if_pos (by simpa using ho)]
      simp only [Lifted.of, hi]
      have hName₁ : s₁.graph.field? (.link c) "name" = some v :=
        (hField₁ c "name" (by simp)).trans hv
      exact Gives.bind (gives_field hName₁) (Gives.bind (gives_shown v) (Gives.bind hSaid hGives))
    · obtain ⟨h, hGives, hRetyped⟩ := hRest s.console
      refine ⟨h, s.console, ?_, hRetyped⟩
      refine Gives.bind (gives_fieldItems hm) (Gives.bind (gives_setField r "members" _) ?_)
      refine Gives.bind gives_origin ?_
      rw [if_neg (by simpa using ho)]
      exact hGives
  have hForm₁ : ∀ v form, s₁.graph.hasForm v form = s.graph.hasForm v form := fun v form => by
    simp [s₁]
  refine ⟨h, k, hGives, hRetyped.origin, hRetyped.size.trans (by simp [s₁]),
    fun v => (hRetyped.form v).trans (by simp [s₁]), ?_, ?_, ?_⟩
  · rw [hRetyped.other r "members" (by simp)]
    exact hMembers₁
  · intro f hf hform
    have hne : Value.link f ≠ .link c := by
      rintro e
      rw [e, hc] at hform
      cases hform
    rw [hRetyped.typ f (mem_eraseIdx_of_ne hi hf hne) ((hForm₁ _ _).trans hform),
      hField₁ f "typ" (by simp)]
  · intro id name hne hOther
    have h' : h.field? (.link id) name = s₁.graph.field? (.link id) name :=
      hRetyped.other id name fun e hm' => (hForm₁ _ _).trans (hOther e (hSub hm'))
    rw [h', hField₁ id name hne]

theorem retype_isSome (ct : Nat × Nat) : ∃ w', retype (some w) ct = some w' := by
  by_cases h : some w = some (.link ct.1)
  · exact ⟨.link ct.2, by rw [h]; exact retype_self ct.1 ct.2⟩
  · exact ⟨w, retype_of_ne h⟩

theorem gives_detachAll (qs : List (Nat × Nat × Nat))
    (hDown : qs.Pairwise fun a b => b.1 < a.1)
    (hNew : ∀ q ∈ qs, q.2.2 ≠ q.2.1)
    (hm : s.graph.field? (.link r) "members" = some (.list ms))
    (hi : ∀ q ∈ qs, ms[q.1]? = some (.link q.2.1))
    (hc : ∀ q ∈ qs, s.graph.hasForm (.link q.2.1) .field = false)
    (hName : ∀ q ∈ qs, ∃ v, s.graph.field? (.link q.2.1) "name" = some v)
    (htyp : ∀ f, .link f ∈ ms → s.graph.hasForm (.link f) .field = true →
      ∃ w, s.graph.field? (.link f) "typ" = some w) :
    ∃ h k, Gives ((qs.map fun q => Lifted.of q.1 q.2.1 q.2.2).forM (detach (.link r))) s ()
        { s with graph := h, console := k } ∧
      Detached s.graph r ms (qs.foldl (fun ms q => ms.eraseIdx q.1) ms) (qs.map (·.2)) h := by
  induction qs generalizing ms s with
  | nil =>
    exact ⟨s.graph, s.console, gives_forM_nil.2 rfl,
      ⟨rfl, rfl, fun _ => rfl, hm, fun _ _ _ => rfl, fun _ _ _ _ => rfl⟩⟩
  | cons q qs ih =>
    obtain ⟨i, c, t⟩ := q
    obtain ⟨hLow, hDown⟩ := List.pairwise_cons.1 hDown
    have hic := hi (i, c, t) (by simp)
    have hcf := hc (i, c, t) (by simp)
    obtain ⟨h₁, k₁, hGives₁, hd₁⟩ := gives_detach (hNew (i, c, t) (by simp)) hm hic hcf
      (hName (i, c, t) (by simp)) htyp
    have hne : ∀ f, s.graph.hasForm (.link f) .field = true → Value.link f ≠ .link c := by
      intro f hf e
      rw [e, hcf] at hf
      cases hf
    have hSub : ∀ {v}, v ∈ ms.eraseIdx i → v ∈ ms := fun h => List.mem_of_mem_eraseIdx h
    obtain ⟨h₂, k₂, hGives₂, hd₂⟩ := ih (s := { s with graph := h₁, console := k₁ }) hDown
      (fun q hq => hNew q (by simp [hq])) hd₁.members
      (fun q hq => by
        rw [List.getElem?_eraseIdx_of_lt (hLow q hq)]
        exact hi q (by simp [hq]))
      (fun q hq => (hd₁.hasForm _ _).trans (hc q (by simp [hq])))
      (fun q hq => by
        obtain ⟨v, hv⟩ := hName q (by simp [hq])
        exact ⟨v, (hd₁.other q.2.1 "name" (by simp) (by simp)).trans hv⟩)
      (fun f hf hform => by
        have hform' : s.graph.hasForm (.link f) .field = true := (hd₁.hasForm _ _).symm.trans hform
        obtain ⟨w, hw⟩ := htyp f (hSub hf) hform'
        obtain ⟨w', hw'⟩ := retype_isSome (w := w) (c, t)
        exact ⟨w', by rw [hd₁.typ f (hSub hf) hform', hw]; exact hw'⟩)
    refine ⟨h₂, k₂, gives_forM_cons.2 ⟨_, hGives₁, hGives₂⟩, ?_⟩
    refine ⟨hd₂.origin.trans hd₁.origin, hd₂.size.trans hd₁.size,
      fun v => (hd₂.form v).trans (hd₁.form v), hd₂.members, ?_, ?_⟩
    · intro f hf hform
      rw [hd₂.typ f (mem_eraseIdx_of_ne hic hf (hne f hform)) ((hd₁.hasForm _ _).trans hform)]
      show (qs.map (·.2)).foldl retype (h₁.field? (.link f) "typ") = _
      rw [hd₁.typ f hf hform]
      rfl
    · intro id name hid hOther
      have e₂ : h₂.field? (.link id) name = h₁.field? (.link id) name :=
        hd₂.other id name hid fun e hm' => (hd₁.hasForm _ _).trans (hOther e (hSub hm'))
      rw [e₂]
      exact hd₁.other id name hid hOther

/-! ### Positions -/

theorem foldr_eraseIdx_succ (is : List Nat) (m : Value) (ms : List Value) :
    (is.map (· + 1)).foldr (fun i ms => ms.eraseIdx i) (m :: ms) =
      m :: is.foldr (fun i ms => ms.eraseIdx i) ms := by
  induction is with
  | nil => rfl
  | cons i is ih =>
    rw [List.map_cons, List.foldr_cons, ih, List.eraseIdx_cons_succ, List.foldr_cons]

theorem foldr_eraseIdx_positions (p : Value → Bool) (ms : List Value) :
    ((ms.zipIdx.filter fun x => p x.1).map (·.2)).foldr (fun i ms => ms.eraseIdx i) ms =
      ms.filter fun m => !p m := by
  induction ms with
  | nil => rfl
  | cons m ms ih =>
    have hShift : ((ms.zipIdx 1).filter fun x => p x.1).map (·.2) =
        ((ms.zipIdx.filter fun x => p x.1).map (·.2)).map (· + 1) := by
      rw [List.zipIdx_succ, List.filter_map, List.map_map, List.map_map]
      rfl
    rw [List.zipIdx_cons, Nat.zero_add]
    cases hp : p m with
    | true =>
      rw [List.filter_cons_of_pos (by simpa using hp), List.map_cons, List.foldr_cons, hShift,
        foldr_eraseIdx_succ, ih, List.eraseIdx_cons_zero, List.filter_cons_of_neg (by simp [hp])]
    | false =>
      rw [List.filter_cons_of_neg (by simp [hp]), hShift, foldr_eraseIdx_succ, ih,
        List.filter_cons_of_pos (by simp [hp])]

end PxdGen.Decl
