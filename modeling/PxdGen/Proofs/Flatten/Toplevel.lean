import PxdGen.Proofs.Flatten.Container
/-! # Flattening toplevel declarations

The toplevel declarations are flattened one after the other. Each container that one of them leads
to is the root of a tree: the first declaration that leads to it lifts the whole tree, and for all
later ones it is flat already.
-/

namespace PxdGen.Decl

open Work Decl.Graph

variable {g : Graph} {tops : List Value}

variable {x r n : Nat} {v : Value} {s : Session}

/-! ### Roots -/

/-- A reached container that is not nested in another one. -/
structure Graph.Root (g : Graph) (tops : List Value) (r : Nat) : Prop where
  reached : Reached g tops r
  container : g.isContainer (.link r) = true
  outermost : ∀ q, Reached g tops q → ¬ g.Nested q r

theorem Graph.Root.eq_of_below (hf : Forest g tops) {a b : Nat} (ha : g.Root tops a)
    (hb : g.Root tops b) (hax : g.Below a x) (hbx : g.Below b x) : a = b := by
  have key : ∀ a b, g.Root tops a → g.Root tops b → g.Below a b → a = b := by
    intro a b ha hb hab
    cases hab with
    | refl => rfl
    | @step q _ haq hqb => exact absurd hqb (hb.outermost q (haq.reached ha.reached))
  rcases Graph.Below.total hf ha.reached hb.reached hax hbx with h | h
  · exact key a b ha hb h
  · exact (key b a hb ha h).symm

theorem Graph.Leads.root (hf : Forest g tops) (h : g.Leads v r)
    (hv : ∀ id, v = .link id → Reached g tops id ∧ ∀ q, Reached g tops q → ¬ g.Nested q id) :
    g.Root tops r := by
  induction h with
  | container hc => exact ⟨(hv _ rfl).1, hc, (hv _ rfl).2⟩
  | @typedef t r v ho hform htyp _ ih =>
    apply ih
    rintro id rfl
    have ht := (hv t rfl).1
    refine ⟨.typedef ht ho hform htyp, fun q hq hn => ?_⟩
    exact hf.not_named q id t hq hn ho ht hform htyp

theorem Forest.root_of_top (hf : Forest g tops) (hv : v ∈ tops) (h : g.Leads v r) :
    g.Root tops r := by
  refine h.root hf ?_
  rintro id rfl
  exact ⟨.top hv, fun q hq hn => hf.not_top q id hq hn hv⟩

theorem Graph.Leads.eq_of_isContainer {c : Nat} (h : g.Leads (.link c) r)
    (hc : g.isContainer (.link c) = true) : c = r := by
  cases h with
  | container => rfl
  | typedef _ hform =>
    rw [hasForm_of_isContainer g hc rfl] at hform
    cases hform

theorem Graph.Leads.unique {r' : Nat} (h : g.Leads v r) (h' : g.Leads v r') : r = r' := by
  induction h with
  | container hc => exact h'.eq_of_isContainer hc
  | typedef _ hform htyp _ ih =>
    cases h' with
    | container hc =>
      rw [hasForm_of_isContainer g hc rfl] at hform
      cases hform
    | typedef _ _ htyp' h' =>
      obtain rfl := Option.some.inj (htyp.symm.trans htyp')
      exact ih h'

/-- Every reached container is in the tree of a root that a toplevel declaration leads to. -/
theorem Forest.below_top (hf : Forest g tops) {p : Nat} (hp : Reached g tops p)
    (hc : g.isContainer (.link p) = true) : ∃ v ∈ tops, ∃ r, g.Leads v r ∧ g.Below r p := by
  -- what is reached through typedefs is led to by a toplevel declaration whenever it leads on
  have key : ∀ id, Reached g tops id → ∃ v ∈ tops,
      (∀ r, g.Leads (.link id) r → g.Leads v r) ∨ ∃ r, g.Leads v r ∧ g.Below r id := by
    intro id hid
    induction hid with
    | @top id h => exact ⟨_, h, .inl fun r hr => hr⟩
    | @typedef t id ht ho hform htyp ih =>
      obtain ⟨v, hv, ih | ⟨r, hr, hb⟩⟩ := ih
      · exact ⟨v, hv, .inl fun r hr => ih r (.typedef ho hform htyp hr)⟩
      · have htc := hb.isContainer (hf.root_of_top hv hr).container
        rw [hasForm_of_isContainer g htc rfl] at hform
        cases hform
    | @member p c hp hn ih =>
      obtain ⟨v, hv, ih | ⟨r, hr, hb⟩⟩ := ih
      · exact ⟨v, hv, .inr ⟨p, ih p (.container hn.1), .step .refl hn⟩⟩
      · exact ⟨v, hv, .inr ⟨r, hr, .step hb hn⟩⟩
  obtain ⟨v, hv, h | ⟨r, hr, hb⟩⟩ := key p hp
  · exact ⟨v, hv, p, h p (.container hc), .refl⟩
  · exact ⟨v, hv, r, hr, hb⟩

/-! ### The flattened list -/

/-- The containers that are lifted out of the trees of some roots. -/
def Graph.liftedFrom (g : Graph) (roots : List Nat) : List Nat := roots.flatMap g.under

theorem Graph.liftedFrom_append (g : Graph) (as bs : List Nat) :
    g.liftedFrom (as ++ bs) = g.liftedFrom as ++ g.liftedFrom bs := List.flatMap_append

theorem Graph.liftedFrom_cons (g : Graph) (r : Nat) (bs : List Nat) :
    g.liftedFrom (r :: bs) = g.under r ++ g.liftedFrom bs := List.flatMap_cons

/-- `Unfolds g roots vs out new`: once the trees of `roots` have been lifted, the declarations `vs`
are flattened to `out` and the trees of the roots `new` are lifted, in this order. -/
inductive Unfolds (g : Graph) : List Nat → List Value → List Value → List Nat → Prop where
  | nil {roots : List Nat} : Unfolds g roots [] [] []
  | lift {roots : List Nat} {v : Value} {r : Nat} {vs out : List Value} {new : List Nat} :
    g.Leads v r → r ∉ roots → Unfolds g (roots ++ [r]) vs out new →
    Unfolds g roots (v :: vs)
      (liftedItems (g.entries.size + (g.liftedFrom roots).length) (g.under r) ++ v :: out)
      (r :: new)
  | keep {roots : List Nat} {v : Value} {vs out : List Value} {new : List Nat} :
    (∀ r, g.Leads v r → r ∈ roots) → Unfolds g roots vs out new →
    Unfolds g roots (v :: vs) (v :: out) new

/-- The graph `h` after the trees of `roots` have been lifted. -/
structure Lifts (g : Graph) (tops : List Value) (roots : List Nat) (h : Graph) : Prop where
  root : ∀ r ∈ roots, g.Root tops r
  partly : ∃ renamed, Partly g (g.underAll roots) (g.liftedFrom roots) renamed h ∧
    ∀ id ∈ renamed, id ∈ g.liftedFrom roots

namespace Lifts

theorem refl (g : Graph) (tops : List Value) : Lifts g tops [] g where
  root := by simp
  partly := ⟨[], Partly.refl g, by simp⟩

variable {roots : List Nat} {h : Graph}

theorem mem_underAll (hf : Forest g tops) (hroots : ∀ r ∈ roots, g.Root tops r) :
    x ∈ g.underAll roots ↔ ∃ r ∈ roots, g.Below r x := by
  rw [underAll, List.mem_flatMap]
  constructor
  · rintro ⟨r, hr, hx⟩
    exact ⟨r, hr, (hf.mem_tree (hroots r hr).reached (hroots r hr).container).1 hx⟩
  · rintro ⟨r, hr, hx⟩
    exact ⟨r, hr, (hf.mem_tree (hroots r hr).reached (hroots r hr).container).2 hx⟩

theorem nested_of_mem_liftedFrom (hf : Forest g tops) (hroots : ∀ r ∈ roots, g.Root tops r)
    (hx : x ∈ g.liftedFrom roots) : ∃ p, Reached g tops p ∧ g.Nested p x := by
  obtain ⟨r, hr, hx⟩ := List.mem_flatMap.1 hx
  have hroot := hroots r hr
  obtain ⟨c, hrc, hcx⟩ := (hf.mem_under hroot.reached hroot.container).1 hx
  cases hcx with
  | refl => exact ⟨r, hroot.reached, hrc⟩
  | step hb hn => exact ⟨_, hb.reached (.member hroot.reached hrc), hn⟩

theorem outerNamed (hf : Forest g tops) (hl : Lifts g tops roots h) (hr : g.Root tops r) :
    h.OuterNamed r := by
  obtain ⟨renamed, hp, hRenamed⟩ := hl.partly
  have hid := hf.valid r hr.reached
  have hNot : r ∉ renamed := fun hmem => by
    obtain ⟨p, hpr, hn⟩ := nested_of_mem_liftedFrom hf hl.root (hRenamed r hmem)
    exact hr.outermost p hpr hn
  obtain ⟨v, hv⟩ := hf.name r hr.reached hr.container
  refine ⟨v, (hp.old r hid hNot _ (.inl rfl)).trans hv, fun ho => ?_⟩
  rcases hf.named (hp.origin ▸ ho) r hr.reached hr.container hr.outermost with ⟨w, hw, ht⟩ | ⟨w, hw⟩
  · obtain rfl : w = v := by simpa using hw.symm.trans hv
    exact .inl ht
  · exact .inr ⟨w, (hp.other r hid _ (by simp)).trans hw⟩

/-- A root whose tree has been lifted stays as it is. -/
theorem gives_keep (hf : Forest g tops) (hl : Lifts g tops roots s.graph)
    (hr : r ∈ roots) : Gives (flattenContainer (n + 1) (.link r)) s [.link r] s := by
  have hroot := hl.root r hr
  have hNamed := outerNamed hf hl hroot
  obtain ⟨renamed, hp, -⟩ := hl.partly
  obtain ⟨v, hv⟩ := hf.context r hroot.reached hroot.container
  obtain ⟨context, hContext⟩ := hp.field_isSome hv
  have hm := hp.members r ((mem_underAll hf hl.root).2 ⟨r, hr, .refl⟩)
  refine gives_flattenContainer_of_flat hm (fun m hmem => ?_) hContext hNamed
  simpa [hp.isContainer_eq] using (List.mem_filter.1 hmem).2

theorem gives_lift (hf : Forest g tops) (hl : Lifts g tops roots s.graph)
    (hUnder : FlattensUnder g tops n r) (hroot : g.Root tops r) (hr : r ∉ roots) :
    ∃ h k, Gives (flattenContainer n (.link r)) s
        (liftedItems (g.entries.size + (g.liftedFrom roots).length) (g.under r) ++ [.link r])
        { s with graph := h, console := k } ∧
      Lifts g tops (roots ++ [r]) h := by
  have hNamed := outerNamed hf hl hroot
  obtain ⟨renamed, hp, hRenamed⟩ := hl.partly
  have hFlat : ∀ p ∈ g.underAll roots, Reached g tops p ∧ g.isContainer (.link p) = true := by
    intro p hpu
    obtain ⟨q, hq, hqp⟩ := (mem_underAll hf hl.root).1 hpu
    exact ⟨hqp.reached (hl.root q hq).reached, hqp.isContainer (hl.root q hq).container⟩
  have hApart : ∀ x, g.Below r x → x ∉ g.underAll roots := by
    intro x hx hmem
    obtain ⟨q, hq, hqx⟩ := (mem_underAll hf hl.root).1 hmem
    obtain rfl := hroot.eq_of_below hf (hl.root q hq) hx hqx
    exact hr hq
  obtain ⟨h, k, renamed', hGives, hp', hRenamed'⟩ :=
    hUnder _ _ _ s hp hFlat hApart hNamed
  refine ⟨h, k, hGives, ⟨?_, renamed', ?_, ?_⟩⟩
  · intro q hq
    rcases List.mem_append.1 hq with hq | hq
    · exact hl.root q hq
    · obtain rfl := List.mem_singleton.1 hq
      exact hroot
  · simpa [underAll, liftedFrom] using hp'
  · intro id hid
    rw [liftedFrom_append, List.mem_append]
    rcases hRenamed' id hid with hid | hid
    · exact .inl (hRenamed id hid)
    · exact .inr (by simpa [liftedFrom] using hid)

theorem typ_typedef (hl : Lifts g tops roots h) {t : Nat} (ht : t < g.entries.size)
    (hform : g.hasForm (.link t) .typedef = true) :
    h.field? (.link t) "typ" = g.field? (.link t) "typ" := by
  obtain ⟨renamed, hp, -⟩ := hl.partly
  refine hp.typ_old t ht fun p _ c hs => ?_
  have h1 := hs.form
  simp_all [Graph.hasForm]

end Lifts

/-! ### The run -/

/-- What flattening a declaration gives: the tree it leads to is lifted, unless it has been. -/
inductive Step (g : Graph) (tops : List Value) (roots : List Nat) (s : Session)
    (x : Work (List Value)) (v : Value) : Prop where
  | lift {r : Nat} {h : Graph} {k : String} (hr : g.Leads v r) (hNew : r ∉ roots)
    (gives : Gives x s
      (liftedItems (g.entries.size + (g.liftedFrom roots).length) (g.under r) ++ [v])
      { s with graph := h, console := k }) (lifts : Lifts g tops (roots ++ [r]) h)
  | keep (hr : ∀ r, g.Leads v r → r ∈ roots) (gives : Gives x s [v] s)

/-- **One declaration is flattened.** The induction is on the depth of the recursion, which follows
the typedefs. -/
theorem flattenOne_step (hf : Forest g tops) {level : Nat → Nat}
    (hpos : ∀ id, Reached g tops id → 0 < level id)
    (hl : ∀ p c, Reached g tops p → g.Nested p c → level c < level p)
    (hlt : ∀ t id, Reached g tops t → g.origin = .unit → g.hasForm (.link t) .typedef = true →
      g.field? (.link t) "typ" = some (.link id) → level id < level t)
    {roots : List Nat} (hs : Lifts g tops roots s.graph) (n : Nat) (v : Value)
    (hv : ∀ id, v = .link id → Reached g tops id ∧ ∀ q, Reached g tops q → ¬ g.Nested q id)
    (hn : ∀ id, v = .link id → level id < n) (hn0 : 0 < n) :
    Step g tops roots s (flattenOne n v) v := by
  induction n generalizing v with
  | zero => omega
  | succ n ih =>
    have hIs : s.graph.isContainer v = g.isContainer v := by
      obtain ⟨renamed, hp, -⟩ := hs.partly
      exact hp.isContainer_eq v
    by_cases hc : g.isContainer v = true
    · -- a container lifts its tree, or is flat already
      obtain ⟨r, -, rfl, -⟩ := form?_eq_of_isContainer g hc
      have hroot : g.Root tops r := ⟨(hv r rfl).1, hc, (hv r rfl).2⟩
      have hr := hn r rfl
      have hr0 := hpos r hroot.reached
      have hRun : ∀ {out s'}, Gives (flattenContainer n (.link r)) s out s' →
          Gives (flattenOne (n + 1) (.link r)) s out s' := by
        intro out s' h
        refine Gives.bind (gives_isContainer _) ?_
        rw [hIs, if_pos hc]
        exact h
      by_cases hmem : r ∈ roots
      · refine .keep (fun q hq => ?_) (hRun ?_)
        · rwa [← hq.eq_of_isContainer hc]
        · obtain ⟨m, rfl⟩ : ∃ m, n = m + 1 := ⟨n - 1, by omega⟩
          exact hs.gives_keep hf hmem
      · obtain ⟨h, k, hGives, hLifts⟩ := hs.gives_lift hf
          (flattensUnder hf hpos hl n r hroot.reached hc (by omega)).1 hroot hmem
        exact .lift (.container hc) hmem (hRun hGives) hLifts
    · obtain ⟨renamed, hp, -⟩ := hs.partly
      have hForm : s.graph.hasForm v .typedef = g.hasForm v .typedef := by
        cases v with
        | link id => simp only [Graph.hasForm, hp.form id (hf.valid id (hv id rfl).1)]
        | _ => rfl
      by_cases ht : g.origin = .unit ∧ g.hasForm v .typedef = true
      · -- a typedef lifts what its type leads to
        obtain ⟨ho, hform⟩ := ht
        obtain ⟨t, rfl⟩ : ∃ t, v = .link t := by
          cases v with
          | link t => exact ⟨t, rfl⟩
          | _ => simp [Graph.hasForm, form?] at hform
        have htr := (hv t rfl).1
        obtain ⟨w, hw⟩ := hf.typedefs ho t htr hform
        have hStep := ih w (by
            rintro id rfl
            exact ⟨.typedef htr ho hform hw, fun q hq hqn => hf.not_named q id t hq hqn ho htr hform
              hw⟩)
          (by
            rintro id rfl
            have h1 := hlt t id htr ho hform hw
            have h2 := hn t rfl
            omega)
          (by
            have h1 := hpos t htr
            have h2 := hn t rfl
            omega)
        have hTyp := (hs.typ_typedef (hf.valid t htr) hform).trans hw
        have hRun : ∀ {l s'}, Gives (flattenOne n w) s (l ++ [w]) s' →
            Gives (flattenOne (n + 1) (.link t)) s (l ++ [.link t]) s' := by
          intro l s' h
          refine Gives.bind (gives_isContainer _) ?_
          rw [hIs, if_neg hc]
          refine Gives.bind gives_origin (Gives.bind (gives_hasForm _ _) ?_)
          rw [hForm, hform, hp.origin, ho]
          refine Gives.bind (gives_field hTyp) (Gives.bind h ?_)
          rw [List.dropLast_concat]
          exact .pure _ _
        cases hStep with
        | lift hr hNew hGives hLifts =>
          exact .lift (.typedef ho hform hw hr) hNew (hRun hGives) hLifts
        | keep hr hGives =>
          refine .keep (fun r hLeads => ?_) (hRun (l := []) hGives)
          cases hLeads with
          | container hc' => exact absurd hc' hc
          | typedef _ _ hw' hLeads =>
            obtain rfl : w = _ := by simpa using hw.symm.trans hw'
            exact hr r hLeads
      · refine .keep (fun r hLeads => ?_) ?_
        · cases hLeads with
          | container hc' => exact absurd hc' hc
          | typedef ho hform => exact absurd ⟨ho, hform⟩ ht
        · refine Gives.bind (gives_isContainer _) ?_
          rw [hIs, if_neg hc]
          refine Gives.bind gives_origin (Gives.bind (gives_hasForm _ _) ?_)
          rw [hForm, hp.origin, if_neg (by simpa using ht)]
          exact .pure _ _

theorem gives_flattenAll (hf : Forest g tops) (vs : List Value) (hvs : ∀ v ∈ vs, v ∈ tops)
    (hn : g.entries.size < n) {roots : List Nat} (hs : Lifts g tops roots s.graph) :
    ∃ outs new h k, Gives (vs.mapM (flattenOne n)) s outs { s with graph := h, console := k } ∧
      Unfolds g roots vs outs.flatten new ∧ Lifts g tops (roots ++ new) h := by
  obtain ⟨level, hle, hpos, hl, hlt⟩ := hf.levels
  induction vs generalizing roots s with
  | nil =>
    refine ⟨[], [], s.graph, s.console, gives_mapM_nil.2 ⟨rfl, rfl⟩, .nil, ?_⟩
    rwa [List.append_nil]
  | cons v vs ih =>
    have hStep := flattenOne_step hf hpos hl hlt hs n v (by
        rintro id rfl
        have hid := hvs _ (List.mem_cons_self ..)
        exact ⟨.top hid, fun q hq hqn => hf.not_top q id hq hqn hid⟩)
      (fun id _ => Nat.lt_of_le_of_lt (hle id) hn) (by omega)
    have hRest : ∀ w ∈ vs, w ∈ tops := fun w hw => hvs w (List.mem_cons_of_mem _ hw)
    cases hStep with
    | @lift r h k hr hNew hGives hLifts =>
      obtain ⟨outs, new, h', k', hGives', hUnfolds, hLifts'⟩ :=
        ih hRest (s := { s with graph := h, console := k }) hLifts
      refine ⟨_, r :: new, h', k', gives_mapM_cons.2 ⟨_, _, _, hGives, hGives', rfl⟩, ?_, ?_⟩
      · rw [List.flatten_cons, List.append_assoc]
        exact .lift hr hNew hUnfolds
      · rwa [List.append_assoc] at hLifts'
    | keep hr hGives =>
      obtain ⟨outs, new, h', k', hGives', hUnfolds, hLifts'⟩ := ih hRest hs
      exact ⟨_, new, h', k', gives_mapM_cons.2 ⟨_, _, _, hGives, hGives', rfl⟩,
        .keep hr hUnfolds, hLifts'⟩

/-- **Flattening gives the unfolded list**, and its graph has the trees of all roots lifted. -/
theorem gives_flatten (hf : Forest s.graph tops) :
    ∃ out new h k, Gives (flatten (.list tops)) s (.list out) { s with graph := h, console := k } ∧
      Unfolds s.graph [] tops out new ∧ Lifts s.graph tops new h := by
  obtain ⟨outs, new, h, k, hGives, hUnfolds, hLifts⟩ :=
    gives_flattenAll hf (n := s.graph.entries.size + 1 + 1) tops (fun v hv => hv) (by omega)
      (Lifts.refl s.graph tops)
  refine ⟨outs.flatten, new, h, k, ?_, hUnfolds, hLifts⟩
  exact Gives.bind gives_steps (Gives.bind (gives_items rfl) (Gives.bind hGives (.pure _ _)))

end PxdGen.Decl
