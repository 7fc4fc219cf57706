import PxdGen.Proofs.Flatten.Toplevel
/-! # What flattening comes to

The flattened list is the list of toplevel declarations with the lifted containers put in: each of
them once, with its typedef directly behind it, and before everything that stands for the container
it was nested in.
-/

namespace PxdGen.Decl

open Work Decl.Graph

variable {g : Graph} {tops : List Value}

variable {start r p c t : Nat} {cs : List Nat} {x v : Value}

/-! ### The flattened list -/

theorem mem_liftedItems :
    x ∈ liftedItems start cs ↔ ∃ k c, cs[k]? = some c ∧ (x = .link c ∨ x = .link (start + k)) := by
  rw [liftedItems, List.mem_flatMap]
  constructor
  · rintro ⟨⟨c, t⟩, hct, hx⟩
    obtain ⟨k, hk, rfl⟩ : ∃ k, cs[k]? = some c ∧ t = start + k := by
      obtain ⟨hle, hget⟩ := List.mem_zipIdx_iff_le_and_getElem?_sub.1 hct
      exact ⟨t - start, hget, by omega⟩
    exact ⟨k, c, hk, by simpa using hx⟩
  · rintro ⟨k, c, hk, hx⟩
    refine ⟨(c, start + k), List.mem_zipIdx_iff_le_and_getElem?_sub.2 ⟨by simp, ?_⟩, by simpa using
      hx⟩
    simpa using hk

theorem not_mem_liftedItems {x : Nat} (hx : x ∉ cs)
    (h : x < start ∨ start + cs.length ≤ x) : .link x ∉ liftedItems start cs := by
  intro hmem
  obtain ⟨k, c, hk, e | e⟩ := mem_liftedItems.1 hmem
  · obtain rfl : x = c := by simpa using e
    exact hx (List.mem_of_getElem? hk)
  · have hlt := (List.getElem?_eq_some_iff.1 hk).1
    have : x = start + k := by simpa using e
    omega

namespace Unfolds

variable {roots new : List Nat} {vs out : List Value}

theorem sublist (h : Unfolds g roots vs out new) : vs.Sublist out := by
  induction h with
  | nil => exact .slnil
  | lift _ _ _ ih => exact (List.Sublist.cons_cons _ ih).trans (List.sublist_append_right ..)
  | keep _ _ ih => exact .cons_cons _ ih

theorem root_mem (h : Unfolds g roots vs out new) (hv : v ∈ vs)
    (hr : g.Leads v r) : r ∈ roots ++ new := by
  induction h with
  | nil => cases hv
  | @lift roots w q vs out new hq hNew h ih =>
    rcases List.mem_cons.1 hv with rfl | hv
    · obtain rfl := hr.unique hq
      simp
    · simpa using ih hv
  | @keep roots w vs out new hw h ih =>
    rcases List.mem_cons.1 hv with rfl | hv
    · exact List.mem_append.2 (.inl (hw r hr))
    · exact ih hv

theorem nodup (h : Unfolds g roots vs out new) (hroots : roots.Nodup) : (roots ++ new).Nodup := by
  induction h with
  | nil => simpa using hroots
  | @lift roots w q vs out new hq hNew h ih =>
    have := ih (List.nodup_append.2 ⟨hroots, by simp, by
      rintro a ha b hb rfl
      obtain rfl := List.mem_singleton.1 hb
      exact hNew ha⟩)
    simpa using this
  | keep _ _ ih => exact ih hroots

/-- What stands in the flattened list: a declaration, a lifted container or the typedef of one. -/
theorem mem (h : Unfolds g roots vs out new) (hx : x ∈ out) :
    x ∈ vs ∨ (∃ c ∈ g.liftedFrom new, x = .link c) ∨
      ∃ k, (g.liftedFrom roots).length ≤ k ∧ k < (g.liftedFrom (roots ++ new)).length ∧
        x = .link (g.entries.size + k) := by
  induction h with
  | nil => cases hx
  | @lift roots w q vs out new hq hNew h ih =>
    have hLength : (g.liftedFrom (roots ++ q :: new)).length =
        (g.liftedFrom roots).length + (g.under q).length + (g.liftedFrom new).length := by
      rw [liftedFrom_append, liftedFrom_cons]
      simp [Nat.add_assoc]
    rcases List.mem_append.1 hx with hx | hx
    · obtain ⟨k, c, hk, rfl | rfl⟩ := mem_liftedItems.1 hx
      · refine .inr (.inl ⟨c, ?_, rfl⟩)
        rw [liftedFrom_cons]
        exact List.mem_append.2 (.inl (List.mem_of_getElem? hk))
      · have := (List.getElem?_eq_some_iff.1 hk).1
        exact .inr
          (.inr ⟨(g.liftedFrom roots).length + k, by omega, by omega, by rw [Nat.add_assoc]⟩)
    · rcases List.mem_cons.1 hx with rfl | hx
      · exact .inl (List.mem_cons_self ..)
      · rcases ih hx with hx | ⟨c, hc, rfl⟩ | ⟨k, h1, h2, rfl⟩
        · exact .inl (List.mem_cons_of_mem _ hx)
        · refine .inr (.inl ⟨c, ?_, rfl⟩)
          rw [liftedFrom_cons]
          exact List.mem_append.2 (.inr hc)
        · refine .inr (.inr ⟨k, ?_, ?_, rfl⟩)
          · rw [liftedFrom_append, List.length_append] at h1
            omega
          · rwa [List.append_assoc] at h2
  | keep _ _ ih =>
    rcases List.mem_cons.1 hx with rfl | hx
    · exact .inl (List.mem_cons_self ..)
    · exact (ih hx).imp_left (List.mem_cons_of_mem _)

theorem split (h : Unfolds g roots vs out new) (hr : r ∈ new) :
    ∃ vs₁ v vs₂ out₁ out₂ new₁ new₂, vs = vs₁ ++ v :: vs₂ ∧ new = new₁ ++ r :: new₂ ∧
      g.Leads v r ∧ r ∉ roots ++ new₁ ∧
      out = out₁ ++ (liftedItems (g.entries.size + (g.liftedFrom (roots ++ new₁)).length)
        (g.under r) ++ v :: out₂) ∧
      Unfolds g roots vs₁ out₁ new₁ ∧ Unfolds g (roots ++ new₁ ++ [r]) vs₂ out₂ new₂ := by
  induction h with
  | nil => cases hr
  | @lift roots w q vs out new hq hNew h ih =>
    by_cases e : r = q
    · subst e
      exact ⟨[], w, vs, [], out, [], new, rfl, rfl, hq, by simpa using hNew, by simp, .nil,
        by simpa using h⟩
    · have hr : r ∈ new := by simpa [e] using hr
      obtain ⟨vs₁, v, vs₂, out₁, out₂, new₁, new₂, rfl, rfl, hv, hrNot, rfl, h₁, h₂⟩ := ih hr
      refine ⟨w :: vs₁, v, vs₂, _, out₂, q :: new₁, new₂, rfl, rfl, hv, by simpa using hrNot, ?_,
        .lift hq hNew h₁, by simpa using h₂⟩
      simp
  | @keep roots w vs out new hw h ih =>
    obtain ⟨vs₁, v, vs₂, out₁, out₂, new₁, new₂, rfl, rfl, hv, hrNot, rfl, h₁, h₂⟩ := ih hr
    exact ⟨w :: vs₁, v, vs₂, w :: out₁, out₂, new₁, new₂, rfl, rfl, hv, hrNot, rfl, .keep hw h₁, h₂⟩

end Unfolds

/-! ### Trees in the list -/

theorem Forest.under_split (hf : Forest g tops) (hr : g.Root tops r)
    (hb : g.Below r p) (hn : g.Nested p c) :
    ∃ before after, g.under r = before ++ c :: after ∧ p ∉ before ∧ (p = r ∨ p ∈ after) := by
  have hp := hb.reached hr.reached
  obtain ⟨u, w, hu⟩ := List.append_of_mem ((hf.mem_under hp hn.1).2 ⟨c, hn, .refl⟩)
  by_cases e : p = r
  · subst e
    refine ⟨u, w, hu, fun h => hf.not_mem_under_self hp hn.1 ?_, .inl rfl⟩
    rw [hu]
    exact List.mem_append.2 (.inl h)
  · have hpr : p ∈ g.under r := by
      have := (hf.mem_tree hr.reached hr.container).2 hb
      simpa [e] using this
    obtain ⟨before, after, hBlock⟩ := hf.under_block hr.reached hr.container hpr
    have hSplit : g.under r = (before ++ u) ++ c :: (w ++ p :: after) := by
      rw [hBlock, hu]
      simp
    refine ⟨before ++ u, w ++ p :: after, hSplit, fun h => ?_, .inr (by simp)⟩
    have hNodup := (List.nodup_append.1 (hf.nodup_tree hr.reached hr.container)).1
    rw [hSplit] at hNodup
    exact (List.nodup_append.1 hNodup).2.2 p h p (by simp) rfl

theorem Forest.nodup_liftedFrom (hf : Forest g tops) {roots : List Nat} (hNodup : roots.Nodup)
    (hroots : ∀ r ∈ roots, g.Root tops r) : (g.liftedFrom roots).Nodup := by
  refine nodup_flatMap hNodup (fun r hr => ?_) fun a ha b hb hab x hxa hxb => hab ?_
  · exact (List.nodup_append.1 (hf.nodup_tree (hroots r hr).reached (hroots r hr).container)).1
  · have hBelow : ∀ r ∈ roots, x ∈ g.under r → g.Below r x := fun r hr hx =>
      (hf.mem_tree (hroots r hr).reached (hroots r hr).container).1 (List.mem_append.2 (.inl hx))
    exact (hroots a ha).eq_of_below hf (hroots b hb) (hBelow a ha hxa) (hBelow b hb hxb)

variable {new : List Nat} {out : List Value}

/-- Exactly the nested containers are lifted. -/
theorem Unfolds.mem_liftedFrom (hf : Forest g tops) (h : Unfolds g [] tops out new)
    (hnew : ∀ r ∈ new, g.Root tops r) :
    c ∈ g.liftedFrom new ↔ ∃ p, Reached g tops p ∧ g.Nested p c := by
  constructor
  · exact Lifts.nested_of_mem_liftedFrom hf hnew
  · rintro ⟨p, hp, hn⟩
    obtain ⟨v, hv, r, hr, hb⟩ := hf.below_top hp hn.1
    have hrNew : r ∈ new := by simpa using h.root_mem hv hr
    refine List.mem_flatMap.2 ⟨r, hrNew, ?_⟩
    obtain ⟨before, after, hu, -⟩ := hf.under_split (hnew r hrNew) hb hn
    rw [hu]
    simp

/-! ### Where nested containers stand -/

/-- The typedef `t` has been made for the container `c`. -/
structure MadeFor (g g' : Graph) (t c : Nat) : Prop where
  new : g.entries.size ≤ t
  form : g'.form? (.link t) = some .typedef
  typ : g'.field? (.link t) "typ" = some (.link c)

/-- The container `c`, which was nested in `p`, stands once in the list, the one typedef made for it
is directly behind it, and what leads to `p` comes after both. -/
structure Placed (g g' : Graph) (out : List Value) (p c t : Nat) : Prop where
  made : MadeFor g g' t c
  only : ∀ t', MadeFor g g' t' c → t' = t
  place : ∃ before after, out = before ++ .link c :: .link t :: after ∧
    .link c ∉ before ++ after ∧ .link t ∉ before ++ after ∧
    (∀ v ∈ before, ¬ g.Leads v p) ∧ ∃ v ∈ after, g.Leads v p

variable {roots : List Nat} {h : Graph}

theorem Lifts.madeFor (hl : Lifts g tops roots h) {k : Nat}
    (hk : (g.liftedFrom roots)[k]? = some c) : MadeFor g h (g.entries.size + k) c := by
  obtain ⟨renamed, hp, -⟩ := hl.partly
  obtain ⟨hform, htyp⟩ := hp.made k c hk
  exact ⟨by omega, hform, htyp⟩

theorem Lifts.of_madeFor (hl : Lifts g tops roots h) (ht : MadeFor g h t c) :
    ∃ k, (g.liftedFrom roots)[k]? = some c ∧ t = g.entries.size + k := by
  obtain ⟨renamed, hp, -⟩ := hl.partly
  have hlt := lt_size_of_form? h ht.form
  have hsize := hp.size
  have hle := ht.new
  obtain ⟨k, rfl⟩ : ∃ k, t = g.entries.size + k := ⟨t - g.entries.size, by omega⟩
  have hk : k < (g.liftedFrom roots).length := by omega
  have hMade := (hp.made k _ (List.getElem?_eq_getElem hk)).2
  obtain rfl : c = (g.liftedFrom roots)[k] := by simpa using ht.typ.symm.trans hMade
  exact ⟨k, List.getElem?_eq_getElem hk, rfl⟩

theorem Lifts.madeFor_unique (hf : Forest g tops) (hl : Lifts g tops roots h) (hNodup : roots.Nodup)
    {t' : Nat} (ht : MadeFor g h t c) (ht' : MadeFor g h t' c) : t' = t := by
  obtain ⟨k, hk, rfl⟩ := hl.of_madeFor ht
  obtain ⟨k', hk', rfl⟩ := hl.of_madeFor ht'
  have hkl := (List.getElem?_eq_some_iff.1 hk).1
  have hkk := (List.getElem?_inj hkl (hf.nodup_liftedFrom hNodup hl.root)).1 (hk.trans hk'.symm)
  rw [hkk]

theorem Graph.Leads.lt_size {id : Nat} (h : g.Leads (.link id) r) : id < g.entries.size := by
  cases h with
  | container hc =>
    obtain ⟨_, form, -, hform, -⟩ := form?_eq_of_isContainer g hc
    exact lt_size_of_form? g hform
  | typedef _ _ htyp => exact lt_size_of_field? g htyp

/-- Before the tree of a root has been lifted, nothing leads into it. -/
theorem Unfolds.not_leads_before (hf : Forest g tops) {roots : List Nat} {vs : List Value}
    (hu : Unfolds g [] vs out roots) (hvs : ∀ v ∈ vs, v ∈ tops)
    (hroots : ∀ q ∈ roots, g.Root tops q) (hr : g.Root tops r) (hrNot : r ∉ roots)
    (hb : g.Below r p) (hx : x ∈ out) : ¬ g.Leads x p := by
  intro hLeads
  rcases hu.mem hx with hx | ⟨c, hc, rfl⟩ | ⟨k, -, -, rfl⟩
  · obtain rfl := hr.eq_of_below hf (hf.root_of_top (hvs x hx) hLeads) hb .refl
    exact hrNot (by simpa using hu.root_mem hx hLeads)
  · obtain ⟨q, hq, hcq⟩ := List.mem_flatMap.1 hc
    have hqr := hroots q hq
    have hqc := (hf.mem_tree hqr.reached hqr.container).1 (List.mem_append.2 (.inl hcq))
    obtain rfl := hLeads.eq_of_isContainer (hqc.isContainer hqr.container)
    obtain rfl := hr.eq_of_below hf hqr hb hqc
    exact hrNot hq
  · have := hLeads.lt_size
    omega

/-- A container of the tree that is being lifted, and its typedef, stand nowhere else: what comes
before and after are toplevel declarations and the lifted containers of other trees. -/
theorem Unfolds.once (hf : Forest g tops) {r c : Nat} {new₁ new₂ b a : List Nat}
    (hroots : ∀ q ∈ new₁ ++ r :: new₂, g.Root tops q) (hNodup : (new₁ ++ r :: new₂).Nodup)
    (hUnder : g.under r = b ++ c :: a) (hc : .link c ∉ tops) {vs₁ vs₂ out₁ out₂ : List Value}
    {v : Value} (htops : tops = vs₁ ++ v :: vs₂) (h₁ : Unfolds g [] vs₁ out₁ new₁)
    (h₂ : Unfolds g (new₁ ++ [r]) vs₂ out₂ new₂) {id : Nat}
    (hid : id = c ∨ id = g.entries.size + (g.liftedFrom new₁).length + b.length) :
    .link id ∉ (out₁ ++ liftedItems (g.entries.size + (g.liftedFrom new₁).length) b) ++
      (liftedItems (g.entries.size + (g.liftedFrom new₁).length + b.length + 1) a ++ v ::
      out₂) := by
  have hSplit : g.liftedFrom (new₁ ++ r :: new₂) =
      g.liftedFrom new₁ ++ ((b ++ c :: a) ++ g.liftedFrom new₂) := by
    rw [liftedFrom_append, liftedFrom_cons, hUnder]
  have hSmall : ∀ x ∈ g.liftedFrom (new₁ ++ r :: new₂), x < g.entries.size := by
    intro x hx
    obtain ⟨q, hq, hqx⟩ := Lifts.nested_of_mem_liftedFrom hf hroots hx
    exact hf.valid x (.member hq hqx)
  have hLifted := hf.nodup_liftedFrom hNodup hroots
  rw [hSplit] at hLifted hSmall
  obtain ⟨-, hRest, hApart⟩ := List.nodup_append.1 hLifted
  obtain ⟨hTree, -, hApart'⟩ := List.nodup_append.1 hRest
  obtain ⟨-, hca, hcb⟩ := List.nodup_append.1 hTree
  have hcSize := hSmall c (by simp)
  -- it is no toplevel declaration, and not in one of the other trees
  have hTop : .link id ∉ tops := by
    intro hmem
    have := hf.valid id (.top hmem)
    rcases hid with rfl | rfl
    · exact hc hmem
    · omega
  have hOther : ∀ d, d ∈ g.liftedFrom new₁ ∨ d ∈ b ∨ d ∈ a ∨ d ∈ g.liftedFrom new₂ → id ≠ d := by
    intro d hd
    have hdSize : d < g.entries.size := hSmall d (by
      rcases hd with hd | hd | hd | hd <;> simp [hd])
    have hne : c ≠ d := by
      rcases hd with hd | hd | hd | hd
      · exact (hApart d hd c (by simp)).symm
      · exact (hcb d hd c (by simp)).symm
      · rintro rfl
        exact (List.nodup_cons.1 hca).1 hd
      · exact hApart' c (by simp) d hd
    omega
  simp only [List.mem_append, List.mem_cons, not_or]
  refine ⟨⟨fun hx => ?_, not_mem_liftedItems (fun hx => hOther id (by simp [hx]) rfl) (by omega)⟩,
    not_mem_liftedItems (fun hx => hOther id (by simp [hx]) rfl) (by omega), ?_, fun hx => ?_⟩
  · rcases h₁.mem hx with hx | ⟨d, hd, e⟩ | ⟨k, -, hk, e⟩
    · exact hTop (by simp [htops, hx])
    · exact hOther d (.inl hd) (by simpa using e)
    · have e : id = g.entries.size + k := by simpa using e
      rw [List.nil_append] at hk
      omega
  · rintro rfl
    exact hTop (by simp [htops])
  · rcases h₂.mem hx with hx | ⟨d, hd, e⟩ | ⟨k, hk, -, e⟩
    · exact hTop (by simp [htops, hx])
    · exact hOther d (.inr (.inr (.inr hd))) (by simpa using e)
    · have e : id = g.entries.size + k := by simpa using e
      simp only [liftedFrom_append, liftedFrom_cons, hUnder, List.length_append,
        List.length_cons] at hk
      omega

theorem Forest.placed (hf : Forest g tops) (hu : Unfolds g [] tops out new)
    (hl : Lifts g tops new h) (hp : Reached g tops p) (hn : g.Nested p c) :
    ∃ t, Placed g h out p c t := by
  have hNew : new.Nodup := by simpa using hu.nodup (by simp)
  obtain ⟨w, hw, r, hwr, hb⟩ := hf.below_top hp hn.1
  have hroot := hf.root_of_top hw hwr
  have hr : r ∈ new := by simpa using hu.root_mem hw hwr
  obtain ⟨b, a, hUnder, hpb, hpa⟩ := hf.under_split hroot hb hn
  obtain ⟨vs₁, v, vs₂, out₁, out₂, new₁, new₂, hvs, rfl, hv, hrNot, rfl, h₁, h₂⟩ := hu.split hr
  rw [List.nil_append] at hrNot h₂
  have hMade := hl.madeFor (k := (g.liftedFrom new₁).length + b.length) (c := c) (by
    simp [liftedFrom_append, liftedFrom_cons, hUnder])
  have hOnce := @Unfolds.once g tops hf r c new₁ new₂ b a hl.root hNew hUnder
    (hf.not_top p c hp hn) vs₁ vs₂ out₁ out₂ v hvs h₁ h₂
  rw [← Nat.add_assoc] at hMade
  refine ⟨_, hMade, fun t' ht' => hl.madeFor_unique hf hNew hMade ht', _, _, ?_,
    hOnce (.inl rfl), hOnce (.inr rfl), ?_, ?_⟩
  · rw [List.nil_append, hUnder, liftedItems_append, show c :: a = [c] ++ a from rfl,
      liftedItems_append, liftedItems_singleton]
    simp [Nat.add_assoc]
  · intro x hx hLeads
    rcases List.mem_append.1 hx with hx | hx
    · exact h₁.not_leads_before hf (fun v hv => by simp [hvs, hv])
        (fun q hq => hl.root q (List.mem_append.2 (.inl hq))) hroot hrNot hb hx hLeads
    · obtain ⟨k, d, hk, rfl | rfl⟩ := mem_liftedItems.1 hx
      · have hd : d ∈ g.under r ++ [r] := by simp [hUnder, List.mem_of_getElem? hk]
        have hdc := (hf.reached_of_mem_tree hroot.reached hroot.container hd).2
        obtain rfl := hLeads.eq_of_isContainer hdc
        exact hpb (List.mem_of_getElem? hk)
      · have := hLeads.lt_size
        omega
  · rcases hpa with rfl | hpa
    · exact ⟨v, by simp, hv⟩
    · obtain ⟨k, hk⟩ := List.getElem?_of_mem hpa
      exact ⟨.link p, List.mem_append.2 (.inl (mem_liftedItems.2 ⟨k, p, hk, .inl rfl⟩)),
        .container hn.1⟩

/-! ### The flattened graph -/

/-- Exactly the reached containers are flat. -/
theorem Unfolds.mem_underAll (hf : Forest g tops) (hu : Unfolds g [] tops out new)
    (hnew : ∀ r ∈ new, g.Root tops r) {p : Nat} :
    p ∈ g.underAll new ↔ Reached g tops p ∧ g.isContainer (.link p) = true := by
  rw [Lifts.mem_underAll hf hnew]
  constructor
  · rintro ⟨r, hr, hb⟩
    exact ⟨hb.reached (hnew r hr).reached, hb.isContainer (hnew r hr).container⟩
  · rintro ⟨hp, hc⟩
    obtain ⟨v, hv, r, hr, hb⟩ := hf.below_top hp hc
    exact ⟨r, by simpa using hu.root_mem hv hr, hb⟩

/-- Declarations that were there lead where they led. -/
theorem Lifts.leads (hf : Forest g tops) (hl : Lifts g tops roots h)
    (hv : ∀ id, v = .link id → Reached g tops id) (hr : h.Leads v r) : g.Leads v r := by
  obtain ⟨renamed, hp, -⟩ := hl.partly
  induction hr with
  | container hc => exact .container ((hp.isContainer_eq _).symm.trans hc)
  | @typedef t r v ho hform htyp _ ih =>
    have ht := hv t rfl
    have htSize := hf.valid t ht
    have ho' : g.origin = .unit := hp.origin.symm.trans ho
    have hform' : g.hasForm (.link t) .typedef = true := by
      simpa only [Graph.hasForm, hp.form t htSize] using hform
    have htyp' := (hl.typ_typedef htSize hform').symm.trans htyp
    refine .typedef ho' hform' htyp' (ih ?_)
    rintro id rfl
    exact .typedef ht ho' hform' htyp'

/-- What flattening the declarations `tops` of the graph `g` to `out` means for the graph `g'`. -/
structure Flattening (g : Graph) (tops out : List Value) (g' : Graph) : Prop where
  flat : ∀ v ∈ out, ∀ r, g'.Leads v r → g'.nestedIds r = []
  placed : ∀ p c, Reached g tops p → g.Nested p c → ∃ t, Placed g g' out p c t
  kept : tops.Sublist out
  rest : ∀ v ∈ out, v ∈ tops ∨ ∃ p c t, Reached g tops p ∧ g.Nested p c ∧ MadeFor g g' t c ∧
    (v = .link c ∨ v = .link t)
  members : ∀ p, Reached g tops p → g.isContainer (.link p) = true →
    g'.field? (.link p) "members" = some (.list (g.plainMembers p))
  typ_iff : ∀ f < g.entries.size, g'.field? (.link f) "typ" ≠ g.field? (.link f) "typ" ↔
    ∃ p c, Reached g tops p ∧ g.isContainer (.link p) = true ∧ g.Sibling p c f
  typ : ∀ p c f, Reached g tops p → g.isContainer (.link p) = true → g.Sibling p c f →
    ∃ t, MadeFor g g' t c ∧ g'.field? (.link f) "typ" = some (.link t)
  form : ∀ id < g.entries.size, g'.form? (.link id) = g.form? (.link id)
  other : ∀ id < g.entries.size, ∀ name, name ≠ "typ" →
    (name = "members" → ¬ (Reached g tops id ∧ g.isContainer (.link id) = true)) →
    (name = "name" ∨ name = "context" → ∀ p, Reached g tops p → ¬ g.Nested p id) →
    g'.field? (.link id) name = g.field? (.link id) name

theorem Forest.flattening (hf : Forest g tops) (hu : Unfolds g [] tops out new)
    (hl : Lifts g tops new h) : Flattening g tops out h := by
  have hFlat : ∀ {p : Nat}, p ∈ g.underAll new ↔ Reached g tops p ∧
      g.isContainer (.link p) = true :=
    hu.mem_underAll hf hl.root
  have hRest : ∀ v ∈ out, v ∈ tops ∨ ∃ p c t, Reached g tops p ∧ g.Nested p c ∧ MadeFor g h t c ∧
      (v = .link c ∨ v = .link t) := by
    intro v hv
    rcases hu.mem hv with hv | ⟨c, hc, rfl⟩ | ⟨k, -, hk, rfl⟩
    · exact .inl hv
    · obtain ⟨p, hp, hn⟩ := Lifts.nested_of_mem_liftedFrom hf hl.root hc
      obtain ⟨k, hk⟩ := List.getElem?_of_mem hc
      exact .inr ⟨p, c, _, hp, hn, hl.madeFor hk, .inl rfl⟩
    · rw [List.nil_append] at hk
      have hget := List.getElem?_eq_getElem hk
      obtain ⟨p, hp, hn⟩ := Lifts.nested_of_mem_liftedFrom hf hl.root (List.mem_of_getElem? hget)
      exact .inr ⟨p, _, _, hp, hn, hl.madeFor hget, .inr rfl⟩
  obtain ⟨renamed, hp, hRenamed⟩ := id hl.partly
  have hTyp : ∀ p c f, Reached g tops p → g.isContainer (.link p) = true → g.Sibling p c f →
      ∃ t, MadeFor g h t c ∧ h.field? (.link f) "typ" = some (.link t) := by
    intro p c f hpr hc hs
    obtain ⟨k, hk, hf'⟩ := hp.typ p (hFlat.2 ⟨hpr, hc⟩) c f hs
    exact ⟨_, hl.madeFor hk, hf'⟩
  -- a container that is flat has no container left among its members
  have hNone : ∀ r, Reached g tops r → g.isContainer (.link r) = true → h.nestedIds r = [] := by
    intro r hr hc
    rw [nestedIds, List.filterMap_eq_nil_iff]
    intro m hm
    simp only [membersOf, hp.members r (hFlat.2 ⟨hr, hc⟩)] at hm
    apply containerId?_of_not
    simpa [hp.isContainer_eq] using (List.mem_filter.1 hm).2
  refine ⟨?_, fun p c => hf.placed hu hl, hu.sublist, hRest, ?_, ?_, hTyp, hp.form, ?_⟩
  · intro v hv r hLeads
    rcases hRest v hv with hv | ⟨p, c, t, hpr, hn, ht, hv⟩
    · have hroot := hf.root_of_top hv (hl.leads hf (by rintro id rfl; exact .top hv) hLeads)
      exact hNone r hroot.reached hroot.container
    · have hc : h.isContainer (.link c) = true := (hp.isContainer_eq _).trans hn.isContainer
      have hcr : h.Leads (.link c) r := by
        rcases hv with rfl | rfl
        · exact hLeads
        · cases hLeads with
          | container hc' =>
            have hNot : h.hasForm (.link r) .typedef = false := hasForm_of_isContainer h hc' rfl
            simp [Graph.hasForm, ht.form] at hNot
          | typedef _ _ htyp hLeads =>
            obtain rfl := Option.some.inj (ht.typ.symm.trans htyp)
            exact hLeads
      obtain rfl := hcr.eq_of_isContainer hc
      exact hNone c (.member hpr hn) hn.isContainer
  · exact fun p hpr hc => hp.members p (hFlat.2 ⟨hpr, hc⟩)
  · intro f hfSize
    constructor
    · intro hne
      refine Classical.byContradiction fun hNot => hne (hp.typ_old f hfSize fun p hpf c hs => ?_)
      exact hNot ⟨p, c, (hFlat.1 hpf).1, (hFlat.1 hpf).2, hs⟩
    · rintro ⟨p, c, hpr, hc, hs⟩ e
      obtain ⟨t, ht, hft⟩ := hTyp p c f hpr hc hs
      have hct : c = t := by simpa using hs.typ.symm.trans (e.symm.trans hft)
      have h1 := hf.valid c (.member hpr ⟨hc, hs.nested⟩)
      have h2 := ht.new
      omega
  · intro id hid name hTypName hMembers hName
    by_cases e : name = "members"
    · subst e
      exact hp.members_old id hid fun hmem => hMembers rfl (hFlat.1 hmem)
    · by_cases e' : name = "name" ∨ name = "context"
      · refine hp.old id hid (fun hmem => ?_) name e'
        obtain ⟨p, hpr, hn⟩ := Lifts.nested_of_mem_liftedFrom hf hl.root (hRenamed id hmem)
        exact hName e' p hpr hn
      · rw [not_or] at e'
        exact hp.other id hid name (by simp [e, e', hTypName])

/-- **Flattening is complete, lossless and ordered**: over declarations whose containers form a
forest it gives a list, and the list and the graph are as `Flattening` says. -/
theorem flatten_forest {s : Session} {tops : List Value} (hf : Forest s.graph tops) :
    ∃ out s', Gives (flatten (.list tops)) s (.list out) s' ∧
    Flattening s.graph tops out s'.graph := by
  obtain ⟨out, new, h, k, hGives, hUnfolds, hLifts⟩ := gives_flatten hf
  exact ⟨out, _, hGives, hf.flattening hUnfolds hLifts⟩

/-- A typedef of a struct that holds a union with a struct in it. -/
def twoDeep : Graph where
  origin := .unit
  entries := #[
    ⟨.typedef, [("name", .text "T"), ("typ", .link 1), ("context", .nothing)]⟩,
    ⟨.struct, [("name", .text "S"), ("members", .list [.link 2, .link 3]), ("context", .nothing)]⟩,
    ⟨.union, [("name", .text "U"), ("members", .list [.link 4, .link 5]), ("context", .nothing)]⟩,
    ⟨.field, [("name", .text "u"), ("typ", .link 2)]⟩,
    ⟨.struct, [("name", .text "In"), ("members", .list []), ("context", .nothing)]⟩,
    ⟨.field, [("name", .text "in"), ("typ", .link 4)]⟩]

theorem twoDeep_forest : Forest twoDeep [.link 0, .link 1] :=
  .of_ids [0, 1, 2, 4] (10 - ·) (by decide) (by decide) (by decide) (by decide)

theorem flatten_twoDeep : Forest twoDeep [.link 0, .link 1] ∧
    ∃ out s', Gives (flatten (.list [.link 0, .link 1])) { graph := twoDeep } (.list out) s' ∧
      Flattening twoDeep [.link 0, .link 1] out s'.graph :=
  ⟨twoDeep_forest, flatten_forest (s := { graph := twoDeep }) twoDeep_forest⟩

def ownTypedef : Graph where
  origin := .unit
  entries := #[typedefEntry "t" (.link 0) .nothing]

theorem not_gives_flatten_ownTypedef :
    (∀ id, ownTypedef.isContainer (.link id) = false) ∧
      ∀ v s', ¬ Gives (flatten (.list [.link 0])) { graph := ownTypedef } v s' := by
  constructor
  · intro id
    cases id with
    | zero => rfl
    | succ id => simp [Graph.isContainer, form?, Graph.get?, ownTypedef]
  · intro v s' h
    have hRun : StateT.run (ExceptT.run (flatten (.list [.link 0]))) { graph := ownTypedef } =
        (.error .endless, { graph := ownTypedef }) := rfl
    cases congrArg Prod.fst (hRun.symm.trans h)

end PxdGen.Decl
