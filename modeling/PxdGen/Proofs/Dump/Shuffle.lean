import Mathlib.Data.List.Perm.Basic
import PxdGen.Proofs.Dump.Block
/-! # The same elements in another order

When the elements of a dump are read in another order and under other keys, the same declarations
are made under other numbers. `Shuffled` says so of two sessions: each declaration of the one has a
counterpart in the other, and the tables enter counterparts under keys that correspond.
-/

namespace PxdGen.Decl

/-! ### Two renamings in a row -/

theorem forall₂_trans {α β γ : Type} {R : α → β → Prop} {S : β → γ → Prop} {T : α → γ → Prop}
    (hRS : ∀ a b c, R a b → S b c → T a c) {as : List α} {bs : List β} {cs : List γ}
    (h : List.Forall₂ R as bs) (h' : List.Forall₂ S bs cs) : List.Forall₂ T as cs := by
  induction h generalizing cs with
  | nil =>
    cases h'
    exact .nil
  | cons hab _ ih =>
    cases h' with
    | cons hbc hrest => exact .cons (hRS _ _ _ hab hbc) (ih hrest)

variable {ρ ρ' : String → String} {P P' P'' : Nat → Nat → Prop} {u v w : Value} {name : String}

theorem Fresh.trans (h : Fresh ρ name u v) (h' : Fresh ρ' name v w) : Fresh (ρ' ∘ ρ) name u w := by
  revert h h'
  unfold Fresh
  split <;> intro h h'
  case h_1 | h_2 | h_3 =>
    obtain ⟨k, rfl, rfl⟩ := h
    obtain ⟨k', hk, rfl⟩ := h'
    cases hk
    exact ⟨k, rfl, rfl⟩
  case h_4 | h_5 =>
    obtain ⟨ks, rfl, rfl⟩ := h
    obtain ⟨ks', hks, rfl⟩ := h'
    have hinj : ks' = ks.map ρ := by
      have htexts : ks'.map Value.text = (ks.map ρ).map .text := (Value.list.inj hks).symm
      exact (List.map_injective_iff.2 fun a b hab => Value.text.inj hab) htexts
    exact ⟨ks, rfl, by rw [hinj, List.map_map]⟩
  case h_6 | h_7 => exact ⟨h.1, h'.2⟩
  case h_8 =>
    obtain ⟨rfl, rfl⟩ | ⟨l, l', rfl, rfl, hl⟩ := h
    · obtain ⟨-, rfl⟩ | ⟨l, l', hl, -⟩ := h'
      · exact .inl ⟨rfl, rfl⟩
      · cases hl
    · obtain ⟨hl', -⟩ | ⟨m, m', hm, rfl, hl'⟩ := h'
      · cases hl'
      · cases hm
        exact .inr ⟨l, m', rfl, rfl, fun file line hp => hl' _ _ (hl file line hp)⟩
  case h_9 => exact ⟨h'.1.trans h.1, h.2⟩
  case h_10 => exact h'.trans h

theorem LinkBy.trans (hP : ∀ i j k, P i j → P' j k → P'' i k) (h : LinkBy P u v)
    (h' : LinkBy P' v w) : LinkBy P'' u w := by
  obtain ⟨i, j, hij, rfl, rfl⟩ := h
  obtain ⟨j', k, hjk, hj, rfl⟩ := h'
  cases hj
  exact ⟨i, k, hP i j k hij hjk, rfl, rfl⟩

theorem Unresolved.trans (hP : ∀ i j k, P i j → P' j k → P'' i k) (h : Unresolved P ρ name u v)
    (h' : Unresolved P' ρ' name v w) : Unresolved P'' (ρ' ∘ ρ) name u w := by
  unfold Unresolved at h h' ⊢
  by_cases hname : name = "arguments" ∨ name = "values"
  · rw [if_pos hname] at h h' ⊢
    obtain ⟨us, vs, rfl, rfl, huv⟩ := h
    obtain ⟨vs', ws, hvs, rfl, hvw⟩ := h'
    cases hvs
    refine ⟨us, ws, rfl, rfl, forall₂_trans ?_ huv hvw⟩
    exact fun _ _ _ => LinkBy.trans hP
  · rw [if_neg hname] at h h' ⊢
    exact h.trans h'

theorem Entry.Corresponds.trans {C C' C'' : String → Value → Value → Prop}
    (hC : ∀ name u v w, C name u v → C' name v w → C'' name u w) {e e' e'' : Entry}
    (h : e.Corresponds C e') (h' : e'.Corresponds C' e'') : e.Corresponds C'' e'' where
  form := h'.form.trans h.form
  field := by
    intro name
    obtain ⟨hu, hv⟩ | ⟨u, v, hu, hv, huv⟩ := h.field name <;>
      obtain ⟨hv', hw⟩ | ⟨v', w, hv', hw, hvw⟩ := h'.field name
    · exact .inl ⟨hu, hw⟩
    · cases hv.symm.trans hv'
    · cases hv.symm.trans hv'
    · obtain rfl := Option.some.inj (hv.symm.trans hv')
      exact .inr ⟨u, w, hu, hw, hC name u v w huv hvw⟩

end PxdGen.Decl

namespace PxdGen.Dump

open Decl Decl.Work

variable {ρ ρ' : String → String} {π π' : Nat → Nat} {b c s s' t u : Session}
variable {done done' : List Xml.Event}

theorem KeyPair.trans {P P' P'' : Nat → Nat → Prop} (hP : ∀ i j k, P i j → P' j k → P'' i k)
    {f f' f'' : Key × Value} (h : KeyPair P ρ f f') (h' : KeyPair P' ρ' f' f'') :
    KeyPair P'' (ρ' ∘ ρ) f f'' where
  key := by
    obtain ⟨a, ha, hb⟩ | ⟨i, j, hij, hi, hj⟩ := h.key <;>
      obtain ⟨a', ha', hb'⟩ | ⟨i', j', hij', hi', hj'⟩ := h'.key
    · cases hb.symm.trans ha'
      exact .inl ⟨a, ha, hb'⟩
    · cases hb.symm.trans hi'
    · cases hj.symm.trans ha'
    · cases hj.symm.trans hi'
      exact .inr ⟨i, j', hP _ _ _ hij hij', hi, hj'⟩
  value := h.value.trans hP h'.value

/-! ### Sessions that correspond -/

/-- The numbers of a declaration and of its counterpart. -/
def Via (π : Nat → Nat) (s : Session) (i j : Nat) : Prop := i < s.graph.entries.size ∧ j = π i

theorem Via.trans (i j k : Nat) (hij : Via π s i j) (hjk : Via π' t j k) : Via (π' ∘ π) s i k :=
  ⟨hij.1, by rw [hjk.2, hij.2]; rfl⟩

/-- Between elements, sessions in which the same has been read, in another order and under other
keys. -/
structure Shuffled (ρ : String → String) (π : Nat → Nat) (s t : Session) : Prop where
  size : t.graph.entries.size = s.graph.entries.size
  inj : ∀ i j, π i = π j → i = j
  fixed : ∀ i, s.graph.entries.size ≤ i → π i = i
  entry : ∀ i e, s.graph.get? i = some e →
    ∃ e', t.graph.get? (π i) = some e' ∧ e.Corresponds (Unresolved (Via π s) ρ) e'
  table : ∃ T, List.Forall₂ (KeyPair (Via π s) ρ) s.table.entries.toList T ∧
    T.Perm t.table.entries.toList
  revision : t.revision = s.revision

namespace Shuffled

theorem empty : Shuffled ρ id {} {} where
  size := rfl
  inj := fun _ _ h => h
  fixed := fun _ _ => rfl
  entry := by simp [Graph.get?]
  table := ⟨[], by simp, by simp⟩
  revision := rfl

theorem lt (h : Shuffled ρ π s t) {i : Nat} (hi : i < s.graph.entries.size) :
    π i < s.graph.entries.size := by
  by_contra hle
  have := h.inj _ _ (h.fixed (π i) (by omega))
  omega

theorem trans (h : Shuffled ρ π s t) (h' : Shuffled ρ' π' t u) :
    Shuffled (ρ' ∘ ρ) (π' ∘ π) s u where
  size := h'.size.trans h.size
  inj := fun i j hij => h.inj i j (h'.inj _ _ hij)
  fixed := fun i hi => by
    rw [Function.comp_apply, h.fixed i hi, h'.fixed i (h.size ▸ hi)]
  entry := by
    intro i e he
    obtain ⟨e', he', hcorr⟩ := h.entry i e he
    obtain ⟨e'', he'', hcorr'⟩ := h'.entry _ e' he'
    refine ⟨e'', he'', Entry.Corresponds.trans ?_ hcorr hcorr'⟩
    exact fun _ _ _ _ => Unresolved.trans Via.trans
  table := by
    obtain ⟨T, hT, hperm⟩ := h.table
    obtain ⟨U, hU, hperm'⟩ := h'.table
    obtain ⟨V, hV, hVU⟩ := List.perm_comp_forall₂ hperm hU
    refine ⟨V, forall₂_trans ?_ hT hV, hVU.trans hperm'⟩
    exact fun _ _ _ => KeyPair.trans Via.trans
  revision := h'.revision.trans h.revision

/-- What is read next on both sides gets the same numbers. -/
theorem extend (h : Shuffled ρ π b c) (hp : Parallel ρ b c s t) : Shuffled ρ π s t := by
  have hstart := hp.start
  have hsize := hp.size
  have hsize' := h.size
  have hvia : ∀ i j, Via π b i j → Via π s i j := fun i j hij => ⟨by have := hij.1; omega, hij.2⟩
  have hbeside : ∀ i j, Beside b c s i j → Via π s i j := by
    intro i j hij
    obtain ⟨hi, hi', hj⟩ := hij
    exact ⟨hi', by rw [h.fixed i hi]; omega⟩
  constructor
  case size => omega
  case inj => exact h.inj
  case fixed => exact fun i hi => h.fixed i (by omega)
  case entry =>
    intro i e he
    by_cases hi : i < b.graph.entries.size
    · rw [hp.left i hi] at he
      obtain ⟨e', he', hcorr⟩ := h.entry i e he
      have hlt : π i < c.graph.entries.size := hsize' ▸ h.lt hi
      exact ⟨e', (hp.right _ hlt).trans he', hcorr.mono fun _ _ _ => Unresolved.mono hvia⟩
    · have hlt := Graph.lt_size_of_get? _ he
      obtain ⟨e', he', hpairs⟩ := hp.entry i i e ⟨by omega, hlt, by omega⟩ he
      rw [h.fixed i (by omega)]
      exact ⟨e', he', hpairs.corresponds.mono fun _ _ _ => Unresolved.mono hbeside⟩
  case table =>
    obtain ⟨T, hT, hperm⟩ := h.table
    obtain ⟨U, U', hU, hU', hUU⟩ := hp.table
    refine ⟨T ++ U', ?_, ?_⟩
    · rw [hU]
      exact List.rel_append (hT.imp fun _ _ => KeyPair.mono hvia)
        (hUU.imp fun _ _ => KeyPair.mono hbeside)
    · rw [hU']
      exact hperm.append_right U'
  case revision =>
    obtain ⟨hs, ht⟩ | hst := hp.revision
    · rw [ht, hs, h.revision]
    · exact hst

/-- **Two readings of the same elements.** -/
theorem forM (h : Shuffled ρ π s t) (hs : Sound done s) (ht : Sound done' t) (hs₀ : s.context = [])
    (ht₀ : t.context = []) {events events' : List Xml.Event}
    (hevents : List.Forall₂ (RenamedEvent ρ) events events')
    (hread : ∀ ev ∈ events, isRead ev = true) (hids : (ids (done ++ events)).Nodup)
    (hids' : (ids (done' ++ events')).Nodup) (hgives : Gives (events.forM takeEvent) s () s') :
    ∃ t', Gives (events'.forM takeEvent) t () t' ∧ Shuffled ρ π s' t' := by
  obtain ⟨t', hgives', hp⟩ := Parallel.forM hevents (.refl hs₀ ht₀) hs ht hread hids hids' hgives
  exact ⟨t', hgives', h.extend hp⟩

end Shuffled

theorem forall₂_renamedEvent_refl (events : List Xml.Event) :
    List.Forall₂ (RenamedEvent id) events events :=
  List.forall₂_same.2 fun ev _ => .refl ev

theorem Shuffled.self_forM (h : Shuffled id id s s) (hs : Sound done s) (hs₀ : s.context = [])
    {events : List Xml.Event} (hread : ∀ ev ∈ events, isRead ev = true)
    (hids : (ids (done ++ events)).Nodup) (hgives : Gives (events.forM takeEvent) s () s') :
    Shuffled id id s' s' := by
  obtain ⟨t, hgives', h'⟩ := h.forM hs hs hs₀ hs₀ (forall₂_renamedEvent_refl events) hread hids hids
    hgives
  obtain ⟨-, rfl⟩ := hgives.unique hgives'
  exact h'

/-! ### Elements that trade places -/

/-- Moves what is made by the first of two elements behind what is made by the second. -/
def exchange (n first second i : Nat) : Nat :=
  if i < n then i
  else if i < n + first then i + second
  else if i < n + first + second then i - first
  else i

theorem exchange_of_lt {n first second i : Nat} (h : i < n) : exchange n first second i = i :=
  if_pos h

theorem exchange_inj {n first second : Nat} (i j : Nat)
    (h : exchange n first second i = exchange n first second j) : i = j := by
  unfold exchange at h
  split at h <;> split at h <;> (try split at h) <;> (try split at h) <;> (try split at h) <;>
    (try split at h) <;> omega

theorem Shuffled.exchange {s₁ s₂ t₁ t₂ : Session} (hself : Shuffled id id s s)
    (h₁ : Parallel id s t₁ s₁ t₂) (h₂ : Parallel id s₁ s s₂ t₁)
    (hrevision : t₂.revision = s₂.revision) : ∃ π, Shuffled id π s₂ t₂ := by
  have hsize₁ := h₁.size
  have hsize₂ := h₂.size
  have hstart₁ := h₁.start
  have hstart₂ := h₂.start
  obtain ⟨a, ha⟩ := Nat.exists_eq_add_of_le hstart₁
  obtain ⟨d, hd⟩ := Nat.exists_eq_add_of_le hstart₂
  let π := Dump.exchange s.graph.entries.size a d
  have hold : ∀ i j, Via id s i j → Via π s₂ i j := by
    rintro i j ⟨hi, rfl⟩
    exact ⟨by omega, (exchange_of_lt hi).symm⟩
  have hfirst : ∀ i j, Beside s t₁ s₁ i j → Via π s₂ i j := by
    rintro i j ⟨hi, hi', hj⟩
    refine ⟨by omega, ?_⟩
    show j = Dump.exchange _ a d i
    rw [Dump.exchange, if_neg (by omega), if_pos (by omega)]
    omega
  have hsecond : ∀ i j, Beside s₁ s s₂ i j → Via π s₂ i j := by
    rintro i j ⟨hi, hi', hj⟩
    refine ⟨by omega, ?_⟩
    show j = Dump.exchange _ a d i
    rw [Dump.exchange, if_neg (by omega), if_neg (by omega), if_pos (by omega)]
    omega
  refine ⟨π, ?_⟩
  constructor
  case size => omega
  case inj => exact exchange_inj
  case fixed =>
    intro i hi
    show Dump.exchange _ a d i = i
    rw [Dump.exchange, if_neg (by omega), if_neg (by omega), if_neg (by omega)]
  case entry =>
    intro i e he
    by_cases hi : i < s.graph.entries.size
    · rw [h₂.left i (by omega), h₁.left i hi] at he
      obtain ⟨e', he', hcorr⟩ := hself.entry i e he
      obtain rfl := Option.some.inj (he.symm.trans he')
      refine ⟨e, ?_, hcorr.mono fun _ _ _ => Unresolved.mono hold⟩
      rw [show π i = i from exchange_of_lt hi, h₁.right i (by omega), h₂.right i hi, he]
    by_cases hi' : i < s₁.graph.entries.size
    · rw [h₂.left i hi'] at he
      have hbeside : Beside s t₁ s₁ i (i + d) := ⟨by omega, hi', by omega⟩
      obtain ⟨e', he', hpairs⟩ := h₁.entry i _ e hbeside he
      rw [← (hfirst _ _ hbeside).2]
      exact ⟨e', he', hpairs.corresponds.mono fun _ _ _ => Unresolved.mono hfirst⟩
    · have hlt := Graph.lt_size_of_get? _ he
      have hbeside : Beside s₁ s s₂ i (i - a) := ⟨by omega, hlt, by omega⟩
      obtain ⟨e', he', hpairs⟩ := h₂.entry i _ e hbeside he
      rw [← (hsecond _ _ hbeside).2, h₁.right _ (by omega)]
      exact ⟨e', he', hpairs.corresponds.mono fun _ _ _ => Unresolved.mono hsecond⟩
  case table =>
    obtain ⟨T, hT, hperm⟩ := hself.table
    obtain ⟨U, U', hU, hU', hUU⟩ := h₁.table
    obtain ⟨V, V', hV, hV', hVV⟩ := h₂.table
    refine ⟨T ++ U' ++ V', ?_, ?_⟩
    · rw [hV, hU]
      exact List.rel_append (List.rel_append (hT.imp fun _ _ => KeyPair.mono hold)
        (hUU.imp fun _ _ => KeyPair.mono hfirst)) (hVV.imp fun _ _ => KeyPair.mono hsecond)
    · rw [hU', hV', List.append_assoc, List.append_assoc]
      exact hperm.append List.perm_append_comm
  case revision => exact hrevision

theorem nodup_ids_of_perm {as bs : List Xml.Event} (h : as.Perm bs) (has : (ids as).Nodup) :
    (ids bs).Nodup := (h.filterMap idOf?).nodup_iff.1 has

theorem Shuffled.swap_forM (hs : Sound done s) (hself : Shuffled id id s s) (hs₀ : s.context = [])
    {first second : List Xml.Event} (hfirst : Balanced first) (hsecond : Balanced second)
    (hcontent : ∀ ev ∈ first ++ second, isContent ev = true)
    (hids : (ids (done ++ first ++ second)).Nodup)
    (hgives : Gives ((first ++ second).forM takeEvent) s () s') :
    ∃ t π, Gives ((second ++ first).forM takeEvent) s () t ∧ Shuffled id π s' t := by
  rw [List.forall_mem_append] at hcontent
  have hread :
    ∀ ev ∈ first, isRead ev = true := fun ev hev => isRead_of_isContent (hcontent.1 ev hev)
  have hread' :
    ∀ ev ∈ second, isRead ev = true := fun ev hev => isRead_of_isContent (hcontent.2 ev hev)
  have hids' : (ids (done ++ second ++ first)).Nodup := by
    refine nodup_ids_of_perm ?_ hids
    rw [List.append_assoc, List.append_assoc]
    exact List.perm_append_comm.append_left done
  obtain ⟨s₁, hgives₁, hgives₂⟩ := gives_forM_append.1 hgives
  have hs₁ := hs.forM hread (nodup_ids_left hids) hgives₁
  have hcontext₁ := hfirst hs hread (nodup_ids_left hids) hgives₁
  -- the second element is read from where the first was, and then the first behind it
  obtain ⟨t₁, hgives₁', h₂⟩ := Parallel.forM (forall₂_renamedEvent_refl second)
    (.refl (hcontext₁.trans hs₀) hs₀) hs₁ hs hread' hids (nodup_ids_left hids') hgives₂
  have ht₁ := hs.forM hread' (nodup_ids_left hids') hgives₁'
  have hcontext₁' := hsecond hs hread' (nodup_ids_left hids') hgives₁'
  obtain ⟨t, hgives₂', h₁⟩ := Parallel.forM (forall₂_renamedEvent_refl first)
    (.refl hs₀ (hcontext₁'.trans hs₀)) hs ht₁ hread (nodup_ids_left hids) hids' hgives₁
  obtain ⟨π, hshuffled⟩ := hself.exchange h₁ h₂ <| by
    rw [ht₁.revision_forM hcontent.1 hids' hgives₂',
      hs.revision_forM hcontent.2 (nodup_ids_left hids') hgives₁',
      hs₁.revision_forM hcontent.2 hids hgives₂,
      hs.revision_forM hcontent.1 (nodup_ids_left hids) hgives₁]
  exact ⟨t, π, gives_forM_append.2 ⟨t₁, hgives₁', hgives₂'⟩, hshuffled⟩

/-- **Reading elements in another order.** -/
theorem Shuffled.perm {blocks blocks' : List (List Xml.Event)} (hperm : blocks.Perm blocks') :
    ∀ {done : List Xml.Event} {s s' : Session}, Sound done s → Shuffled id id s s →
      s.context = [] → (∀ block ∈ blocks, IsElement block) →
      (∀ ev ∈ blocks.flatten, isContent ev = true) → (ids (done ++ blocks.flatten)).Nodup →
      Gives (blocks.flatten.forM takeEvent) s () s' →
      ∃ t π, Gives (blocks'.flatten.forM takeEvent) s () t ∧ Shuffled id π s' t := by
  induction hperm with
  | nil =>
    intro done s s' _ hself _ _ _ _ hgives
    obtain rfl := gives_forM_nil.1 hgives
    exact ⟨s', id, hgives, hself⟩
  | @cons block blocks blocks' _ ih =>
    intro done s s' hs hself hs₀ helement hcontent hids hgives
    rw [List.flatten_cons] at hcontent hids hgives ⊢
    rw [← List.append_assoc] at hids
    rw [List.forall_mem_append] at hcontent
    obtain ⟨s₁, hfirst, hrest⟩ := gives_forM_append.1 hgives
    have hread :
      ∀ ev ∈ block, isRead ev = true := fun ev hev => isRead_of_isContent (hcontent.1 ev hev)
    have hs₁ := hs.forM hread (nodup_ids_left hids) hfirst
    have hself₁ := hself.self_forM hs hs₀ hread (nodup_ids_left hids) hfirst
    have hcontext := (helement block List.mem_cons_self).balanced hs hread (nodup_ids_left hids)
      hfirst
    obtain ⟨t, π, hgives', hshuffled⟩ := ih hs₁ hself₁ (hcontext.trans hs₀)
      (fun b hb => helement b (List.mem_cons_of_mem block hb)) hcontent.2 hids hrest
    exact ⟨t, π, gives_forM_append.2 ⟨s₁, hfirst, hgives'⟩, hshuffled⟩
  | swap second first rest =>
    intro done s s' hs hself hs₀ helement hcontent hids hgives
    rw [List.flatten_cons, List.flatten_cons, ← List.append_assoc] at hcontent hgives
    rw [List.forall_mem_append] at hcontent
    have hids : (ids (done ++ (first ++ second) ++ rest.flatten)).Nodup := by
      simpa only [List.flatten_cons, List.append_assoc] using hids
    obtain ⟨s₁, hgives₁, hgives₂⟩ := gives_forM_append.1 hgives
    have hfirst := (helement first (by simp)).balanced
    have hsecond := (helement second (by simp)).balanced
    obtain ⟨t₁, π, hgives₁', hshuffled⟩ := hself.swap_forM hs hs₀ hfirst hsecond hcontent.1
      (List.append_assoc done first second ▸ nodup_ids_left hids) hgives₁
    have hperm : (done ++ (first ++ second)).Perm (done ++ (second ++ first)) :=
      List.perm_append_comm.append_left done
    have hids' := nodup_ids_of_perm (hperm.append_right rest.flatten) hids
    have hread : ∀ ev ∈ first ++ second, isRead ev = true := fun ev hev =>
      isRead_of_isContent (hcontent.1 ev hev)
    have hread' : ∀ ev ∈ second ++ first, isRead ev = true := fun ev hev =>
      hread ev (List.perm_append_comm.mem_iff.1 hev)
    have hcontext := (hfirst.append hsecond) hs hread (nodup_ids_left hids) hgives₁
    have hcontext' := (hsecond.append hfirst) hs hread' (nodup_ids_left hids') hgives₁'
    obtain ⟨t, hgives₂', hshuffled'⟩ := hshuffled.forM (hs.forM hread (nodup_ids_left hids) hgives₁)
      (hs.forM hread' (nodup_ids_left hids') hgives₁') (hcontext.trans hs₀) (hcontext'.trans hs₀)
      (forall₂_renamedEvent_refl _) (fun ev hev => isRead_of_isContent (hcontent.2 ev hev)) hids
      hids' hgives₂
    refine ⟨t, π, ?_, hshuffled'⟩
    rw [List.flatten_cons, List.flatten_cons, ← List.append_assoc]
    exact gives_forM_append.2 ⟨t₁, hgives₁', hgives₂'⟩
  | @trans blocks₁ blocks₂ blocks₃ hperm hperm' ih ih' =>
    intro done s s' hs hself hs₀ helement hcontent hids hgives
    obtain ⟨t, π, hgives', hshuffled⟩ := ih hs hself hs₀ helement hcontent hids hgives
    have hflatten := hperm.flatten
    obtain ⟨u, π', hgives'', hshuffled'⟩ :=
      ih' hs hself hs₀ (fun b hb => helement b (hperm.mem_iff.2 hb))
        (fun ev hev => hcontent ev (hflatten.mem_iff.2 hev))
      (nodup_ids_of_perm (hflatten.append_left done) hids) hgives'
    exact ⟨u, π' ∘ π, hgives'', hshuffled.trans hshuffled'⟩

end PxdGen.Dump
