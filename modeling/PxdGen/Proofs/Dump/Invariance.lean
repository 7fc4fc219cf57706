import Mathlib.Data.Fintype.EquivFin
import PxdGen.Proofs.Decl.Passes
import PxdGen.Proofs.Dump.Result
import PxdGen.Proofs.Dump.Shuffle
/-! # Orders and keys do not matter

What a dump denotes is a graph of declarations. The order of its elements and the keys by which they
name one another only say how the graph is written down. When all keys are resolved, the graphs of
two such dumps differ in their numbers alone, and the passes do not look at these.
-/

namespace PxdGen.Table

open Decl

variable {α : Type}

/-- With distinct keys, an entry is found under its key. -/
theorem get?_of_mem {t : Table Key α}
    (h : t.entries.toList.Pairwise fun e f => (e.1 == f.1) = false) {k : Key} {v : α}
    (hself : (k == k) = true) (hmem : (k, v) ∈ t.entries.toList) : t.get? k = some v := by
  rw [get?_eq]
  generalize t.entries.toList = l at h hmem
  induction l with
  | nil => cases hmem
  | cons e l ih =>
    rw [List.pairwise_cons] at h
    rcases List.mem_cons.1 hmem with rfl | hmem
    · simp [hself]
    · rw [List.find?_cons_of_neg (by simp [h.1 _ hmem])]
      exact ih h.2 hmem

end PxdGen.Table

namespace PxdGen.Dump

open Decl Decl.Work

variable {ρ : String → String} {π : Nat → Nat} {s t : Session} {done done' : List Xml.Event}
variable {i j : Nat} {n : String} {v w : Value}

namespace Shuffled

/-! ### Before keys are resolved -/

theorem surj (h : Shuffled ρ π s t) (j : Nat) : ∃ i, π i = j := by
  by_cases hj : j < s.graph.entries.size
  · let f : Fin s.graph.entries.size → Fin s.graph.entries.size := fun i => ⟨π i, h.lt i.2⟩
    have hf : Function.Injective f := fun i k hik => Fin.ext (h.inj _ _ (Fin.mk.inj hik))
    obtain ⟨i, hi⟩ := Finite.injective_iff_surjective.1 hf ⟨j, hj⟩
    exact ⟨i, Fin.mk.inj hi⟩
  · exact ⟨j, h.fixed j (Nat.le_of_not_lt hj)⟩

theorem get?_none (h : Shuffled ρ π s t) (hi : s.graph.get? i = none) :
    t.graph.get? (π i) = none := by
  have hs : s.graph.entries.size ≤ i := Array.getElem?_eq_none_iff.1 hi
  rw [h.fixed i hs]
  exact Array.getElem?_eq_none_iff.2 (h.size ▸ hs)

theorem form? (h : Shuffled ρ π s t) (i : Nat) :
    t.graph.form? (.link (π i)) = s.graph.form? (.link i) := by
  cases he : s.graph.get? i with
  | none => simp [Graph.form?, he, h.get?_none he]
  | some e =>
    obtain ⟨e', he', hcorr⟩ := h.entry i e he
    rw [Graph.form?_of_get? _ he, Graph.form?_of_get? _ he', hcorr.form]

theorem field? (h : Shuffled ρ π s t) (i : Nat) (n : String) :
    (s.graph.field? (.link i) n = none ∧ t.graph.field? (.link (π i)) n = none) ∨
      ∃ v w, s.graph.field? (.link i) n = some v ∧ t.graph.field? (.link (π i)) n = some w ∧
        Unresolved (Via π s) ρ n v w := by
  cases he : s.graph.get? i with
  | none => exact .inl (by simp [Graph.field?, he, h.get?_none he])
  | some e =>
    obtain ⟨e', he', hcorr⟩ := h.entry i e he
    rw [Graph.field?_of_get? _ he, Graph.field?_of_get? _ he']
    exact hcorr.field n

theorem field?_some (h : Shuffled ρ π s t) (hv : s.graph.field? (.link i) n = some v) :
    ∃ w, t.graph.field? (.link (π i)) n = some w ∧ Unresolved (Via π s) ρ n v w := by
  obtain ⟨hnone, -⟩ | ⟨v', w, hv', hw, hvw⟩ := h.field? i n
  · cases hv.symm.trans hnone
  · obtain rfl := Option.some.inj (hv.symm.trans hv')
    exact ⟨w, hw, hvw⟩

theorem field?_some' (h : Shuffled ρ π s t) (hw : t.graph.field? (.link (π i)) n = some w) :
    ∃ v, s.graph.field? (.link i) n = some v ∧ Unresolved (Via π s) ρ n v w := by
  obtain ⟨-, hnone⟩ | ⟨v, w', hv, hw', hvw⟩ := h.field? i n
  · cases hw.symm.trans hnone
  · obtain rfl := Option.some.inj (hw.symm.trans hw')
    exact ⟨v, hv, hvw⟩

/-- What is registered corresponds, up to its order. -/
theorem values (h : Shuffled ρ π s t) :
    ∃ us, List.Forall₂ (Link π) s.table.values us ∧ t.table.values.Perm us := by
  obtain ⟨T, hT, hperm⟩ := h.table
  refine ⟨T.map Prod.snd, ?_, (hperm.map Prod.snd).symm⟩
  rw [Table.values, List.forall₂_map_left_iff, List.forall₂_map_right_iff]
  refine hT.imp fun f f' hf => ?_
  obtain ⟨i, _, ⟨-, rfl⟩, hi, hj⟩ := hf.value
  exact ⟨i, hi, hj⟩

theorem registered (h : Shuffled ρ π s t) :
    .link (π i) ∈ t.table.values ↔ .link i ∈ s.table.values := by
  obtain ⟨us, hus, hperm⟩ := h.values
  rw [hperm.mem_iff]
  constructor
  · intro hmem
    obtain ⟨v, hv, i', rfl, hi'⟩ := exists_of_forall₂_right hus hmem
    rwa [h.inj _ _ (Value.link.inj hi')]
  · intro hmem
    obtain ⟨w, hw, i', hi', rfl⟩ := exists_of_forall₂_left hus hmem
    rwa [Value.link.inj hi']

/-- What is registered under a key has its counterpart under the new key. -/
theorem named? (h : Shuffled ρ π s t) (ht : Sound done' t) {k : String}
    (hk : Dump.named? s k = some v) :
    ∃ i, v = .link i ∧ Dump.named? t (ρ k) = some (.link (π i)) := by
  obtain ⟨T, hT, hperm⟩ := h.table
  rw [Dump.named?, Table.get?_eq] at hk
  obtain ⟨f, hf, rfl⟩ := Option.map_eq_some_iff.1 hk
  obtain ⟨f', hf', hpair⟩ := exists_of_forall₂_left hT (List.mem_of_find?_eq_some hf)
  obtain ⟨i, _, ⟨-, rfl⟩, hi, hj⟩ := hpair.value
  refine ⟨i, hi, ?_⟩
  have hbeq := List.find?_some hf
  have hkey : f'.1 = .named (.text (ρ k)) := by
    obtain ⟨a, ha, hb⟩ | ⟨_, _, -, hserial, -⟩ := hpair.key
    · rw [ha] at hbeq
      have hak : (a == k) = true := hbeq
      rw [hb, eq_of_beq hak]
    · rw [hserial] at hbeq
      cases hbeq
  refine Table.get?_of_mem ht.distinct ?_ ?_
  · show (ρ k == ρ k) = true
    exact beq_self_eq_true _
  · rw [← hkey, ← hj]
    exact hperm.mem_iff.1 hf'

end Shuffled

end PxdGen.Dump

namespace PxdGen.Decl

variable {ρ : String → String} {π : Nat → Nat} {P : Nat → Nat → Prop} {n : String} {v w : Value}

theorem Unresolved.fresh (hn : n ∉ ["arguments", "values"]) (h : Unresolved P ρ n v w) :
    Fresh ρ n v w := by
  rwa [Unresolved, if_neg (by simpa using hn)] at h

theorem not_mem_parts_of_mem (hn : n ∈ "location" :: keyFields) : n ∉ ["arguments", "values"] :=
  (by decide : ∀ n ∈ "location" :: keyFields, n ∉ ["arguments", "values"]) n hn

theorem Fresh.key (hn : n ∈ singleFields) (h : Fresh ρ n v w) :
    ∃ k, v = .text k ∧ w = .text (ρ k) := by
  simp only [singleFields, List.mem_cons, List.not_mem_nil, or_false] at hn
  rcases hn with rfl | rfl | rfl <;> exact h

theorem Fresh.keys (hn : n ∈ listFields) (h : Fresh ρ n v w) :
    ∃ ks, v = Dump.textList ks ∧ w = Dump.textList (ks.map ρ) := by
  simp only [listFields, List.mem_cons, List.not_mem_nil, or_false] at hn
  rcases hn with rfl | rfl <;> exact h

theorem Fresh.eq_nothing (hn : n ∈ "location" :: keyFields) (h : Fresh ρ n v w) :
    v = .nothing ↔ w = .nothing := by
  rw [List.mem_cons, mem_keyFields] at hn
  rcases hn with rfl | hn | hn
  · obtain ⟨rfl, rfl⟩ | ⟨l, l', rfl, rfl, -⟩ := h <;> simp
  · obtain ⟨k, rfl, rfl⟩ := h.key hn
    simp
  · obtain ⟨ks, rfl, rfl⟩ := h.keys hn
    simp [Dump.textList]

theorem resolved_of_near (hn : n ∈ singleFields) (h : Near π v w) : Resolved π n v w := by
  simp only [singleFields, List.mem_cons, List.not_mem_nil, or_false] at hn
  rcases hn with rfl | rfl | rfl <;> exact h

theorem resolved_of_links (hn : n ∈ listFields) (h : Links π v w) : Resolved π n v w := by
  simp only [listFields, List.mem_cons, List.not_mem_nil, or_false] at hn
  rcases hn with rfl | rfl <;> exact h

theorem textList_injective {ks ks' : List String} (h : Dump.textList ks = Dump.textList ks') :
    ks = ks' :=
  List.map_injective_iff.2 (fun _ _ hab => Value.text.inj hab) (Value.list.inj h)

end PxdGen.Decl

namespace PxdGen.Dump

open Decl Decl.Work

variable {ρ : String → String} {π : Nat → Nat} {s t : Session} {done done' : List Xml.Event}
variable {i j : Nat} {n : String} {v w : Value}

namespace Shuffled

theorem arguments (h : Shuffled ρ π s t) {items : List Value}
    (hitems : t.graph.field? (.link (π j)) "arguments" = some (.list items))
    (hi : .link (π i) ∈ items) :
    ∃ items', s.graph.field? (.link j) "arguments" = some (.list items') ∧ .link i ∈ items' := by
  obtain ⟨v, hv, hvw⟩ := h.field?_some' hitems
  rw [Unresolved, if_pos (.inl rfl)] at hvw
  obtain ⟨vs, ws, rfl, hws, hl⟩ := hvw
  cases hws
  obtain ⟨a, ha, i', _, ⟨-, rfl⟩, rfl, hi'⟩ := exists_of_forall₂_right hl hi
  rw [h.inj _ _ (Value.link.inj hi')]
  exact ⟨vs, hv, ha⟩

theorem arguments' (h : Shuffled ρ π s t) {items : List Value}
    (hitems : s.graph.field? (.link j) "arguments" = some (.list items)) (hi : .link i ∈ items) :
    ∃ items', t.graph.field? (.link (π j)) "arguments" = some (.list items') ∧
        .link (π i) ∈ items' := by
  obtain ⟨w, hw, hvw⟩ := h.field?_some hitems
  rw [Unresolved, if_pos (.inl rfl)] at hvw
  obtain ⟨vs, ws, hvs, rfl, hl⟩ := hvw
  cases hvs
  obtain ⟨b, hb, _, _, ⟨-, rfl⟩, hi', rfl⟩ := exists_of_forall₂_left hl hi
  cases hi'
  exact ⟨ws, hw, hb⟩

theorem isDue (h : Shuffled ρ π s t) : IsDue t (π i) n ↔ IsDue s i n := by
  constructor
  · rintro (⟨hreg, hn, w, hw, hne⟩ | ⟨rfl, j, items, hreg, hform, hitems, hmem⟩)
    · obtain ⟨v, hv, hvw⟩ := h.field?_some' hw
      have hfresh := hvw.fresh (not_mem_parts_of_mem hn)
      exact .inl ⟨h.registered.1 hreg, hn, v, hv, fun e => hne ((hfresh.eq_nothing hn).1 e)⟩
    · obtain ⟨j, rfl⟩ := h.surj j
      obtain ⟨items', hitems', hmem'⟩ := h.arguments hitems hmem
      exact .inr ⟨rfl, j, items', h.registered.1 hreg, h.form? j ▸ hform, hitems', hmem'⟩
  · rintro (⟨hreg, hn, v, hv, hne⟩ | ⟨rfl, j, items, hreg, hform, hitems, hmem⟩)
    · obtain ⟨w, hw, hvw⟩ := h.field?_some hv
      have hfresh := hvw.fresh (not_mem_parts_of_mem hn)
      exact .inl ⟨h.registered.2 hreg, hn, w, hw, fun e => hne ((hfresh.eq_nothing hn).2 e)⟩
    · obtain ⟨items', hitems', hmem'⟩ := h.arguments' hitems hmem
      exact .inr ⟨rfl, π j, items', h.registered.2 hreg, (h.form? j).symm ▸ hform, hitems', hmem'⟩

theorem named?_all (h : Shuffled ρ π s t) (ht : Sound done' t) {ks : List String} {ws : List Value}
    (hks : List.Forall₂ (fun k w => Dump.named? s k = some w) ks ws) :
    ∃ ws', List.Forall₂ (fun k w => Dump.named? t k = some w) (ks.map ρ) ws' ∧
      List.Forall₂ (Link π) ws ws' := by
  induction hks with
  | nil => exact ⟨[], .nil, .nil⟩
  | cons hk _ ih =>
    obtain ⟨ws', hws', hlinks⟩ := ih
    obtain ⟨i, rfl, hi⟩ := h.named? ht hk
    exact ⟨.link (π i) :: ws', .cons hi hws', .cons ⟨i, rfl, rfl⟩ hlinks⟩

/-- What a field comes to hold corresponds to what its counterpart comes to hold. -/
theorem becomes (h : Shuffled ρ π s t) (ht : Sound done' t) {v' : Value} (hb : Becomes s n v w)
    (hv : Unresolved (Via π s) ρ n v v') : ∃ w', Becomes t n v' w' ∧ Resolved π n w w' := by
  have hfresh := hv.fresh (not_mem_parts_of_mem hb.mem)
  cases hb with
  | key hn hk =>
    obtain ⟨k, hk', rfl⟩ := hfresh.key hn
    cases hk'
    obtain ⟨i, rfl, hi⟩ := h.named? ht hk
    exact ⟨_, .key hn hi, resolved_of_near hn (.inl ⟨i, rfl, rfl⟩)⟩
  | keys hn hks =>
    obtain ⟨ks, hks', rfl⟩ := hfresh.keys hn
    obtain rfl := textList_injective hks'
    obtain ⟨ws', hws', hlinks⟩ := h.named?_all ht hks
    exact ⟨_, .keys hn hws', resolved_of_links hn ⟨_, _, rfl, rfl, hlinks⟩⟩
  | location hl hline hfile hname =>
    obtain ⟨hnothing, -⟩ | ⟨l, l', hl', rfl, hpieces⟩ := hfresh
    · cases hnothing
    cases hl'
    obtain ⟨i, rfl, hi⟩ := h.named? ht hfile
    obtain ⟨name', hname', heq⟩ := h.field?_some hname
    obtain ⟨rfl, -⟩ := heq.fresh (by decide)
    exact ⟨_, .location (hpieces _ _ hl) hline hi hname', rfl⟩

end Shuffled

theorem forall₂_eq_of_unique {α β : Type} {R : α → β → Prop}
    (hR : ∀ a b b', R a b → R a b' → b = b') {as : List α} {bs bs' : List β}
    (h : List.Forall₂ R as bs) (h' : List.Forall₂ R as bs') : bs = bs' := by
  induction h generalizing bs' with
  | nil =>
    cases h'
    rfl
  | cons hab _ ih =>
    cases h' with
    | cons hab' hrest => rw [hR _ _ _ hab hab', ih hrest]

theorem Becomes.unique {w' : Value} (h : Becomes s n v w) (h' : Becomes s n v w') : w = w' := by
  cases h with
  | key hn hk =>
    cases h' with
    | key _ hk' => exact Option.some.inj (hk.symm.trans hk')
    | location => exact absurd hn (by decide)
  | @keys _ ks _ hn hks =>
    generalize hv : textList ks = v at h'
    cases h' with
    | key | location => cases hv
    | keys _ hks' =>
      obtain rfl := textList_injective hv
      rw [forall₂_eq_of_unique (fun _ _ _ hb hb' => Option.some.inj (hb.symm.trans hb')) hks hks']
  | location hl hline hfile hname =>
    cases h' with
    | key hn => exact absurd hn (by decide)
    | location hl' hline' hfile' hname' =>
      cases hl.symm.trans hl'
      cases hline.symm.trans hline'
      cases hfile.symm.trans hfile'
      cases hname.symm.trans hname'
      rfl

theorem not_blocked {Q : Places} {f : Fault} (h : ∀ i n, Q i n → ∃ v w,
    s.graph.field? (.link i) n = some v ∧ Becomes s n v w) : ¬ Blocked s Q f := by
  intro hblocked
  cases hblocked with
  | missing hk hQ hat =>
    obtain ⟨v, w, hv, hbecomes⟩ := h _ _ hQ
    cases hbecomes with
    | key hn hk' =>
      rw [(keyAt_text hn hv _).1 hat, hk'] at hk
      cases hk
    | keys hn hks =>
      obtain ⟨w, -, hw⟩ := exists_of_forall₂_left hks ((keyAt_textList hn hv _).1 hat)
      cases hk.symm.trans hw
    | location hl _ hfile _ =>
      rw [(keyAt_location hl hv _).1 hat, hfile] at hk
      cases hk
  | malformed _ hQ hl hmalformed =>
    obtain ⟨v, w, hv, hbecomes⟩ := h _ _ hQ
    obtain rfl := Option.some.inj (hl.symm.trans hv)
    cases hbecomes with
    | key hn => exact absurd hn (by decide)
    | location hpieces hline _ _ =>
      rw [isLocation_iff.2 ⟨_, _, _, hpieces, hline⟩] at hmalformed
      cases hmalformed

/-! ### When keys are resolved -/

/-- What is not due is nothing, or holds keys that stay. -/
theorem Shuffled.resolved_of_not_due (hs : Sound done s) (hdue : ¬ IsDue s i n)
    (hv : s.graph.field? (.link i) n = some v) (h : Unresolved (Via π s) ρ n v w) :
    Resolved π n v w := by
  by_cases hn : n ∈ ["arguments", "values"]
  · rw [Unresolved, if_pos (by simpa using hn)] at h
    obtain ⟨vs, ws, rfl, rfl, hl⟩ := h
    have hlinks : Links π (.list vs) (.list ws) := by
      refine ⟨vs, ws, rfl, rfl, hl.imp fun a b hab => ?_⟩
      obtain ⟨i, _, ⟨-, rfl⟩, rfl, rfl⟩ := hab
      exact ⟨i, rfl, rfl⟩
    simp only [List.mem_cons, List.not_mem_nil, or_false] at hn
    rcases hn with rfl | rfl <;> exact hlinks
  have hfresh := h.fresh hn
  by_cases hsingle : n ∈ singleFields
  · obtain ⟨k, rfl, rfl⟩ := hfresh.key hsingle
    exact resolved_of_near hsingle (.inr ⟨k, ρ k, rfl, rfl⟩)
  by_cases hkeys : n ∈ "location" :: keyFields
  · have hnothing : v = .nothing := by
      by_contra hne
      obtain ⟨e, he, hget⟩ := Option.bind_eq_some_iff.1 hv
      cases hstanding : isStanding e.form with
      | true => exact hdue (.inl ⟨hs.complete i e he hstanding, hkeys, v, hv, hne⟩)
      | false =>
        obtain ⟨-, rfl⟩ := hs.isArgument he hstanding hkeys hget hne
        exact hsingle (by decide)
    obtain rfl := (hfresh.eq_nothing hkeys).1 hnothing
    subst hnothing
    rw [List.mem_cons, mem_keyFields] at hkeys
    rcases hkeys with rfl | hkeys | hkeys
    · rfl
    · exact absurd hkeys hsingle
    · obtain ⟨ks, hks, -⟩ := hfresh.keys hkeys
      cases hks
  · unfold Fresh at hfresh
    split at hfresh
    case h_9 => exact hfresh
    case h_10 =>
      unfold Resolved
      split <;> first | contradiction | exact hfresh
    case h_6 | h_7 => exact absurd (by decide) hn
    all_goals exact absurd (by decide) hkeys

/-- **Graphs whose keys are resolved differ in their numbers only.** -/
theorem Shuffled.alike (h : Shuffled ρ π s t) (hs : Sound done s) (ht : Sound done' t)
    {s₁ t₁ : Session} (hmid : Midway s (IsDue s) s₁) (hmid' : Midway t (IsDue t) t₁) :
    Alike π s₁ t₁ where
  origin := ⟨hmid.origin.trans hs.origin, hmid'.origin.trans ht.origin⟩
  size := by rw [hmid.size, hmid'.size, h.size]
  inj := h.inj
  fixed := by
    rw [hmid.size]
    exact h.fixed
  entry := by
    intro i e he
    have hlt : i < s.graph.entries.size := hmid.size ▸ Graph.lt_size_of_get? _ he
    have hlt' : π i < t₁.graph.entries.size := by
      rw [hmid'.size, h.size]
      exact h.lt hlt
    have he' : t₁.graph.get? (π i) = some t₁.graph.entries[π i] := Array.getElem?_eq_getElem hlt'
    refine ⟨_, he', ?_, fun n => ?_⟩
    · have hform := h.form? i
      rw [← hmid.form, ← hmid'.form, Graph.form?_of_get? _ he, Graph.form?_of_get? _ he'] at hform
      exact Option.some.inj hform
    rw [← Graph.field?_of_get? _ he, ← Graph.field?_of_get? _ he']
    by_cases hdue : IsDue s i n
    · obtain ⟨v, w, hv, hw, hbecomes⟩ := hmid.become i n hdue
      obtain ⟨v', w', hv', hw', hbecomes'⟩ := hmid'.become (π i) n (h.isDue.2 hdue)
      obtain ⟨v'', hv'', hvv⟩ := h.field?_some hv
      obtain rfl := Option.some.inj (hv'.symm.trans hv'')
      obtain ⟨w'', hbecomes'', hresolved⟩ := h.becomes ht hbecomes hvv
      obtain rfl := hbecomes'.unique hbecomes''
      exact .inr ⟨w, w', hw, hw', hresolved⟩
    · rw [hmid.kept i n hdue, hmid'.kept (π i) n fun hd => hdue (h.isDue.1 hd)]
      obtain hnone | ⟨v, w, hv, hw, hvw⟩ := h.field? i n
      · exact .inl hnone
      · exact .inr ⟨v, w, hv, hw, resolved_of_not_due hs hdue hv hvw⟩

/-- What is handed on corresponds, up to its order. -/
theorem Shuffled.interesting (h : Shuffled ρ π s t) (hs : Sound done s) (ht : Sound done' t) :
    ∃ us, List.Forall₂ (Link π) (Dump.interesting s) us ∧ (Dump.interesting t).Perm us := by
  obtain ⟨us, hus, hperm⟩ := h.values
  refine ⟨us.filter _, List.rel_filter (fun v w hvw => ?_) hus, hperm.filter _⟩
  obtain ⟨i, rfl, rfl⟩ := hvw
  simp only [h.form?, hs.origin, ht.origin]

theorem Sound.one_global {s₁ : Session} (hs : Sound done s) (hmid : Midway s (IsDue s) s₁)
    (hone : done.countP isGlobalStart ≤ 1) {a b : Value} (ha : a ∈ Dump.interesting s)
    (hb : b ∈ Dump.interesting s) (ha' : s₁.graph.isGlobal a = true)
    (hb' : s₁.graph.isGlobal b = true) : a = b := by
  have hsame : ∀ i, s₁.graph.isGlobal (.link i) = s.graph.isGlobal (.link i) := by
    intro i
    rw [Graph.isGlobal, Graph.isGlobal, Graph.hasForm, Graph.hasForm, hmid.form,
      hmid.field?_other i (by decide)]
  obtain ⟨i, -, rfl, -⟩ := hs.registered a (List.mem_filter.1 ha).1
  obtain ⟨j, -, rfl, -⟩ := hs.registered b (List.mem_filter.1 hb).1
  rw [hsame] at ha' hb'
  rw [hs.oneGlobal hone i j ha' hb']

/-- **Declarations that correspond are handed on from sessions that correspond.** -/
theorem Shuffled.gives_result (h : Shuffled ρ π s t) (hs : Sound done s) (ht : Sound done' t)
    {vs : List Value} {s₁ : Session} (hgives : Gives Decl.result s vs s₁) :
    ∃ w w' t₁, vs = Dump.interesting s ∧ Midway { s with warnings := w } (IsDue s) s₁ ∧
      Gives Decl.result t (Dump.interesting t) t₁ ∧
      Midway { t with warnings := w' } (IsDue t) t₁ := by
  obtain ⟨s₀, hrevision⟩ := gives_checkRevision_of_result hs.origin hgives
  have hlength := fun r hr hold => length_of_gives_checkRevision hrevision (r := r) hr hold
  obtain ⟨w, hw⟩ := gives_checkRevision hlength
  obtain ⟨w', hw'⟩ := gives_checkRevision (s := t) fun r hr => hlength r (h.revision ▸ hr)
  obtain ⟨s₁', hresult, hmid, -⟩ | ⟨f, s', herror, -⟩ := hs.result hw
  · obtain ⟨rfl, rfl⟩ := hresult.unique hgives
    obtain ⟨t₁, hresult', hmid', -⟩ | ⟨f, t', -, hblocked⟩ := ht.result hw'
    · exact ⟨w, w', t₁, rfl, hmid, hresult', hmid'⟩
    · refine absurd hblocked (not_blocked fun j n hdue => ?_)
      obtain ⟨i, rfl⟩ := h.surj j
      obtain ⟨v, _, hv, -, hbecomes⟩ := hmid.become i n (h.isDue.1 hdue)
      obtain ⟨v', hv', hvv⟩ := h.field?_some hv
      obtain ⟨_, hbecomes', -⟩ := h.becomes ht hbecomes.of_warnings hvv
      exact ⟨v', _, hv', hbecomes'⟩
  · rw [gives_iff_outcome.1 hgives] at herror
    cases herror

/-! ### The text of the pxd file -/

/-- The text of the pxd file for a dump. -/
def codeOf (document : String) (header stem : Value) : Work String := do
  let ready ← prepare (.list (← parse document))
  (← draft ready header stem).code

end PxdGen.Dump

namespace PxdGen.Decl

open Work

variable {π : Nat → Nat} {v w : Value}

theorem follows_draft (header stem : Value) (h : Links π v w) :
    Mirrors π Eq (draft v header stem) (draft w header stem) := by
  refine .bindEq (follows_moduleOf header h) fun module => ?_
  split
  · exact .pure rfl
  · exact .throw _

/-- **The passes do not look at numbers, nor at where the global namespace stands.** -/
theorem Alike.gives_code {s t s' : Session} (h : Alike π s t) {vs us ws : List Value}
    (hus : List.Forall₂ (Link π) vs us) (hws : ws.Perm us)
    (hone : ∀ a ∈ vs, ∀ b ∈ vs, s.graph.isGlobal a = true → s.graph.isGlobal b = true → a = b)
    {header stem : Value} {code : String}
    (hx : Gives (prepare (.list vs) >>= fun ready => draft ready header stem >>= fun d => d.code) s
      code s') :
    ∃ t', Gives (prepare (.list ws) >>= fun ready => draft ready header stem >>= fun d => d.code) t
      code t' := by
  obtain ⟨ready, s₁, hprepare, hcode⟩ := gives_bind.1 hx
  obtain ⟨toplevel, s₂, hfind, hpasses⟩ := gives_bind.1 hprepare
  obtain ⟨rfl, toplevel', hfind', hlinks⟩ := h.gives_findToplevel hus hws hone hfind
  have hpasses := gives_after gives_origin hpasses
  simp only [h.origin.1] at hpasses
  have hrest : Mirrors π (Links π)
      (sortByLocation toplevel >>= fun v => flatten v >>= fun v => filterIgnored v)
      (sortByLocation toplevel' >>= fun v => flatten v >>= fun v => filterIgnored v) :=
    .bind (follows_sortByLocation hlinks) fun _ _ h =>
      .bind (follows_flatten h) fun _ _ h => follows_filterIgnored h
  obtain ⟨ready', t₁, hpasses', hready, hnext⟩ := hrest h hpasses
  have hprepare' : Gives (prepare (.list ws)) t ready' t₁ := by
    refine hfind'.bind (gives_origin.bind ?_)
    simp only [h.origin.2]
    exact hpasses'
  have hdraft : Mirrors π Eq (draft ready header stem >>= fun d => d.code)
      (draft ready' header stem >>= fun d => d.code) :=
    .bindEq (follows_draft header stem hready) follows_code
  obtain ⟨_, t', hcode', rfl, -⟩ := hdraft hnext hcode
  exact ⟨t', hprepare'.bind hcode'⟩

end PxdGen.Decl

namespace PxdGen.Dump

open Decl Decl.Work

variable {ρ : String → String} {π : Nat → Nat} {s t : Session} {events events' : List Xml.Event}

/-- Sessions that correspond give the same text. -/
theorem Shuffled.gives_codeOf (h : Shuffled ρ π s t) (hs : Sound events s) (ht : Sound events' t)
    (hone : events.countP isGlobalStart ≤ 1) {document document' : String}
    (hread : Gives (readDocument document) {} () s)
    (hread' : Gives (readDocument document') {} () t) {header stem : Value} {code : String}
    {s' : Session} (hcode : Gives (codeOf document header stem) {} code s') :
    ∃ t', Gives (codeOf document' header stem) {} code t' := by
  obtain ⟨vs, s₁, hparse, hcode⟩ := gives_bind.1 hcode
  obtain ⟨_, s₀, hread₀, hresult⟩ := gives_bind.1 hparse
  obtain ⟨-, rfl⟩ := hread₀.unique hread
  obtain ⟨w, w', t₁, rfl, hmid, hresult', hmid'⟩ := h.gives_result hs ht hresult
  have hwarned : Shuffled ρ π { s₀ with warnings := w } { t with warnings := w' } := { h with }
  have hs' : Sound events { s₀ with warnings := w } := { hs with }
  have ht' : Sound events' { t with warnings := w' } := { ht with }
  have halike := hwarned.alike hs' ht' hmid hmid'
  obtain ⟨us, hus, hws⟩ := h.interesting hs ht
  obtain ⟨t', hcode'⟩ := halike.gives_code hus hws (fun a ha b hb => hs'.one_global hmid hone ha hb)
    hcode
  exact ⟨t', (hread'.bind hresult').bind hcode'⟩

end PxdGen.Dump
