import PxdGen.Proofs.Flatten.Detach
import PxdGen.Proofs.Flatten.Forest
/-! # Lifting nested containers

While a graph is flattened it is the graph at the beginning with some of its containers flattened
and some of them lifted. `Partly` says what it looks like then: of the containers that are flat only
the members that are no containers are left, a typedef stands for each lifted one, in the order of
lifting, and the fields of the flat containers lead to these typedefs.
-/

namespace PxdGen.Decl

open Work Decl.Graph

/-! ### Positions of nested containers -/

/-- The containers in a list, with their positions. -/
def Graph.placesIn (g : Graph) (vs : List (Value × Nat)) : List (Nat × Nat) :=
  vs.filterMap fun (v, i) => (g.containerId? v).map (i, ·)

theorem Graph.containerId?_of_not {g : Graph} {v : Value} (h : g.isContainer v = false) :
    g.containerId? v = none := by
  cases v <;> simp [containerId?, h]

theorem Graph.placesIn_eq (g : Graph) (vs : List (Value × Nat)) :
    ((vs.filter fun (m, _) => g.isContainer m).map fun (m, i) => (i, m)) =
      (g.placesIn vs).map fun (i, c) => (i, .link c) := by
  induction vs with
  | nil => rfl
  | cons v vs ih =>
    obtain ⟨v, i⟩ := v
    cases hv : g.isContainer v with
    | false =>
      rw [List.filter_cons_of_neg (by simp [hv]), ih, placesIn, placesIn, List.filterMap_cons]
      simp [containerId?_of_not hv]
    | true =>
      obtain ⟨c, -, rfl, -⟩ := form?_eq_of_isContainer g hv
      rw [List.filter_cons_of_pos (by simp [hv]), List.map_cons, ih, placesIn, placesIn,
        List.filterMap_cons]
      simp [containerId?, hv]

theorem Graph.placesIn_snd (g : Graph) (ms : List Value) (n : Nat) :
    (g.placesIn (ms.zipIdx n)).map (·.2) = ms.filterMap g.containerId? := by
  induction ms generalizing n with
  | nil => rfl
  | cons m ms ih =>
    rw [List.zipIdx_cons, placesIn, List.filterMap_cons, List.filterMap_cons]
    cases hm : g.containerId? m with
    | none | some c => simpa [hm, placesIn] using ih (n + 1)

theorem pairwise_zipIdx (ms : List Value) (n : Nat) :
    (ms.zipIdx n).Pairwise fun a b => a.2 < b.2 := by
  induction ms generalizing n with
  | nil => exact .nil
  | cons m ms ih =>
    rw [List.zipIdx_cons, List.pairwise_cons]
    refine ⟨?_, ih (n + 1)⟩
    intro x hx
    have := List.le_snd_of_mem_zipIdx hx
    show n < x.2
    omega

theorem Graph.pairwise_placesIn (g : Graph) (ms : List Value) :
    (g.placesIn ms.zipIdx).Pairwise fun a b => a.1 < b.1 := by
  refine List.Pairwise.filterMap _ ?_ (pairwise_zipIdx ms 0)
  rintro ⟨v, i⟩ ⟨w, j⟩ hij a ha b hb
  obtain ⟨c, -, rfl⟩ := Option.map_eq_some_iff.1 ha
  obtain ⟨d, -, rfl⟩ := Option.map_eq_some_iff.1 hb
  exact hij

theorem Graph.mem_placesIn {g : Graph} {ms : List Value} {q : Nat × Nat}
    (h : q ∈ g.placesIn ms.zipIdx) :
    ms[q.1]? = some (.link q.2) ∧ g.isContainer (.link q.2) = true := by
  obtain ⟨⟨v, i⟩, hv, hq⟩ := List.mem_filterMap.1 h
  obtain ⟨c, hc, rfl⟩ := Option.map_eq_some_iff.1 hq
  have hi := List.mem_zipIdx_iff_getElem?.1 hv
  cases v with
  | link id =>
    simp only [containerId?] at hc
    split at hc
    · obtain rfl : id = c := by simpa using hc
      exact ⟨hi, ‹_›⟩
    · cases hc
  | _ => simp [containerId?] at hc

/-! ### Graphs that are partly flattened -/

/-- The members of a container that are no containers. -/
def Graph.plainMembers (g : Graph) (id : Nat) : List Value :=
  (g.membersOf id).filter fun m => !g.isContainer m

/-- A field of a container whose type is one of the containers nested beside it. -/
structure Graph.Sibling (g : Graph) (p c f : Nat) : Prop where
  nested : c ∈ g.nestedIds p
  mem : .link f ∈ g.membersOf p
  form : g.hasForm (.link f) .field = true
  typ : g.field? (.link f) "typ" = some (.link c)

/-- The graph `h` has come from `g` by flattening the containers `flat` and lifting `lifted`, in
this order; `renamed` are those that have got a new name. -/
structure Partly (g : Graph) (flat lifted renamed : List Nat) (h : Graph) : Prop where
  origin : h.origin = g.origin
  size : h.entries.size = g.entries.size + lifted.length
  form : ∀ id < g.entries.size, h.form? (.link id) = g.form? (.link id)
  made : ∀ k c, lifted[k]? = some c →
    h.form? (.link (g.entries.size + k)) = some .typedef ∧
      h.field? (.link (g.entries.size + k)) "typ" = some (.link c)
  members : ∀ p ∈ flat, h.field? (.link p) "members" = some (.list (g.plainMembers p))
  members_old : ∀ id < g.entries.size, id ∉ flat →
    h.field? (.link id) "members" = g.field? (.link id) "members"
  typ : ∀ p ∈ flat, ∀ c f, g.Sibling p c f → ∃ k, lifted[k]? = some c ∧
    h.field? (.link f) "typ" = some (.link (g.entries.size + k))
  typ_old : ∀ f < g.entries.size, (∀ p ∈ flat, ∀ c, ¬ g.Sibling p c f) →
    h.field? (.link f) "typ" = g.field? (.link f) "typ"
  name : ∀ id ∈ renamed, ∃ t, h.field? (.link id) "name" = some (.text t) ∧ t.isEmpty = false
  context : ∀ id ∈ renamed, ∃ v, h.field? (.link id) "context" = some v
  old : ∀ id < g.entries.size, id ∉ renamed → ∀ name, name = "name" ∨ name = "context" →
    h.field? (.link id) name = g.field? (.link id) name
  other : ∀ id < g.entries.size, ∀ name, name ∉ ["members", "typ", "name", "context"] →
    h.field? (.link id) name = g.field? (.link id) name
  unlocated : ∀ k < lifted.length,
    h.field? (.link (g.entries.size + k)) "location" = some .nothing

variable {g h : Graph} {tops : List Value} {flat lifted renamed : List Nat}

theorem Partly.refl (g : Graph) : Partly g [] [] [] g where
  origin := rfl
  size := rfl
  form _ _ := rfl
  made := by simp
  members := by simp
  members_old _ _ _ := rfl
  typ := by simp
  typ_old _ _ _ := rfl
  name := by simp
  context := by simp
  old _ _ _ _ _ := rfl
  other _ _ _ _ := rfl
  unlocated := by simp

namespace Partly

variable (hp : Partly g flat lifted renamed h)

include hp

theorem form?_eq {v : Value} {form : Form} (hform : form ≠ .typedef) :
    h.form? v = some form ↔ g.form? v = some form := by
  cases v with
  | link id =>
    by_cases hid : id < g.entries.size
    · rw [hp.form id hid]
    · have hg : g.form? (.link id) = none := by
        simp [form?, Graph.get?, Array.getElem?_eq_none (Nat.le_of_not_lt hid)]
      rw [hg]
      constructor
      · intro hh
        have hlt := lt_size_of_form? h hh
        have hsize := hp.size
        obtain ⟨k, rfl⟩ : ∃ k, id = g.entries.size + k := ⟨id - g.entries.size, by omega⟩
        have hk : k < lifted.length := by omega
        have := (hp.made k _ (List.getElem?_eq_getElem hk)).1
        rw [this] at hh
        exact absurd (Option.some.inj hh).symm hform
      · simp
  | _ => simp [form?]

theorem isContainer_eq (v : Value) : h.isContainer v = g.isContainer v := by
  have key : ∀ g' : Graph, g'.isContainer v = true ↔
      g'.form? v = some .struct ∨ g'.form? v = some .union := by
    intro g'
    simp only [Graph.isContainer]
    cases g'.form? v with
    | none => simp
    | some form => cases form <;> simp [Form.isContainer]
  rw [Bool.eq_iff_iff, key, key, hp.form?_eq (by simp), hp.form?_eq (by simp)]

theorem hasField_eq (v : Value) : h.hasForm v .field = g.hasForm v .field := by
  rw [Bool.eq_iff_iff]
  simp only [Graph.hasForm, beq_iff_eq]
  exact hp.form?_eq (by simp)

theorem placesIn_eq (vs : List (Value × Nat)) : h.placesIn vs = g.placesIn vs := by
  have hId : h.containerId? = g.containerId? := by
    funext v
    cases v <;> simp [containerId?, hp.isContainer_eq]
  simp only [placesIn, hId]

theorem lt_size {id : Nat} (hid : id < g.entries.size) : id < h.entries.size := by
  have := hp.size
  omega

theorem field_isSome {id : Nat} {name : String} {v : Value}
    (hv : g.field? (.link id) name = some v) : ∃ w, h.field? (.link id) name = some w := by
  have hid := lt_size_of_field? g hv
  by_cases hname : name ∈ ["members", "typ", "name", "context"]
  · simp only [List.mem_cons, List.not_mem_nil, or_false] at hname
    rcases hname with rfl | rfl | rfl | rfl
    · by_cases hm : id ∈ flat
      · exact ⟨_, hp.members id hm⟩
      · exact ⟨v, (hp.members_old id hid hm).trans hv⟩
    · by_cases hs : ∃ p ∈ flat, ∃ c, g.Sibling p c id
      · obtain ⟨p, hpf, c, hs⟩ := hs
        obtain ⟨k, -, hk⟩ := hp.typ p hpf c id hs
        exact ⟨_, hk⟩
      · refine ⟨v, (hp.typ_old id hid fun p hpf c hsib => ?_).trans hv⟩
        exact hs ⟨p, hpf, c, hsib⟩
    · by_cases hr : id ∈ renamed
      · obtain ⟨t, ht, -⟩ := hp.name id hr
        exact ⟨_, ht⟩
      · exact ⟨v, (hp.old id hid hr _ (.inl rfl)).trans hv⟩
    · by_cases hr : id ∈ renamed
      · exact hp.context id hr
      · exact ⟨v, (hp.old id hid hr _ (.inr rfl)).trans hv⟩
  · exact ⟨v, (hp.other id hid name hname).trans hv⟩

theorem rename {c : Nat} (hc : c < g.entries.size) {t : String} (ht : t.isEmpty = false)
    (v : Value) :
    Partly g flat lifted (c :: renamed) ((h.setField c "name" (.text t)).setField c "context"
        v) := by
  have hField : ∀ id name, ¬ (id = c ∧ (name = "name" ∨ name = "context")) →
      ((h.setField c "name" (.text t)).setField c "context" v).field? (.link id) name =
        h.field? (.link id) name := by
    intro id name hne
    have hlt := hp.lt_size hc
    rw [field?_setField _ (by simpa using hlt), field?_setField _ hlt]
    by_cases h1 : id = c
    · have hn : name ≠ "name" := fun e => hne ⟨h1, .inl e⟩
      have hx : name ≠ "context" := fun e => hne ⟨h1, .inr e⟩
      simp [hn, hx]
    · simp [h1]
  have hForm :
      ∀ w, ((h.setField c "name" (.text t)).setField c "context" v).form? w = h.form? w := by
    simp
  refine ⟨hp.origin, by simpa using hp.size, fun id hid => (hForm _).trans (hp.form id hid), ?_, ?_,
    ?_, ?_, ?_, ?_, ?_, ?_, ?_, ?_⟩
  · intro k d hk
    rw [hForm, hField _ "typ" (by simp)]
    exact hp.made k d hk
  · intro p hpf
    rw [hField p "members" (by simp)]
    exact hp.members p hpf
  · intro id hid hn
    rw [hField id "members" (by simp)]
    exact hp.members_old id hid hn
  · intro p hpf d f hs
    rw [hField f "typ" (by simp)]
    exact hp.typ p hpf d f hs
  · intro f hf hs
    rw [hField f "typ" (by simp)]
    exact hp.typ_old f hf hs
  · intro id hid
    by_cases e : id = c
    · subst e
      refine ⟨t, ?_, ht⟩
      rw [field?_setField _ (by simpa using hp.lt_size hc), if_neg (by simp),
        field?_setField _ (hp.lt_size hc), if_pos ⟨rfl, rfl⟩]
    · rw [hField id "name" fun h => e h.1]
      exact hp.name id (by simpa [e] using hid)
  · intro id hid
    by_cases e : id = c
    · subst e
      exact ⟨v, by rw [field?_setField _ (by simpa using hp.lt_size hc), if_pos ⟨rfl, rfl⟩]⟩
    · rw [hField id "context" fun h => e h.1]
      exact hp.context id (by simpa [e] using hid)
  · intro id hid hn name hname
    have hne : id ≠ c ∧ id ∉ renamed := by simpa using hn
    rw [hField id name fun h => hne.1 h.1]
    exact hp.old id hid hne.2 name hname
  · intro id hid name hname
    have hne : ¬ (id = c ∧ (name = "name" ∨ name = "context")) := by
      rintro ⟨-, rfl | rfl⟩ <;> simp at hname
    rw [hField id name hne]
    exact hp.other id hid name hname
  · intro k hk
    rw [hField _ "location" (by simp)]
    exact hp.unlocated k hk

theorem lift (c : Nat) {e : Entry} (hForm : e.form = .typedef)
    (hTyp : e.get? "typ" = some (.link c)) (hLocation : e.get? "location" = some .nothing) :
    Partly g flat (lifted ++ [c]) renamed (h.add e).2 := by
  have hsize := hp.size
  have hGet : ∀ id < h.entries.size, (h.add e).2.get? id = h.get? id := fun id hid =>
    get?_add_of_lt h e hid
  have hField : ∀ id < h.entries.size, ∀ name,
      (h.add e).2.field? (.link id) name = h.field? (.link id) name := by
    intro id hid name
    simp only [Graph.field?, hGet id hid]
  have hFormAdd : ∀ id < h.entries.size, (h.add e).2.form? (.link id) = h.form? (.link id) := by
    intro id hid
    simp only [form?, hGet id hid]
  have hOld : ∀ id < g.entries.size, id < h.entries.size := fun id hid => hp.lt_size hid
  have hk : ∀ k d, lifted[k]? = some d → k < lifted.length := fun k d hkd =>
    (List.getElem?_eq_some_iff.1 hkd).1
  have hGrow : ∀ k d, lifted[k]? = some d → (lifted ++ [c])[k]? = some d := fun k d hkd => by
    rw [List.getElem?_append_left (hk k d hkd)]
    exact hkd
  have hNew : (h.add e).2.get? (g.entries.size + lifted.length) = some e := by
    rw [get?_add, if_pos hsize.symm]
  refine ⟨hp.origin, ?_, ?_, ?_, ?_, ?_, ?_, ?_, ?_, ?_, ?_, ?_, ?_⟩
  · simp only [size_add, List.length_append, List.length_singleton, hsize]
    omega
  · intro id hid
    rw [hFormAdd id (hOld id hid)]
    exact hp.form id hid
  · intro k d hkd
    by_cases hlt : k < lifted.length
    · rw [List.getElem?_append_left hlt] at hkd
      rw [hFormAdd _ (by omega), hField _ (by omega)]
      exact hp.made k d hkd
    · have hlen := (List.getElem?_eq_some_iff.1 hkd).1
      simp only [List.length_append, List.length_singleton] at hlen
      obtain rfl : k = lifted.length := by omega
      obtain rfl : c = d := by simpa using hkd
      exact ⟨by simp [form?, hNew, hForm], by simp [Graph.field?, hNew, hTyp]⟩
  · intro p hpf
    have := lt_size_of_field? h (hp.members p hpf)
    rw [hField p this]
    exact hp.members p hpf
  · intro id hid hn
    rw [hField id (hOld id hid)]
    exact hp.members_old id hid hn
  · intro p hpf d f hs
    obtain ⟨k, hkd, hf⟩ := hp.typ p hpf d f hs
    exact ⟨k, hGrow k d hkd, by rw [hField f (lt_size_of_field? h hf)]; exact hf⟩
  · intro f hf hs
    rw [hField f (hOld f hf)]
    exact hp.typ_old f hf hs
  · intro id hid
    obtain ⟨t, ht, hne⟩ := hp.name id hid
    exact ⟨t, by rw [hField id (lt_size_of_field? h ht)]; exact ht, hne⟩
  · intro id hid
    obtain ⟨v, hv⟩ := hp.context id hid
    exact ⟨v, by rw [hField id (lt_size_of_field? h hv)]; exact hv⟩
  · intro id hid hn name hname
    rw [hField id (hOld id hid)]
    exact hp.old id hid hn name hname
  · intro id hid name hname
    rw [hField id (hOld id hid)]
    exact hp.other id hid name hname
  · intro k hk
    rw [List.length_append, List.length_singleton] at hk
    by_cases hlt : k < lifted.length
    · rw [hField _ (by omega)]
      exact hp.unlocated k hlt
    · obtain rfl : k = lifted.length := by omega
      simp [Graph.field?, hNew, hLocation]

/-- A container is flat when the containers nested in it have been taken out and the fields beside
them lead to the typedefs `cts` has for them. -/
theorem detach {r : Nat} (hr : r ∉ flat) {h' : Graph} {cts : List (Nat × Nat)}
    (hApart : ∀ p ∈ flat, ∀ c ∈ g.nestedIds r, c ∉ g.nestedIds p)
    (hLifted : ∀ ct ∈ cts, ∃ k, lifted[k]? = some ct.1 ∧ ct.2 = g.entries.size + k)
    (hAll : ∀ c, c ∈ g.nestedIds r ↔ c ∈ cts.map (·.1)) (hNodup : (cts.map (·.1)).Nodup)
    (hValid : ∀ c ∈ g.nestedIds r, c < g.entries.size)
    (hd : Detached h r (g.membersOf r) (g.plainMembers r) cts h') :
    Partly g (flat ++ [r]) lifted renamed h' := by
  have hLow : ∀ ct ∈ cts, ct.1 < g.entries.size := fun ct hct =>
    hValid _ ((hAll _).2 (List.mem_map.2 ⟨ct, hct, rfl⟩))
  have hName : ∀ id name, name ≠ "members" → name ≠ "typ" →
      h'.field? (.link id) name = h.field? (.link id) name := fun id name h1 h2 =>
    hd.other id name (fun e => h1 e.2) fun e => absurd e h2
  have hOtherTyp : ∀ f, (.link f ∈ g.membersOf r → g.hasForm (.link f) .field = false) →
      h'.field? (.link f) "typ" = h.field? (.link f) "typ" := fun f hf =>
    hd.other f "typ" (by simp) fun _ hm => (hp.hasField_eq _).trans (hf hm)
  -- a type that is none of the nested containers stays
  have hKeep : ∀ f v, h.field? (.link f) "typ" = some v → (∀ ct ∈ cts, v ≠ .link ct.1) →
      h'.field? (.link f) "typ" = some v := by
    intro f v hv hne
    by_cases hf : .link f ∈ g.membersOf r ∧ g.hasForm (.link f) .field = true
    · rw [hd.typ f hf.1 ((hp.hasField_eq _).trans hf.2), hv]
      exact foldl_retype_of_not_mem fun ct hct e => hne ct hct (Option.some.inj e)
    · rw [hOtherTyp f fun hm => by simpa using fun hform => hf ⟨hm, hform⟩]
      exact hv
  refine ⟨hd.origin.trans hp.origin, hd.size.trans hp.size,
    fun id hid => (hd.form _).trans (hp.form id hid), ?_, ?_, ?_, ?_, ?_, ?_, ?_, ?_, ?_, ?_⟩
  · intro k c hk
    obtain ⟨hform, htyp⟩ := hp.made k c hk
    refine ⟨(hd.form _).trans hform, ?_⟩
    rw [hd.other _ "typ" (by simp) fun _ _ => by simp [Graph.hasForm, hform]]
    exact htyp
  · intro p hpf
    by_cases e : p = r
    · subst e
      exact hd.members
    · have hpf : p ∈ flat := by simpa [e] using hpf
      rw [hd.other p "members" (fun h => e h.1) (by simp)]
      exact hp.members p hpf
  · intro id hid hn
    have hne : id ∉ flat ∧ id ≠ r := by simpa using hn
    rw [hd.other id "members" (fun h => hne.2 h.1) (by simp)]
    exact hp.members_old id hid hne.1
  · intro p hpf c f hs
    rcases List.mem_append.1 hpf with hpf | hpr
    · obtain ⟨k, hk, hf⟩ := hp.typ p hpf c f hs
      refine ⟨k, hk, hKeep f _ hf ?_⟩
      intro ct hct e
      have := hLow ct hct
      have : g.entries.size + k = ct.1 := by simpa using e
      omega
    · obtain rfl := List.mem_singleton.1 hpr
      have hf := lt_size_of_field? g hs.typ
      have hBefore : h.field? (.link f) "typ" = some (.link c) := by
        rw [hp.typ_old f hf, hs.typ]
        intro q hq d hd'
        obtain rfl : d = c := by simpa using hd'.typ.symm.trans hs.typ
        exact hApart q hq d hs.nested hd'.nested
      obtain ⟨ct, hct, rfl⟩ := List.mem_map.1 ((hAll c).1 hs.nested)
      obtain ⟨k, hk, ht⟩ := hLifted ct hct
      refine ⟨k, hk, ?_⟩
      rw [hd.typ f hs.mem ((hp.hasField_eq _).trans hs.form), hBefore, ← ht]
      refine foldl_retype_of_mem hct hNodup fun ct' hct' e => ?_
      have := hLow ct' hct'
      omega
  · intro f hf hs
    have hOld := hp.typ_old f hf fun p hpf c => hs p (by simp [hpf]) c
    cases hv : g.field? (.link f) "typ" with
    | none =>
      rw [hv] at hOld
      by_cases hm : .link f ∈ g.membersOf r ∧ g.hasForm (.link f) .field = true
      · rw [hd.typ f hm.1 ((hp.hasField_eq _).trans hm.2), hOld]
        exact foldl_retype_of_not_mem (by simp)
      · rw [hOtherTyp f fun h => by simpa using fun hform => hm ⟨h, hform⟩]
        exact hOld
    | some v =>
      rw [hv] at hOld
      by_cases hm : .link f ∈ g.membersOf r ∧ g.hasForm (.link f) .field = true
      · refine hKeep f v hOld fun ct hct e => ?_
        subst e
        exact hs r (by simp) ct.1 ⟨(hAll _).2 (List.mem_map.2 ⟨ct, hct, rfl⟩), hm.1, hm.2, hv⟩
      · rw [hOtherTyp f fun h => by simpa using fun hform => hm ⟨h, hform⟩]
        exact hOld
  · intro id hid
    rw [hName id "name" (by simp) (by simp)]
    exact hp.name id hid
  · intro id hid
    rw [hName id "context" (by simp) (by simp)]
    exact hp.context id hid
  · intro id hid hn name hname
    rw [hName id name (by rcases hname with rfl | rfl <;> simp)
      (by rcases hname with rfl | rfl <;> simp)]
    exact hp.old id hid hn name hname
  · intro id hid name hname
    have hne : name ≠ "members" ∧ name ≠ "typ" := by
      constructor <;> rintro rfl <;> simp at hname
    rw [hName id name hne.1 hne.2]
    exact hp.other id hid name hname
  · intro k hk
    rw [hName _ "location" (by simp) (by simp)]
    exact hp.unlocated k hk

end Partly

end PxdGen.Decl
