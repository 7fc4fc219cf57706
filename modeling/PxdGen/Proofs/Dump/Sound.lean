import PxdGen.Proofs.Decl.Key
import PxdGen.Proofs.Dump.Effect
/-! # Sessions of a dump that is being read

While a dump is read, everything that stands for itself is entered in the table exactly once, under
its own key, and every argument belongs to one declaration. This is kept by each start and each end
of an element.
-/

namespace PxdGen.Table

open Decl

variable {α : Type}

theorem put_of_fresh {k : Key} (v : α) {l : List (Key × α)} (h : ∀ e ∈ l, (e.1 == k) = false) :
    put k v l = l ++ [(k, v)] := by
  induction l with
  | nil => rfl
  | cons e l ih =>
    rw [put, if_neg (by simp [h e (by simp)]), ih fun e he => h e (by simp [he])]
    rfl

theorem toList_insert_of_fresh {t : Table Key α} {k : Key} (v : α)
    (h : ∀ e ∈ t.entries.toList, (e.1 == k) = false) :
    (t.insert k v).entries.toList = t.entries.toList ++ [(k, v)] := by
  rw [toList_insert, put_of_fresh v h]

end PxdGen.Table

namespace PxdGen.Dump

open Decl Decl.Work

variable {key : Option String} {i p : Nat} {slot text : String} {e : Entry} {context : List Value}

/-! ### What has been read -/

/-- The key that an element is read under. -/
def idOf? : Xml.Event → Option String
  | .start _ attrs => attrs.lookup "id"
  | .stop _ _ => none

/-- The keys of the elements. -/
def ids (events : List Xml.Event) : List String := events.filterMap idOf?

def isGlobalStart : Xml.Event → Bool
  | .start tag attrs => tag == "Namespace" && attrs.lookup "name" == some "::"
  | .stop _ _ => false

/-- A session in which the elements `done` have been read. -/
structure Sound (done : List Xml.Event) (s : Session) : Prop where
  origin : s.graph.origin = .dump
  closed : s.openText = none
  sections : s.sections = {}
  context : ∀ v ∈ s.context, ∃ i, i < s.graph.entries.size ∧ v = .link i
  registered : ∀ v ∈ s.table.values, ∃ i e, v = .link i ∧ s.graph.get? i = some e ∧
    isStanding e.form = true
  once : s.table.values.Nodup
  complete : ∀ i e, s.graph.get? i = some e → isStanding e.form = true → .link i ∈ s.table.values
  keys : ∀ e ∈ s.table.entries.toList, (∃ a ∈ ids done, e.1 = .named (.text a)) ∨
    ∃ i, i < s.graph.entries.size ∧ e.1 = .serial i
  distinct : s.table.entries.toList.Pairwise fun e f => (e.1 == f.1) = false
  shaped : ∀ i e, s.graph.get? i = some e → e.isShaped = true
  owned : ∃ owner : Nat → Nat, ∀ i e, s.graph.get? i = some e → ∀ v, e.get? "arguments" = some v →
    ∃ js : List Nat, v = .list (js.map .link) ∧ js.Nodup ∧
      ∀ j ∈ js, owner j = i ∧ s.graph.form? (.link j) = some .argument
  held : ∀ j, s.graph.form? (.link j) = some .argument → ∃ i js,
    s.graph.field? (.link i) "arguments" = some (.list js) ∧ .link j ∈ js
  unread : ∀ i e, s.graph.get? i = some e → ∀ name v, e.get? name = some v → Unread name v
  noGlobal : done.countP isGlobalStart = 0 → ∀ i, s.graph.isGlobal (.link i) = false
  oneGlobal : done.countP isGlobalStart ≤ 1 → ∀ i j, s.graph.isGlobal (.link i) = true →
    s.graph.isGlobal (.link j) = true → i = j

theorem sound_empty : Sound [] {} where
  origin := rfl
  closed := rfl
  sections := rfl
  context := by simp
  registered := by simp [Table.values]
  once := by simp [Table.values]
  complete := by simp [Graph.get?]
  keys := by simp
  distinct := by simp
  shaped := by simp [Graph.get?]
  owned := ⟨id, by simp [Graph.get?]⟩
  held := by simp [Graph.form?, Graph.get?]
  unread := by simp [Graph.get?]
  noGlobal := by simp [Graph.isGlobal, Graph.hasForm, Graph.form?, Graph.get?]
  oneGlobal := by simp [Graph.isGlobal, Graph.hasForm, Graph.form?, Graph.get?]

/-- Whether a declaration is a global namespace. -/
def isGlobalEntry (e : Entry) : Bool :=
  e.form == .nameSpace && (e.get? "name").any (·.same (.text "::"))

theorem isGlobal_link (g : Graph) (i : Nat) :
    g.isGlobal (.link i) = (g.get? i).any isGlobalEntry := by
  simp only [Graph.isGlobal, Graph.hasForm, Graph.form?, Graph.field?]
  cases g.get? i with
  | none => rfl
  | some e => simp [isGlobalEntry]

namespace Sound

variable {done : List Xml.Event} {s : Session}

/-- Elements that have no key and are no namespaces may be read in between. -/
theorem of_done {done' : List Xml.Event} (h : Sound done s) (hids : ∀ a ∈ ids done, a ∈ ids done')
    (hglobals : done.countP isGlobalStart ≤ done'.countP isGlobalStart) : Sound done' s :=
  { h with
    keys := fun e he => (h.keys e he).imp_left fun ⟨a, ha, hk⟩ => ⟨a, hids a ha, hk⟩
    noGlobal := fun h0 => h.noGlobal (by omega)
    oneGlobal := fun h1 => h.oneGlobal (by omega) }

/-- A key that has not been read is not in the table. -/
theorem fresh (h : Sound done s) (hkey : ∀ a, key = some a → a ∉ ids done) :
    ∀ e ∈ s.table.entries.toList, (e.1 == keyFor s key) = false := by
  intro e he
  obtain ⟨a, ha, hk⟩ | ⟨i, hi, hk⟩ := h.keys e he
  · rw [hk]
    cases key with
    | none => rfl
    | some b =>
      have hab : a ≠ b := fun hab => hkey b rfl (hab ▸ ha)
      show (a == b) = false
      simpa using hab
  · rw [hk]
    cases key with
    | none =>
      show (i == s.graph.entries.size) = false
      simpa using Nat.ne_of_lt hi
    | some b => rfl

theorem values_declare (h : Sound done s)
    (hkey : ∀ a, key = some a → a ∉ ids done) (tag : String) (e : Entry) :
    (declare tag key e s).table.values = s.table.values ++ [.link s.graph.entries.size] := by
  rw [Table.values, declare, Table.toList_insert_of_fresh _ (h.fresh hkey), List.map_append]
  rfl

theorem link_lt (h : Sound done s) (hi : .link i ∈ s.table.values) : i < s.graph.entries.size := by
  obtain ⟨j, e, hj, he, -⟩ := h.registered _ hi
  cases hj
  exact Graph.lt_size_of_get? _ he

theorem declare (h : Sound done s) {tag : String} {attrs : List (String × String)} {e : Entry}
    (hkey : ∀ a, attrs.lookup "id" = some a → a ∉ ids done) (hform : isStanding e.form = true)
    (hshaped : e.isShaped = true) (hargs : ∀ v, e.get? "arguments" = some v → v = .list [])
    (hunread : ∀ name v, e.get? name = some v → Unread name v)
    (hglobal : isGlobalEntry e = true → isGlobalStart (.start tag attrs) = true) :
    Sound (done ++ [.start tag attrs]) (Dump.declare tag (attrs.lookup "id") e s) where
  origin := h.origin
  closed := h.closed
  sections := h.sections
  context := by
    intro v hv
    have hsize : (s.graph.add e).2.entries.size = s.graph.entries.size + 1 := Graph.size_add _ _
    have hold : v ∈ s.context → ∃ i, i < (s.graph.add e).2.entries.size ∧ v = .link i := by
      intro hv
      obtain ⟨i, hi, rfl⟩ := h.context v hv
      exact ⟨i, by omega, rfl⟩
    simp only [Dump.declare] at hv
    split at hv
    · rcases List.mem_cons.1 hv with rfl | hv
      · exact ⟨s.graph.entries.size, hsize ▸ Nat.lt_succ_self _, rfl⟩
      · exact hold hv
    · exact hold hv
  registered := by
    intro v hv
    rw [h.values_declare hkey, List.mem_append, List.mem_singleton] at hv
    rcases hv with hv | rfl
    · obtain ⟨i, e', rfl, he', hf⟩ := h.registered v hv
      exact ⟨i, e', rfl, (Graph.get?_add_of_lt _ _ (Graph.lt_size_of_get? _ he')).trans he', hf⟩
    · exact ⟨_, e, rfl, Graph.get?_add_self _ _, hform⟩
  once := by
    rw [h.values_declare hkey, List.nodup_append]
    refine ⟨h.once, by simp, fun v hv w hw hvw => ?_⟩
    obtain rfl := List.mem_singleton.1 hw
    exact absurd (h.link_lt (hvw ▸ hv)) (Nat.lt_irrefl _)
  complete := by
    intro i e' he' hf
    rw [h.values_declare hkey, List.mem_append, List.mem_singleton]
    change (s.graph.add e).2.get? i = some e' at he'
    rw [Graph.get?_add] at he'
    split at he'
    · rename_i hi
      exact .inr (by rw [hi])
    · exact .inl (h.complete i e' he' hf)
  keys := by
    intro f hf
    rw [Dump.declare, Table.toList_insert_of_fresh _ (h.fresh hkey), List.mem_append,
      List.mem_singleton] at hf
    have hsize : (s.graph.add e).2.entries.size = s.graph.entries.size + 1 := Graph.size_add _ _
    rcases hf with hf | rfl
    · obtain ⟨a, ha, hk⟩ | ⟨i, hi, hk⟩ := h.keys f hf
      · exact .inl ⟨a, by rw [ids, List.filterMap_append]; exact List.mem_append_left _ ha, hk⟩
      · exact .inr ⟨i, hsize ▸ Nat.lt_succ_of_lt hi, hk⟩
    · cases hid : attrs.lookup "id" with
      | none => exact .inr ⟨s.graph.entries.size, hsize ▸ Nat.lt_succ_self _, rfl⟩
      | some a =>
        refine .inl ⟨a, ?_, rfl⟩
        rw [ids, List.filterMap_append]
        exact List.mem_append_right _ (by simp [idOf?, hid])
  distinct := by
    rw [Dump.declare, Table.toList_insert_of_fresh _ (h.fresh hkey), List.pairwise_append]
    refine ⟨h.distinct, by simp, fun f hf g hg => ?_⟩
    obtain rfl := List.mem_singleton.1 hg
    exact h.fresh hkey f hf
  shaped := by
    intro i e' he'
    obtain rfl | he' := Graph.of_get?_add _ he'
    · exact hshaped
    · exact h.shaped i e' he'
  owned := by
    obtain ⟨owner, howner⟩ := h.owned
    refine ⟨owner, fun i e' he' v hv => ?_⟩
    obtain rfl | he' := Graph.of_get?_add _ he'
    · exact ⟨[], hargs v hv, by simp, by simp⟩
    · obtain ⟨js, rfl, hnodup, hjs⟩ := howner i e' he' v hv
      refine ⟨js, rfl, hnodup, fun j hj => ⟨(hjs j hj).1, ?_⟩⟩
      exact (form?_add (Graph.lt_size_of_form? _ (hjs j hj).2) e).trans (hjs j hj).2
  held := by
    intro j hj
    obtain ⟨e', he', hf⟩ := Option.map_eq_some_iff.1 hj
    obtain rfl | he' := Graph.of_get?_add _ he'
    · rw [hf] at hform
      cases hform
    · obtain ⟨i, js, hi, hmem⟩ := h.held j (by rw [Graph.form?_of_get? _ he', hf])
      exact ⟨i, js, (field?_add (Graph.lt_size_of_field? _ hi) e _).trans hi, hmem⟩
  unread := by
    intro i e' he'
    obtain rfl | he' := Graph.of_get?_add _ he'
    · exact hunread
    · exact h.unread i e' he'
  noGlobal := by
    intro h0 i
    rw [List.countP_append, List.countP_singleton] at h0
    rw [isGlobal_link]
    show ((s.graph.add e).2.get? i).any isGlobalEntry = false
    rw [Graph.get?_add]
    split
    · cases he : isGlobalEntry e with
      | false => simpa using he
      | true =>
        rw [if_pos (hglobal he)] at h0
        omega
    · rw [← isGlobal_link]
      exact h.noGlobal (by omega) i
  oneGlobal := by
    intro h1 i j hi hj
    rw [List.countP_append, List.countP_singleton] at h1
    rw [isGlobal_link] at hi hj
    change ((s.graph.add e).2.get? i).any isGlobalEntry = true at hi
    change ((s.graph.add e).2.get? j).any isGlobalEntry = true at hj
    rw [Graph.get?_add] at hi hj
    -- two old ones are the same, and beside a new one there was none before
    have hold : isGlobalEntry e = true → ∀ k, s.graph.isGlobal (.link k) = false := by
      intro he
      rw [if_pos (hglobal he)] at h1
      exact h.noGlobal (by omega)
    split at hi <;> split at hj
    · omega
    · rw [← isGlobal_link, hold (by simpa using hi)] at hj
      cases hj
    · rw [← isGlobal_link, hold (by simpa using hj)] at hi
      cases hi
    · rw [← isGlobal_link] at hi hj
      exact h.oneGlobal (by omega) i j hi hj

theorem get?_attach (hp : p < s.graph.entries.size) (slot : String) (items : List Value)
    (e : Entry) (i : Nat) :
    (Dump.attach p slot items e s).graph.get? i = if i = p then
        (s.graph.get? p).map (·.set slot (.list (items ++ [.link s.graph.entries.size])))
      else if i = s.graph.entries.size then some e else s.graph.get? i := by
  simp only [Dump.attach, Graph.get?_setField]
  by_cases hip : i = p
  · subst hip
    rw [if_pos rfl, if_pos rfl, Graph.get?_add_of_lt _ _ hp]
  · rw [if_neg hip, if_neg (Ne.symm hip), Graph.get?_add]

/-- What is there when a part has been added: the part, the declaration that took it, or something
that was there before. -/
theorem get?_attach_cases (hp : p < s.graph.entries.size) {items : List Value} {e' : Entry}
    (h : (Dump.attach p slot items e s).graph.get? i = some e') :
    (i = s.graph.entries.size ∧ e' = e) ∨
    (i = p ∧ ∃ e₀, s.graph.get? p = some e₀ ∧
      e' = e₀.set slot (.list (items ++ [.link s.graph.entries.size]))) ∨
    (i ≠ p ∧ s.graph.get? i = some e') := by
  rw [get?_attach hp] at h
  split at h
  · obtain ⟨e₀, he₀, rfl⟩ := Option.map_eq_some_iff.1 h
    exact .inr (.inl ⟨‹_›, e₀, he₀, rfl⟩)
  · split at h
    · exact .inl ⟨‹_›, (Option.some.inj h).symm⟩
    · exact .inr (.inr ⟨‹_›, h⟩)

theorem form?_attach (p : Nat) (slot : String) (items : List Value) (e : Entry) {j : Nat}
    (hj : j < s.graph.entries.size) :
    (Dump.attach p slot items e s).graph.form? (.link j) = s.graph.form? (.link j) := by
  simp only [Dump.attach, Graph.form?_setField]
  exact form?_add hj e

theorem isGlobal_attach (hp : p < s.graph.entries.size)
    (hslot : slot ≠ "name") (items : List Value) (he : isGlobalEntry e = false)
    (h : (Dump.attach p slot items e s).graph.isGlobal (.link i) = true) :
    s.graph.isGlobal (.link i) = true := by
  rw [isGlobal_link, Option.any_eq_true] at h
  obtain ⟨e', he', hg⟩ := h
  obtain ⟨-, rfl⟩ | ⟨rfl, e₀, he₀, rfl⟩ | ⟨-, hi⟩ := get?_attach_cases hp he'
  · rw [he] at hg
    cases hg
  · rw [isGlobal_link, he₀]
    simpa [isGlobalEntry, hslot.symm] using hg
  · rw [isGlobal_link, hi]
    simpa using hg

theorem attach (h : Sound done s) {ev : Xml.Event} {p : Nat} {slot : String} {items : List Value}
    {e : Entry} (hslot : slot = "arguments" ∧ e.form = .argument ∨ slot = "values" ∧
    e.form = .enumValue)
    (hp : p < s.graph.entries.size) (hitems : s.graph.field? (.link p) slot = some (.list items))
    (hshaped : e.isShaped = true) (hargs : ∀ v, e.get? "arguments" = some v → v = .list [])
    (hunread : ∀ name v, e.get? name = some v → Unread name v) :
    Sound (done ++ [ev]) (Dump.attach p slot items e s) := by
  have hsize : (Dump.attach p slot items e s).graph.entries.size = s.graph.entries.size + 1 := by
    simp [Dump.attach]
  have hstanding : isStanding e.form = false := by
    rcases hslot with ⟨-, hf⟩ | ⟨-, hf⟩ <;> rw [hf] <;> rfl
  have hglobal : isGlobalEntry e = false := by
    rcases hslot with ⟨-, hf⟩ | ⟨-, hf⟩ <;> rw [isGlobalEntry, hf] <;> rfl
  have hname : slot ≠ "name" := by
    rcases hslot with ⟨rfl, -⟩ | ⟨rfl, -⟩ <;> decide
  constructor
  case origin => exact h.origin
  case closed => exact h.closed
  case sections => exact h.sections
  case context =>
    intro v hv
    obtain ⟨i, hi, rfl⟩ := h.context v hv
    exact ⟨i, by omega, rfl⟩
  case registered =>
    intro v hv
    obtain ⟨i, e', rfl, he', hf⟩ := h.registered v hv
    have hform := (form?_attach p slot items e (Graph.lt_size_of_get? _ he')).trans
      (Graph.form?_of_get? _ he')
    obtain ⟨e'', he'', hf''⟩ := Option.map_eq_some_iff.1 hform
    exact ⟨i, e'', rfl, he'', by rw [hf'', hf]⟩
  case once => exact h.once
  case complete =>
    intro i e' he' hf
    obtain ⟨-, rfl⟩ | ⟨rfl, e₀, he₀, rfl⟩ | ⟨-, hi⟩ := get?_attach_cases hp he'
    · rw [hstanding] at hf
      cases hf
    · exact h.complete i e₀ he₀ hf
    · exact h.complete i e' hi hf
  case keys =>
    intro f hf
    obtain ⟨a, ha, hk⟩ | ⟨i, hi, hk⟩ := h.keys f hf
    · exact .inl ⟨a, by rw [ids, List.filterMap_append]; exact List.mem_append_left _ ha, hk⟩
    · exact .inr ⟨i, by omega, hk⟩
  case distinct => exact h.distinct
  case shaped =>
    intro i e' he'
    obtain ⟨-, rfl⟩ | ⟨rfl, e₀, he₀, rfl⟩ | ⟨-, hi⟩ := get?_attach_cases hp he'
    · exact hshaped
    · rw [Graph.field?_of_get? _ he₀] at hitems
      refine isShaped_set (h.shaped i e₀ he₀) ?_
      have hold := Entry.isShaped.mayHold (h.shaped i e₀ he₀) hitems
      rcases hslot with ⟨rfl, -⟩ | ⟨rfl, -⟩ <;> exact hold
    · exact h.shaped i e' hi
  case owned =>
    obtain ⟨owner, howner⟩ := h.owned
    -- the new part belongs to the declaration that took it
    refine ⟨fun j => if j = s.graph.entries.size then p else owner j, ?_⟩
    have hold : ∀ i e₀, s.graph.get? i = some e₀ → ∀ v, e₀.get? "arguments" = some v →
        ∃ js : List Nat, v = .list (js.map .link) ∧ js.Nodup ∧ ∀ j ∈ js, j < s.graph.entries.size ∧
          (if j = s.graph.entries.size then p else owner j) = i ∧
          (Dump.attach p slot items e s).graph.form? (.link j) = some .argument := by
      intro i e₀ he₀ v hv
      obtain ⟨js, rfl, hnodup, hjs⟩ := howner i e₀ he₀ v hv
      refine ⟨js, rfl, hnodup, fun j hj => ?_⟩
      have hlt := Graph.lt_size_of_form? _ (hjs j hj).2
      exact ⟨hlt, by rw [if_neg (by omega), (hjs j hj).1],
        (form?_attach p slot items e hlt).trans (hjs j hj).2⟩
    intro i e' he' v hv
    obtain ⟨-, rfl⟩ | ⟨rfl, e₀, he₀, rfl⟩ | ⟨-, hi⟩ := get?_attach_cases hp he'
    · exact ⟨[], hargs v hv, by simp, by simp⟩
    · rcases hslot with ⟨rfl, hf⟩ | ⟨rfl, -⟩
      · rw [Entry.get?_set, if_pos rfl] at hv
        obtain rfl := Option.some.inj hv
        rw [Graph.field?_of_get? _ he₀] at hitems
        obtain ⟨js, hjs, hnodup, hall⟩ := hold i e₀ he₀ _ hitems
        obtain rfl : items = js.map .link := by simpa using hjs
        refine ⟨js ++ [s.graph.entries.size], by simp, ?_, ?_⟩
        · rw [List.nodup_append]
          refine ⟨hnodup, by simp, fun j hj k hk hjk => ?_⟩
          obtain rfl := List.mem_singleton.1 hk
          exact absurd (hall j hj).1 (by omega)
        · intro j hj
          rcases List.mem_append.1 hj with hj | hj
          · exact (hall j hj).2
          · obtain rfl := List.mem_singleton.1 hj
            refine ⟨if_pos rfl, ?_⟩
            simp only [Dump.attach, Graph.form?_setField]
            rw [Graph.form?_of_get? _ (Graph.get?_add_self _ _), hf]
      · rw [Entry.get?_set, if_neg (by decide)] at hv
        obtain ⟨js, hjs, hnodup, hall⟩ := hold i e₀ he₀ v hv
        exact ⟨js, hjs, hnodup, fun j hj => (hall j hj).2⟩
    · obtain ⟨js, hjs, hnodup, hall⟩ := hold i e' hi v hv
      exact ⟨js, hjs, hnodup, fun j hj => (hall j hj).2⟩
  case held =>
    intro j hj
    have hfilled : (Dump.attach p slot items e s).graph.field? (.link p) slot =
        some (.list (items ++ [.link s.graph.entries.size])) := by
      rw [Dump.attach, Graph.field?_setField _ (by simpa using Nat.lt_succ_of_lt hp),
        if_pos ⟨rfl, rfl⟩]
    -- the lists of before are still there, one of them with the new part at its end
    have hold : s.graph.form? (.link j) = some .argument → ∃ i js,
        (Dump.attach p slot items e s).graph.field? (.link i) "arguments" = some (.list js) ∧
          .link j ∈ js := by
      intro hj
      obtain ⟨i, js, hi, hmem⟩ := h.held j hj
      by_cases hip : i = p ∧ "arguments" = slot
      · obtain ⟨rfl, rfl⟩ := hip
        rw [hitems] at hi
        cases hi
        exact ⟨i, _, hfilled, List.mem_append_left _ hmem⟩
      · refine ⟨i, js, ?_, hmem⟩
        rw [Dump.attach, Graph.field?_setField _ (by simpa using Nat.lt_succ_of_lt hp), if_neg hip]
        exact (field?_add (Graph.lt_size_of_field? _ hi) e _).trans hi
    obtain ⟨e', he', hf⟩ := Option.map_eq_some_iff.1 hj
    obtain ⟨rfl, rfl⟩ | ⟨rfl, e₀, he₀, rfl⟩ | ⟨-, hi⟩ := get?_attach_cases hp he'
    · rcases hslot with ⟨rfl, -⟩ | ⟨-, hvalue⟩
      · exact ⟨p, _, hfilled, by simp⟩
      · rw [hf] at hvalue
        cases hvalue
    · exact hold (by rw [Graph.form?_of_get? _ he₀]; exact congrArg some hf)
    · exact hold (by rw [Graph.form?_of_get? _ hi, hf])
  case unread =>
    intro i e' he' name v hv
    obtain ⟨-, rfl⟩ | ⟨rfl, e₀, he₀, rfl⟩ | ⟨-, hi⟩ := get?_attach_cases hp he'
    · exact hunread name v hv
    · intro hargs' hvalues
      rw [Entry.get?_set, if_neg (by rcases hslot with ⟨rfl, -⟩ | ⟨rfl, -⟩ <;> assumption)] at hv
      exact h.unread i e₀ he₀ name v hv hargs' hvalues
    · exact h.unread i e' hi name v hv
  case noGlobal =>
    intro h0 i
    rw [List.countP_append] at h0
    cases hi : (Dump.attach p slot items e s).graph.isGlobal (.link i) with
    | false => rfl
    | true =>
      have := isGlobal_attach hp hname items hglobal hi
      rw [h.noGlobal (by omega) i] at this
      cases this
  case oneGlobal =>
    intro h1 i j hi hj
    rw [List.countP_append] at h1
    exact h.oneGlobal (by omega) i j (isGlobal_attach hp hname items hglobal hi)
      (isGlobal_attach hp hname items hglobal hj)

end Sound

/-! ### Starts and ends -/

variable {done : List Xml.Event} {s s' : Session} {tag : String}

theorem Sound.leads (h : Sound done s) {ρ : String → String} {attrs attrs' : List (String × String)}
    {E E' : Effect} (hE : EffectPair ρ tag attrs attrs' E E')
    (hkey : ∀ a, attrs.lookup "id" = some a → a ∉ ids done) (hleads : Leads tag E s s') :
    Sound (done ++ [.start tag attrs]) s' := by
  have hmore : ∀ {s : Session}, Sound done s → Sound (done ++ [.start tag attrs]) s := fun h =>
    h.of_done (fun a ha => by rw [ids, List.filterMap_append]; exact List.mem_append_left _ ha)
      (by rw [List.countP_append]; omega)
  cases hE with
  | none =>
    cases hleads
    exact hmore h
  | revision =>
    cases hleads
    exact hmore { h with }
  | declaration hnew hform hname =>
    cases hleads
    refine h.declare hkey (hnew.form ▸ hform) hnew.shaped (hnew.parts (.inl rfl))
      (fun _ _ => hnew.unread) fun hg => ?_
    simp only [isGlobalEntry, Bool.and_eq_true, beq_iff_eq, hnew.form] at hg
    obtain ⟨htag, hget⟩ := hname hg.1
    rw [hget, Option.any_map] at hg
    obtain ⟨n, hn, hsame⟩ := (Option.any_eq_true _ _).1 hg.2
    obtain rfl : n = "::" := by simpa [Value.same] using hsame
    simp [isGlobalStart, htag, hn]
  | argument hnew _ =>
    cases hleads with
    | part _ hc hform htakes hitems =>
      exact h.attach (.inl ⟨rfl, hnew.form⟩) (Graph.lt_size_of_form? _ hform) hitems hnew.shaped
        (hnew.parts (.inl rfl)) fun _ _ => hnew.unread
  | value hnew _ =>
    cases hleads with
    | part _ hc hform htakes hitems =>
      exact h.attach (.inr ⟨rfl, hnew.form⟩) (Graph.lt_size_of_form? _ hform) hitems hnew.shaped
        (hnew.parts (.inl rfl)) fun _ _ => hnew.unread

/-- What is being filled after the end of an element. -/
def Ends (tag : String) (before after : List Value) : Prop :=
  if hasChildren tag then ∃ v, before = v :: after else after = before

theorem takeEvent_stop (tag text : String) :
    takeEvent (.stop tag text) = if text.isEmpty then endElement tag
      else addText (.text text) >>= fun _ => endElement tag := by
  rw [takeEvent]
  cases text.isEmpty <;> rfl

theorem gives_stop (hopen : s.openText = none) (h : Ends tag s.context context) :
    Gives (takeEvent (.stop tag text)) s ()
      { s with context := context, openText := none, openKey := none } := by
  have hend : Gives (endElement tag) s ()
      { s with context := context, openText := none, openKey := none } := by
    unfold Ends at h
    unfold endElement
    cases hc : hasChildren tag with
    | false =>
      rw [hc] at h
      obtain rfl : context = s.context := by simpa using h
      exact gives_modify.2 rfl
    | true =>
      rw [hc] at h
      obtain ⟨v, hv⟩ : ∃ v, s.context = v :: context := by simpa using h
      have hpop : Gives pop s v { s with context := context } := by
        refine Gives.get ?_
        rw [hv]
        exact Gives.bind (a := ()) (gives_modify.2 rfl) (.pure v _)
      exact hpop.bind (gives_modify.2 rfl)
  rw [takeEvent_stop]
  split
  · exact hend
  · exact (gives_addText_closed hopen _).bind hend

theorem ends_of_gives_stop (h : Gives (takeEvent (.stop tag text)) s () s') :
    Ends tag s.context s'.context ∧ s'.graph = s.graph := by
  obtain ⟨t, hgraph, hcontext, h⟩ : ∃ t : Session, t.graph = s.graph ∧ t.context = s.context ∧
      Gives (endElement tag) t () s' := by
    rw [takeEvent_stop] at h
    split at h
    · exact ⟨s, rfl, rfl, h⟩
    · obtain ⟨_, t, hadd, h⟩ := gives_bind.1 h
      obtain ⟨hgraph, hcontext⟩ := gives_addText_cases hadd
      exact ⟨t, hgraph, hcontext, h⟩
  rw [← hgraph, ← hcontext, Ends]
  unfold endElement at h
  cases hc : hasChildren tag with
  | false =>
    rw [hc] at h
    obtain rfl := gives_modify.1 h
    exact ⟨rfl, rfl⟩
  | true =>
    rw [hc] at h
    obtain ⟨v, t₁, hpop, h⟩ := gives_bind.1 h
    obtain rfl := gives_modify.1 h
    have hpop := gives_after (gives_get.2 ⟨rfl, rfl⟩) hpop
    split at hpop
    · rename_i hcons
      have hpop := gives_after (a := ()) (gives_modify.2 rfl) hpop
      obtain ⟨rfl, rfl⟩ := gives_pure.1 hpop
      exact ⟨⟨_, hcons⟩, rfl⟩
    · exact absurd hpop gives_throw

theorem gives_stop_cases (hopen : s.openText = none)
    (h : Gives (takeEvent (.stop tag text)) s () s') :
    ∃ context, Ends tag s.context context ∧
        s' = { s with context := context, openText := none, openKey := none } := by
  obtain ⟨hends, -⟩ := ends_of_gives_stop h
  exact ⟨s'.context, hends, ((gives_stop hopen hends).unique h).2.symm⟩

theorem Sound.ends (h : Sound done s) (hends : Ends tag s.context context) :
    Sound (done ++ [.stop tag text])
      { s with context := context, openText := none, openKey := none } := by
  have hsub : ∀ v ∈ context, v ∈ s.context := by
    unfold Ends at hends
    split at hends
    · obtain ⟨v, hv⟩ := hends
      intro w hw
      rw [hv]
      exact List.mem_cons_of_mem v hw
    · rw [hends]
      exact fun v hv => hv
  have hdone : Sound (done ++ [.stop tag text]) s :=
    h.of_done (fun a ha => by rw [ids, List.filterMap_append]; exact List.mem_append_left _ ha)
      (by rw [List.countP_append]; omega)
  exact { hdone with
    closed := rfl
    context := fun v hv => h.context v (hsub v hv) }

/-- Events that are no sections. -/
def isRead : Xml.Event → Bool
  | .start tag _ => tag != "CPP_DUMP"
  | .stop _ _ => true

/-- **A step of reading keeps a session sound.** -/
theorem Sound.takeEvent (h : Sound done s) {ev : Xml.Event} (hread : isRead ev = true)
    (hids : (ids (done ++ [ev])).Nodup) (hgives : Gives (takeEvent ev) s () s') :
    Sound (done ++ [ev]) s' := by
  cases ev with
  | start tag attrs =>
    have htag : tag ≠ "CPP_DUMP" := by simpa [isRead] using hread
    obtain ⟨E, E', s₁, k, hE, hleads, rfl, -⟩ :=
      (Renamed.refl tag attrs).startElement htag h.origin (fun _ => h.closed) h.context hgives
    have hkey : ∀ a, attrs.lookup "id" = some a → a ∉ ids done := by
      intro a ha hmem
      rw [ids, List.filterMap_append, List.nodup_append] at hids
      exact hids.2.2 a hmem a (by simp [idOf?, ha]) rfl
    exact { h.leads hE hkey hleads with }
  | stop tag text =>
    obtain ⟨context, hends, rfl⟩ := gives_stop_cases h.closed hgives
    exact h.ends hends

/-- **So does reading all of a dump.** -/
theorem Sound.forM {events : List Xml.Event} (h : Sound done s)
    (hread : ∀ ev ∈ events, isRead ev = true) (hids : (ids (done ++ events)).Nodup)
    (hgives : Gives (events.forM Dump.takeEvent) s () s') : Sound (done ++ events) s' := by
  induction events generalizing done s with
  | nil =>
    obtain rfl := gives_forM_nil.1 hgives
    rwa [List.append_nil]
  | cons ev events ih =>
    obtain ⟨t, hev, hrest⟩ := gives_forM_cons.1 hgives
    have happend : done ++ ev :: events = (done ++ [ev]) ++ events := by simp
    rw [happend] at hids ⊢
    have hev' : (ids (done ++ [ev])).Nodup := by
      rw [ids, List.filterMap_append] at hids
      exact (List.nodup_append.1 hids).1
    exact ih (h.takeEvent (hread ev (by simp)) hev' hev) (fun e he => hread e (by simp [he])) hids
      hrest

end PxdGen.Dump
