import PxdGen.Decl.Flatten
import PxdGen.Proofs.Run
/-! # Reading and changing the graph

A graph is seen through the forms and the fields of its declarations. Setting a field changes what
is seen in one place, and making a declaration adds one behind the others. The primitives of work
give what these views say.
-/

namespace PxdGen.Decl

variable {id : Nat} {form : Form} {name : String} {v w : Value} {vs : List Value}

/-! ### Fields -/

theorem lookup_putField (name name' : String) (v : Value) (fields : List (String × Value)) :
    (Value.putField name v fields).lookup name' =
      if name' = name then some v else fields.lookup name' := by
  induction fields with
  | nil =>
    by_cases h : name' = name
    · simp [Value.putField, h]
    · have hb : (name' == name) = false := by simpa using h
      simp [Value.putField, List.lookup_cons, h, hb]
  | cons f fields ih =>
    obtain ⟨n, w⟩ := f
    by_cases hn : n = name
    · subst hn
      by_cases h : name' = n
      · simp [Value.putField, h]
      · have hb : (name' == n) = false := by simpa using h
        simp [Value.putField, List.lookup_cons, h, hb]
    · by_cases h : name' = n
      · subst h
        simp [Value.putField, hn]
      · have hb : (name' == n) = false := by simpa using h
        simp [Value.putField, List.lookup_cons, hn, hb, ih]

namespace Entry

@[simp] theorem get?_set (e : Entry) (name name' : String) (v : Value) :
    (e.set name v).get? name' = if name' = name then some v else e.get? name' :=
  lookup_putField name name' v e.fields

@[simp] theorem form_set (e : Entry) (name : String) (v : Value) : (e.set name v).form = e.form :=
  rfl

end Entry

namespace Graph

variable (g : Graph)

@[simp] theorem origin_setField (id : Nat) (name : String) (v : Value) :
    (g.setField id name v).origin = g.origin := rfl

@[simp] theorem size_setField (id : Nat) (name : String) (v : Value) :
    (g.setField id name v).entries.size = g.entries.size := by
  simp [setField]

theorem get?_setField (id id' : Nat) (name : String) (v : Value) :
    (g.setField id name v).get? id' =
      if id = id' then (g.get? id').map (·.set name v) else g.get? id' := by
  simp only [setField, get?, Array.getElem?_modify]

@[simp] theorem form?_setField (id : Nat) (name : String) (v w : Value) :
    (g.setField id name v).form? w = g.form? w := by
  cases w with
  | link id' =>
    simp only [form?, get?_setField]
    split <;> simp [Option.map_map, Function.comp_def]
  | _ => rfl

@[simp] theorem hasForm_setField (id : Nat) (name : String) (v w : Value) (form : Form) :
    (g.setField id name v).hasForm w form = g.hasForm w form := by
  simp [hasForm]

theorem field?_setField (hid : id < g.entries.size) (name : String) (v : Value)
    (id' : Nat) (name' : String) :
    (g.setField id name v).field? (.link id') name' =
      if id' = id ∧ name' = name then some v else g.field? (.link id') name' := by
  simp only [field?, get?_setField]
  by_cases h : id = id'
  · subst h
    have hg : g.get? id = some g.entries[id] := by simp [get?, hid]
    by_cases hn : name' = name <;> simp [hg, hn]
  · have h' : ¬ id' = id := fun e => h e.symm
    simp [h, h']

variable (e : Entry)

@[simp] theorem origin_add : (g.add e).2.origin = g.origin := rfl

@[simp] theorem size_add : (g.add e).2.entries.size = g.entries.size + 1 := by
  simp [add]

theorem get?_add (id : Nat) :
    (g.add e).2.get? id = if id = g.entries.size then some e else g.get? id := by
  simp only [add, get?, Array.getElem?_push]

theorem of_get?_add {e e' : Entry} (h : (g.add e).2.get? id = some e') :
    e' = e ∨ g.get? id = some e' := by
  rw [get?_add] at h
  split at h
  · exact .inl (Option.some.inj h).symm
  · exact .inr h

theorem get?_add_of_lt (h : id < g.entries.size) : (g.add e).2.get? id = g.get? id := by
  rw [get?_add, if_neg (by omega)]

theorem lt_size_of_get? {e : Entry} (h : g.get? id = some e) : id < g.entries.size :=
  (Array.getElem?_eq_some_iff.1 h).1

theorem get?_add_self : (g.add e).2.get? g.entries.size = some e := by
  rw [get?_add, if_pos rfl]

theorem form?_of_get? {e : Entry} (h : g.get? id = some e) : g.form? (.link id) = some e.form := by
  simp [form?, h]

theorem field?_of_get? {e : Entry} (h : g.get? id = some e) (name : String) :
    g.field? (.link id) name = e.get? name := by
  simp [field?, h]

theorem lt_size_of_form? (h : g.form? (.link id) = some form) : id < g.entries.size := by
  by_cases hid : id < g.entries.size
  · exact hid
  · simp [form?, get?, Array.getElem?_eq_none (Nat.le_of_not_lt hid)] at h

theorem lt_size_of_field? (h : g.field? (.link id) name = some v) : id < g.entries.size := by
  by_cases hid : id < g.entries.size
  · exact hid
  · simp [field?, get?, Array.getElem?_eq_none (Nat.le_of_not_lt hid)] at h

theorem form?_eq_of_isContainer (h : g.isContainer v = true) :
    ∃ id form, v = .link id ∧ g.form? v = some form ∧ form.isContainer = true := by
  cases v with
  | link id =>
    simp only [isContainer] at h
    split at h
    · exact ⟨id, _, rfl, ‹_›, h⟩
    · cases h
  | _ => simp [isContainer, form?] at h

theorem hasForm_of_isContainer (h : g.isContainer v = true)
    (hform : form.isContainer = false) : g.hasForm v form = false := by
  obtain ⟨id, form', -, hv, hc⟩ := g.form?_eq_of_isContainer h
  have hne : form' ≠ form := by
    rintro rfl
    rw [hform] at hc
    cases hc
  simp [hasForm, hv, hne]

end Graph

/-! ### Outcomes of the primitives -/

namespace Work

variable {s : Session}

theorem gives_origin : Gives origin s s.graph.origin s := rfl

theorem gives_shown (v : Value) : Gives (shown v) s (v.display s.graph.display) s := rfl

theorem gives_hasForm (v : Value) (form : Form) :
    Gives (hasForm v form) s (s.graph.hasForm v form) s := rfl

theorem gives_isContainer (v : Value) : Gives (isContainer v) s (s.graph.isContainer v) s := rfl

theorem gives_steps : Gives steps s (s.graph.entries.size + 1) s := rfl

theorem gives_say (line : String) : ∃ c, Gives (say line) s () { s with console := c } :=
  ⟨_, rfl⟩

theorem gives_field? : Gives (field? v name) s (s.graph.field? v name) s := rfl

theorem gives_field (h : s.graph.field? v name = some w) : Gives (field v name) s w s := by
  refine Gives.bind gives_field? ?_
  rw [h]
  exact .pure w s

theorem gives_field_iff {s' : Session} :
    Gives (field v name) s w s' ↔ s.graph.field? v name = some w ∧ s = s' := by
  constructor
  · intro h
    have h := gives_after gives_field? h
    cases hw : s.graph.field? v name with
    | none => simp only [hw, gives_throw] at h
    | some w' =>
      rw [hw] at h
      obtain ⟨rfl, rfl⟩ := gives_pure.1 h
      exact ⟨rfl, rfl⟩
  · rintro ⟨h, rfl⟩
    exact gives_field h

theorem gives_items (h : v.items? = some vs) : Gives (items v) s vs s := by
  rw [items, h]
  exact .pure vs s

theorem gives_fieldItems
    (h : s.graph.field? v name = some (.list vs)) : Gives (fieldItems v name) s vs s :=
  Gives.bind (gives_field h) (gives_items rfl)

theorem gives_setField (id : Nat) (name : String) (w : Value) :
    Gives (setField (.link id) name w) s () { s with graph := s.graph.setField id name w } := rfl

theorem gives_make {args : List Value} {e : Entry}
    (h : Entry.make? s.graph.origin form args = some e) :
    Gives (make form args) s (.link s.graph.entries.size)
        { s with graph := (s.graph.add e).2 } := by
  refine Gives.bind gives_origin ?_
  rw [h]
  rfl

end Work

/-! ### The global namespace -/

/-- The namespace that holds the toplevel declarations. -/
def Graph.isGlobal (g : Graph) (v : Value) : Bool :=
  g.hasForm v .nameSpace && (g.field? v "name").any (·.same (.text "::"))

theorem gives_findToplevel {s : Session} {tops : List Value} {ns : Value}
    (ho : s.graph.origin = .dump) (hns : vs.find? s.graph.isGlobal = some ns)
    (hMembers : s.graph.field? ns "members" = some (.list tops)) :
    Gives (findToplevel (.list vs)) s (.list tops) s := by
  refine Gives.get ((Work.gives_items rfl).bind ?_)
  simp only [ho]
  rw [show (fun item => s.graph.hasForm item .nameSpace &&
    (s.graph.field? item "name").any (·.same (.text "::"))) = s.graph.isGlobal from rfl, hns]
  exact (Work.gives_field hMembers).bind (.pure _ s)

def typedefEntry (name : String) (typ context : Value) : Entry :=
  ⟨.typedef, [("location", .nothing), ("name", .text name), ("typ", typ), ("context", context)]⟩

theorem make?_typedef (origin : Origin) (name : String) (typ context : Value) :
    Entry.make? origin .typedef [.text name, typ, context] =
    some (typedefEntry name typ context) := by
  cases origin <;> rfl

end PxdGen.Decl
