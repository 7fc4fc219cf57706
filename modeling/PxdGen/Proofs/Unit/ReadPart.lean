import Mathlib.Data.List.Forall2
import PxdGen.Proofs.Decl.Key
import PxdGen.Proofs.Unit.Item
import PxdGen.Proofs.Unit.ReadType
/-! # Reading fields and constants

A cursor is read in three steps: its declaration is made, the declaration is entered in the table,
and its children are read and added to it. `Extends` says what reading does to the graph and the
table apart from the declaration itself.
-/

namespace PxdGen.Index

open Decl Decl.Work

variable {tree : Tree} {s : Session}

variable {vs : List Value} {k : Constant}

/-! ### What reading adds -/

/-- A declaration that has been added to a graph, and is not a file. -/
structure IsNew (g g' : Graph) (v : Value) : Prop where
  link : ∃ id, v = .link id ∧ g.entries.size ≤ id
  name : ∃ name, g'.field? v "name" = some (.text name)
  form : ∃ form, g'.form? v = some form ∧ form ≠ .file

/-- Reading some cursors turns the graph and the table of a session into `g` and `t`. -/
structure Extends (tree : Tree) (free : Nat → String → Prop) (cs : List Nat) (s : Session)
    (g : Graph) (t : Table Key Value) : Prop where
  keeps : KeepsBut free s.graph g
  table : ∀ c, tree.hash c ∉ cs.map tree.hash → t.get? (tree.key c) = s.table.get? (tree.key c)
  values : ∀ v ∈ t.values, v ∈ s.table.values ∨ IsNew s.graph g v

variable {id c : Nat} {form : Form} {v : Value} {g g' : Graph} {free : Nat → String → Prop}

theorem IsNew.keeps {g'' : Graph} (h : IsNew g g' v) (hk : KeepsBut free g' g'') :
    IsNew g g'' v := by
  obtain ⟨id, rfl, hid⟩ := h.link
  obtain ⟨name, hname⟩ := h.name
  obtain ⟨form, hform, hne⟩ := h.form
  have hlt := g'.lt_size_of_form? hform
  exact ⟨⟨id, rfl, hid⟩, ⟨name, (hk.name id hlt).trans hname⟩, form, (hk.form id hlt).trans hform,
    hne⟩

namespace Extends

variable {free free' : Nat → String → Prop} {cs cs' : List Nat} {g g' : Graph}
  {t t' : Table Key Value}

theorem graph (h : KeepsBut free s.graph g) : Extends tree free cs s g s.table :=
  ⟨h, fun _ _ => rfl, fun _ hv => .inl hv⟩

theorem trans (h : Extends tree free cs s g t)
    (h' : Extends tree free' cs { s with graph := g, table := t } g' t')
    (hFree : ∀ id < s.graph.entries.size, ∀ name, free' id name → free id name) :
    Extends tree free cs s g' t' := by
  refine ⟨h.keeps.trans h'.keeps hFree, fun c hc => (h'.table c hc).trans (h.table c hc), ?_⟩
  · intro v hv
    rcases h'.values v hv with hv | hv
    · exact (h.values v hv).imp_right fun hNew => hNew.keeps h'.keeps
    · obtain ⟨id, rfl, hid⟩ := hv.link
      exact .inr ⟨⟨id, rfl, Nat.le_trans h.keeps.size hid⟩, hv.name, hv.form⟩

theorem weaken (h : Extends tree free cs s g t) (hFree : ∀ id name, free id name → free' id name)
    (hcs : ∀ c ∈ cs, c ∈ cs') : Extends tree free' cs' s g t := by
  refine ⟨h.keeps.weaken hFree, fun c hc => h.table c ?_, h.values⟩
  intro hmem
  obtain ⟨d, hd, hEq⟩ := List.mem_map.1 hmem
  exact hc (List.mem_map.2 ⟨d, hcs d hd, hEq⟩)

theorem context (h : Extends tree free cs { s with context := vs } g t) :
    Extends tree free cs s g t := ⟨h.keeps, h.table, h.values⟩

theorem allKnown (h : Extends tree free cs s g t) {ds : List Nat}
    (hd : ∀ d ∈ ds, tree.hash d ∉ cs.map tree.hash) (hKnown : AllKnown tree s ds) :
    AllKnown tree { s with graph := g, table := t } ds := by
  intro d hmem
  obtain ⟨id, name, hs, hKnown⟩ := hKnown d hmem
  have hk := hKnown.keeps h.keeps
  exact ⟨id, name, hs, (h.table d (hd d hmem)).trans hKnown.table, hk.form, hk.name⟩

end Extends

/-! ### Entering a declaration -/

/-- Where the declaration of a cursor stands, if that is in a file. -/
def located (tree : Tree) (c id : Nat) (g : Graph) : Graph :=
  match (tree.cursor (.numbered c)).location.file with
  | some file => g.setField id "location"
      (.tuple [.text file, .int (tree.cursor (.numbered c)).location.line.toNat])
  | none => g

theorem keepsBut_located (tree : Tree) (c : Nat) (hid : id < g.entries.size) :
    KeepsBut (Only id "location") g (located tree c id g) := by
  unfold located
  split
  · exact KeepsBut.setField hid _ (by simp) ⟨rfl, rfl⟩
  · exact KeepsBut.refl _ g

@[simp] theorem origin_located (tree : Tree) (c id : Nat) (g : Graph) :
    (located tree c id g).origin = g.origin := by
  unfold located
  split <;> rfl

/-- The state behind entering a declaration. -/
def entered (tree : Tree) (c id : Nat) (s : Session) : Session :=
  { s with graph := located tree c id s.graph, table := s.table.insert (tree.key c) (.link id) }

theorem yields_enter {kind typeKind : Kind} {level : Nat} {name : Value}
    (hType : tree.typeKind (tree.cursor (.numbered c)).type = .ok typeKind)
    (hName : s.graph.field? (.link id) "name" = some name) :
    Yields (enter tree (.numbered c) kind (.link id) level) s () (entered tree c id s) := by
  have hid := s.graph.lt_size_of_field? hName
  have hName' : (entered tree c id s).graph.field? (.link id) "name" = some name :=
    ((keepsBut_located tree c hid).name id hid).trans hName
  have rest : Yields (do
      register (tree.key c) (.link id)
      let typeKind ← check (tree.typeKind (tree.cursor (.numbered c)).type)
      tell level ["cursor:", kind.text, typeKind.text]
      tell level ["name:", ← literal (← field (.link id) "name")]
      say "") { s with graph := located tree c id s.graph } () (entered tree c id s) := by
    refine Yields.bind (yields_register _ _) (Yields.bind (yields_check hType) ?_)
    refine Yields.bind (yields_tell _ _) (Yields.bind (yields_field hName') ?_)
    exact Yields.bind (yields_literal _) (Yields.bind (yields_tell _ _) (yields_say _))
  unfold enter
  unfold located at rest
  cases hf : (tree.cursor (.numbered c)).location.file with
  | none =>
    simp only [hf] at rest ⊢
    exact rest
  | some file =>
    simp only [hf] at rest ⊢
    exact Yields.bind (yields_setField _ _ _) rest

theorem extends_entered (hg : KeepsBut free s.graph g) (hid : s.graph.entries.size ≤ id)
    {name : String} (hName : g.field? (.link id) "name" = some (.text name))
    (hForm : g.form? (.link id) = some form) (hne : form ≠ .file) :
    Extends tree free [c] s (located tree c id g) (s.table.insert (tree.key c) (.link id)) := by
  have hlt := g.lt_size_of_form? hForm
  have hk := keepsBut_located tree c hlt
  refine ⟨KeepsBut.trans hg hk fun i hi _ e => ?_, ?_, ?_⟩
  · have : _ = id := e.1
    omega
  · intro d hd
    exact Table.get?_insert_of_ne _ _ (by simpa [Tree.hash, eq_comm] using hd)
  · intro v hv
    rcases Table.mem_values_insert _ _ hv with rfl | hv
    · exact .inr ⟨⟨id, rfl, hid⟩, ⟨name, (hk.name id hlt).trans hName⟩,
        form, (hk.form id hlt).trans hForm, hne⟩
    · exact .inl hv

/-! ### Reading a cursor -/

theorem yields_close (hText : s.openText = none) (hKey : s.openKey = none) :
    Yields (modify fun s => { s with openText := none, openKey := none }) s () s := by
  cases s
  cases hText
  cases hKey
  exact yields_modify _ fun _ => rfl

section Step

variable {type : TypeRef → Nat → Work (Option Typed)} {sub : Cursor → Nat → Work Value}
  {c id level : Nat} {kind typeKind : Kind} {name : String} {p q : Session}

variable (hk : tree.kind (.numbered c) = .ok kind)
  (hType : tree.typeKind (tree.cursor (.numbered c)).type = .ok typeKind)
  (hVisit : Yields (visit tree type (.numbered c) kind level) s (.link id) p)
  (hName : p.graph.field? (.link id) "name" = some (.text name))

include hk hType hVisit hName

/-- A cursor whose children are not read. -/
theorem yields_leaf (hEntered : isEntered kind = false)
    (hFile : (tree.cursor (.numbered c)).location.file.isNone = false)
    (hText : p.openText = none) (hKey : p.openKey = none) :
    Yields (elementStep tree type sub (.numbered c) level) s (.link id) (entered tree c id p) := by
  refine Yields.bind (yields_check hk) ?_
  rw [if_neg (by simp [hFile])]
  refine Yields.bind hVisit (Yields.bind (yields_enter hType hName) ?_)
  rw [if_neg (by simp [hEntered])]
  exact Yields.bind (yields_close hText hKey) (.pure _ _)

/-- A cursor whose children are read while its declaration is the innermost. -/
theorem yields_parent (hEntered : isEntered kind = true)
    (hFile : (tree.cursor (.numbered c)).location.file.isNone = false ∨
    kind.name = "TRANSLATION_UNIT")
    (hChildren : Yields (readChildren sub (.link id) level (tree.cursor (.numbered c)).children)
      { entered tree c id p with context := .link id :: p.context } () q)
    (hContext : q.context = .link id :: p.context)
    (hText : q.openText = none) (hKey : q.openKey = none) :
    Yields (elementStep tree type sub (.numbered c) level) s (.link id)
      { q with context := p.context } := by
  refine Yields.bind (yields_check hk) ?_
  rw [if_neg (by rcases hFile with h | h <;> simp [h])]
  refine Yields.bind hVisit (Yields.bind (yields_enter hType hName) ?_)
  rw [if_pos hEntered]
  refine Yields.bind (yields_push _) (Yields.bind hChildren (Yields.bind (yields_pop hContext) ?_))
  exact Yields.bind (yields_close hText hKey) (.pure _ _)

end Step

/-! ### Parts -/

/-- The declarations of a type that is small enough to be mentioned. -/
structure ShowsType (g : Graph) (v : Value) (type : UnitType) : Prop where
  shows : Shows g 0 v type
  height : type.height ≤ g.entries.size

theorem ShowsType.keeps {type : UnitType} (h : ShowsType g v type) (hk : KeepsBut free g g')
    (hs : IsSteady free g 0) :
    ShowsType g' v type := ⟨h.shows.keeps hk hs, Nat.le_trans h.height hk.size⟩

theorem ReadsType.showsType {x : Work (Option Typed)} {type : UnitType} {typed : Typed}
    (h : ReadsType s x type typed g) (hk : Keeps g g') (hlt : g.entries.size < g'.entries.size) :
    ShowsType g' typed.value type := by
  refine ⟨(h.shows.mono (Nat.zero_le _)).keepsAll hk, ?_⟩
  have h1 := type.height_le
  have h2 := h.size
  omega

/-- A value that links to the declaration of a field. -/
structure HoldsField (g : Graph) (v : Value) (m : Member) : Prop where
  form : g.form? v = some .field
  name : g.field? v "name" = some (.text m.name)
  typ : ∃ w, g.field? v "typ" = some w ∧ ShowsType g w m.type

structure HoldsConstant (g : Graph) (v : Value) (k : Constant) : Prop where
  form : g.form? v = some .enumValue
  name : g.field? v "name" = some (.text k.name)

structure HoldsParam (g : Graph) (v : Value) (m : Member) : Prop where
  entry : ∃ id w, v = .link id ∧ g.get? id = some (argumentEntry m.name w) ∧ ShowsType g w m.type

theorem exists_link_of_form? (h : g.form? v = some form) :
    ∃ id, v = .link id ∧ id < g.entries.size := by
  cases v with
  | link id => exact ⟨id, rfl, g.lt_size_of_form? h⟩
  | _ => cases h

variable {m : Member}

section Keeps

variable {free : Nat → String → Prop} {g g' : Graph} {v : Value}

theorem HoldsField.keeps (h : HoldsField g v m) (hk : KeepsBut free g g') (hs : IsSteady free g 0)
    (hTyp : ∀ id, ¬ free id "typ") : HoldsField g' v m := by
  obtain ⟨id, rfl, hid⟩ := exists_link_of_form? h.form
  obtain ⟨w, hw, hShows⟩ := h.typ
  exact ⟨(hk.form id hid).trans h.form, (hk.name id hid).trans h.name,
    w, (hk.field id hid _ (hTyp id)).trans hw, hShows.keeps hk hs⟩

theorem HoldsConstant.keeps (h : HoldsConstant g v k) (hk : KeepsBut free g g') :
    HoldsConstant g' v k := by
  obtain ⟨id, rfl, hid⟩ := exists_link_of_form? h.form
  exact ⟨(hk.form id hid).trans h.form, (hk.name id hid).trans h.name⟩

theorem HoldsParam.keeps (h : HoldsParam g v m) (hk : KeepsBut free g g') (hs : IsSteady free g 0) :
    HoldsParam g' v m := by
  obtain ⟨id, w, rfl, he, hShows⟩ := h.entry
  exact ⟨id, w, rfl, hk.steady hs (Nat.zero_le id) he rfl, hShows.keeps hk hs⟩

end Keeps

/-- A declaration that is not settled may be filled. -/
theorem isSteady_of_form {owner : Nat} (h : g.form? (.link owner) = some form)
    (hs : isSettled form = false) (field : String) (low : Nat) :
    IsSteady (Only owner field) g low := by
  rintro id e _ he hSettled name ⟨rfl, _⟩
  rw [g.form?_of_get? he, Option.some.injEq] at h
  rw [h, hs] at hSettled
  cases hSettled

/-- What the readers of types are given: types are read as deep as types can be. -/
def typeReader (tree : Tree) (element : Cursor → Nat → Work Value) (t : TypeRef) (level : Nat) :
    Work (Option Typed) := readType tree element (2 * tree.types.size + 3) t level true

theorem Tree.Denotes.reads {t : TypeRef} {type : UnitType} (h : tree.Denotes t type)
    (element : Cursor → Nat → Work Value) (ho : s.graph.origin = .unit)
    (hKnown : AllKnown tree s type.tags) (level : Nat) :
    ∃ typed g, ReadsType s (typeReader tree element t level) type typed g :=
  h.readsType element ho hKnown (by have := h.depth_le; omega) level true

variable {sub : Cursor → Nat → Work Value}

/-- **A constant is read.** -/
theorem Tree.IsConstant.yields {type : TypeRef → Nat → Work (Option Typed)} (h : tree.IsConstant k)
    (ho : s.graph.origin = .unit) (hText : s.openText = none) (hKey : s.openKey = none)
    (level : Nat) :
    ∃ id g t, Yields (elementStep tree type sub (.numbered k.cursor) level) s (.link id)
        { s with graph := g, table := t } ∧
      Extends tree (fun _ _ => False) [k.cursor] s g t ∧ HoldsConstant g (.link id) k := by
  obtain ⟨kind, hk, hn⟩ := h.stands.kind
  obtain ⟨file, hFile⟩ := h.stands.file
  obtain ⟨typeKind, hType⟩ := h.stands.typeKind
  let e : Entry :=
    ⟨.enumValue, [("location", .nothing), ("name", .text k.name), ("value", .int k.value)]⟩
  let g := (s.graph.add e).2
  have he : g.get? s.graph.entries.size = some e := s.graph.get?_add_self e
  have hName := g.field?_of_get? he "name"
  have hForm := g.form?_of_get? he
  have hVisit : Yields (visit tree type (.numbered k.cursor) kind level) s
      (.link s.graph.entries.size) { s with graph := g } := by
    simp only [visit, hn]
    refine Yields.bind (yields_check h.stands.spelling) (Yields.bind (yields_check h.value) ?_)
    exact yields_make (by rw [ho]; rfl)
  have hRead : Yields (elementStep tree type sub (.numbered k.cursor) level) s _
      (entered tree k.cursor _ { s with graph := g }) :=
    yields_leaf hk hType hVisit hName (by simp [isEntered, hn]) (by simp [hFile]) hText hKey
  refine ⟨_, _, _, hRead, ?_, ?_⟩
  · exact extends_entered (KeepsBut.add _ _ _) (Nat.le_refl _) hName hForm (by simp [e])
  · exact HoldsConstant.keeps ⟨hForm, hName⟩ (keepsBut_located tree _ (g.lt_size_of_get? he))

/-- **A field is read**, as one of the innermost declaration. -/
theorem Tree.IsField.yields {element : Cursor → Nat → Work Value} (h : tree.IsField m)
    (ho : s.graph.origin = .unit) (hText : s.openText = none) (hKey : s.openKey = none)
    {owner : Value} {rest : List Value} (hTop : s.context = owner :: rest)
    (hKnown : AllKnown tree s m.type.tags) (level : Nat) :
    ∃ id g t, Yields (elementStep tree (typeReader tree element) sub (.numbered m.cursor) level) s
        (.link id) { s with graph := g, table := t } ∧
      Extends tree (fun _ _ => False) [m.cursor] s g t ∧ HoldsField g (.link id) m := by
  obtain ⟨kind, hk, hn⟩ := h.stands.kind
  obtain ⟨file, hFile⟩ := h.stands.file
  obtain ⟨typeKind, hType⟩ := h.stands.typeKind
  obtain ⟨typed, g₁, hr⟩ := h.type.reads element ho hKnown level
  let e : Entry := ⟨.field, [("location", .nothing), ("name", .text m.name), ("typ", typed.value),
    ("context", owner)]⟩
  let g := (g₁.add e).2
  have he : g.get? g₁.entries.size = some e := g₁.get?_add_self e
  have hKeeps : Keeps g₁ g := KeepsBut.add _ _ _
  have hName := g.field?_of_get? he "name"
  have hForm := g.form?_of_get? he
  have hlt := g.lt_size_of_get? he
  have hVisit : Yields (visit tree (typeReader tree element) (.numbered m.cursor) kind level) s
      (.link g₁.entries.size) { s with graph := g } := by
    simp only [visit, hn]
    have hByField : Yields (nameByField tree (.numbered m.cursor)) s () s := by
      simp only [nameByField, h.children]
      exact .pure _ _
    refine Yields.bind hByField (Yields.bind (yields_top hTop) ?_)
    refine Yields.bind (yields_check h.stands.spelling) (Yields.bind hr.yields ?_)
    exact Yields.bind (.pure _ _) (yields_make_unit (hr.keeps.origin.trans ho) rfl)
  let s' := entered tree m.cursor g₁.entries.size { s with graph := g }
  have hRead : Yields (elementStep tree (typeReader tree element) sub (.numbered m.cursor) level) s
      (.link g₁.entries.size) s' := by
    refine yields_parent hk hType hVisit hName (by simp [isEntered, hn]) (.inl (by simp [hFile]))
      (q := { s' with context := .link g₁.entries.size :: s.context }) ?_ rfl hText hKey
    rw [h.children]
    exact .pure _ _
  refine ⟨_, _, _, hRead, ?_, ?_⟩
  · exact extends_entered (hr.keeps.trans hKeeps) hr.keeps.size hName hForm (by simp [e])
  · have hShows : ShowsType g typed.value m.type := hr.showsType hKeeps hlt
    exact HoldsField.keeps ⟨hForm, hName, _, g.field?_of_get? he "typ", hShows⟩
      (keepsBut_located tree _ hlt) (isSteady_of_form hForm rfl _ _) (by rintro _ ⟨_, h⟩; simp at h)

/-! ### Children -/

section Child

variable {owner : Nat} {form : Form} {slot : Slot} (ho : s.graph.origin = .unit)
  (hForm : s.graph.form? (.link owner) = some form)

include ho hForm

theorem yields_takesChildren (hSlot : slot? .unit form "add_child" = some slot) :
    Yields (takesChildren (.link owner)) s true s := by
  refine yields_get_bind fun k => ?_
  simp only [hForm, ho, Option.bind_some, hSlot]
  exact .pure _ _

theorem yields_add {operation : String} (hSlot : slot? .unit form operation = some slot)
    (item : Nat) (hList : s.graph.field? (.link owner) slot.name = some (.list vs)) :
    Yields (add operation (.link owner) (.link item)) s ()
        { s with graph := s.graph.setField owner slot.name (.list (vs ++ [.link item])) } := by
  refine yields_get_bind fun k => ?_
  simp only [hForm, ho, Option.bind_some, hSlot]
  cases hSkips : slot.skips <;> simpa only [addTo, hSkips] using yields_append _ hList

end Child

section Children

variable {α : Type} {cursor : α → Nat} {Holds : Graph → Value → α → Prop} {Ready : Session → Prop}
  {sub : Cursor → Nat → Work Value} {owner level : Nat} {form : Form} {slot : Slot} {cs : List Nat}

/-- **The children of a declaration are read** and added to it, one after the other. What has to be
ready for reading a child stays so, and what has been read stays what it is. -/
theorem yields_readChildren (hSlot : slot? .unit form "add_child" = some slot)
    (hSlotName : slot.name ≠ "name")
    (hReady : ∀ s g t, Ready s → Extends tree (Only owner slot.name) cs s g t →
      Ready { s with graph := g, table := t })
    (hHolds : ∀ g g' v a, g.form? (.link owner) = some form → Holds g v a →
      KeepsBut (Only owner slot.name) g g' → Holds g' v a) (parts : List α)
    (hRead : ∀ s, ∀ a ∈ parts, Ready s → ∃ id g t, Yields (sub (.numbered (cursor a)) (level + 1)) s
      (.link id) { s with graph := g, table := t } ∧
        Extends tree (fun _ _ => False) [cursor a] s g t ∧ Holds g (.link id) a)
    (hcs : ∀ a ∈ parts, cursor a ∈ cs) {s : Session}
    (ho : s.graph.origin = .unit) (hForm : s.graph.form? (.link owner) = some form)
    (hList : s.graph.field? (.link owner) slot.name = some (.list vs)) (h : Ready s) :
    ∃ vs' g t, Yields (readChildren sub (.link owner) level (parts.map cursor)) s ()
        { s with graph := g, table := t } ∧
      Extends tree (Only owner slot.name) cs s g t ∧
      g.field? (.link owner) slot.name = some (.list (vs ++ vs')) ∧
      List.Forall₂ (Holds g) vs' parts := by
  induction parts generalizing s vs with
  | nil =>
    exact ⟨[], s.graph, s.table, .pure _ _, .graph (.refl _ _), by simpa using hList, .nil⟩
  | cons a parts ih =>
    obtain ⟨id, g₁, t₁, hYields, hExt, hHold⟩ := hRead s a (by simp) h
    have hOwner := s.graph.lt_size_of_form? hForm
    have hForm₁ := (hExt.keeps.form owner hOwner).trans hForm
    have hList₁ := (hExt.keeps.field owner hOwner slot.name False.elim).trans hList
    have ho₁ := hExt.keeps.origin.trans ho
    have hOwner₁ := g₁.lt_size_of_form? hForm₁
    let g₂ := g₁.setField owner slot.name (.list (vs ++ [.link id]))
    have hKeeps : KeepsBut (Only owner slot.name) g₁ g₂ :=
      KeepsBut.setField hOwner₁ _ hSlotName ⟨rfl, rfl⟩
    have hList₂ : g₂.field? (.link owner) slot.name = some (.list (vs ++ [.link id])) := by
      rw [Graph.field?_setField g₁ hOwner₁, if_pos ⟨rfl, rfl⟩]
    -- the child has been read and added to its owner
    have hExt₁ : Extends tree (Only owner slot.name) cs s g₁ t₁ :=
      hExt.weaken (fun _ _ => False.elim) (by simpa using hcs a (by simp))
    have hExt₂ : Extends tree (Only owner slot.name) cs s g₂ t₁ :=
      hExt₁.trans (.graph hKeeps) fun _ _ _ h => h
    obtain ⟨vs', g₃, t₃, hRest, hExt₃, hList₃, hAll⟩ := ih (fun s b hb => hRead s b (by simp [hb]))
      (fun b hb => hcs b (by simp [hb])) (s := { s with graph := g₂, table := t₁ }) ho₁
      ((hKeeps.form owner hOwner₁).trans hForm₁) hList₂ (hReady s g₂ t₁ h hExt₂)
    refine ⟨.link id :: vs', g₃, t₃, ?_, hExt₂.trans hExt₃ fun _ _ _ h => h, by simpa using hList₃,
      ?_⟩
    · let s₁ : Session := { s with graph := g₁, table := t₁ }
      refine Yields.bind hYields (Yields.bind (yields_takesChildren (s := s₁) ho₁ hForm₁ hSlot) ?_)
      rw [if_pos rfl]
      exact Yields.bind (yields_add (s := s₁) ho₁ hForm₁ hSlot id hList₁) hRest
    · have hKeeps₁₃ : KeepsBut (Only owner slot.name) g₁ g₃ :=
        hKeeps.trans hExt₃.keeps fun _ _ _ h => h
      exact .cons (hHolds _ _ _ _ hForm₁ hHold hKeeps₁₃) hAll

end Children

end PxdGen.Index
