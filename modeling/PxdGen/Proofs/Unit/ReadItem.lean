import PxdGen.Proofs.Unit.ReadPart
/-! # Reading declarations

Each declaration of a flat unit is read into a declaration of the graph that holds the same. Nothing
that has been read before changes, with one exception: a typedef of a struct, union or enumeration
gives it a typedef name, and takes it out of the file if it has no name of its own.
-/

namespace PxdGen.Index

open Decl Decl.Work

variable {tree : Tree} {s : Session}

def Content.form : Content → Form
  | .record false _ => .struct
  | .record true _ => .union
  | .enumeration _ => .enumeration
  | .function _ _ => .function
  | .typedef _ => .typedef
  | .global _ => .globalVariable

/-- What a declaration of the graph holds. -/
def HoldsContent (tree : Tree) (file : Nat) (g : Graph) (t : Table Key Value) (v : Value) :
    Content → Prop
  | .record _ fields =>
    g.field? v "context" = some (.link file) ∧
      ∃ vs, g.field? v "members" = some (.list vs) ∧ List.Forall₂ (HoldsField g) vs fields
  | .enumeration constants =>
    g.field? v "context" = some (.link file) ∧
      ∃ vs, g.field? v "values" = some (.list vs) ∧ List.Forall₂ (HoldsConstant g) vs constants
  | .function result params =>
    (∃ w, g.field? v "returns" = some w ∧ ShowsType g w result) ∧
      ∃ vs, g.field? v "arguments" = some (.list vs) ∧ List.Forall₂ (HoldsParam g) vs params
  | .global type => ∃ w, g.field? v "typ" = some w ∧ ShowsType g w type
  | .typedef type =>
    ∃ w, g.field? v "typ" = some w ∧ ShowsType g w type ∧ ∀ d name, type = .tagged d name →
      t.get? (tree.key d) = some w ∧ (g.field? w "typedef_name").isSome

/-- A value links to what a declaration has been read into. -/
structure Holds (tree : Tree) (file : Nat) (g : Graph) (t : Table Key Value) (v : Value)
    (i : Item) : Prop where
  form : g.form? v = some i.content.form
  name : g.field? v "name" = some (.text i.name)
  location : (g.field? v "location").isSome
  content : HoldsContent tree file g t v i.content

/-- What is filled after a declaration has been read. -/
def IsLate (g : Graph) (id : Nat) (name : String) : Prop :=
  name = "location" ∨ name = "typedef_name" ∨ name = "members" ∧ g.form? (.link id) = some .file

/-- **What has been read stays what it is**, while the rest of the unit is read. -/
theorem Holds.keeps {free : Nat → String → Prop} {file : Nat} {g g' : Graph}
    {t t' : Table Key Value} {v : Value} {i : Item} (h : Holds tree file g t v i)
    (hk : KeepsBut free g g') (hs : IsSteady free g 0)
    (hFree : ∀ id name, free id name → IsLate g id name)
    (hTable : ∀ d name, i.tag? = some (d, name) → t'.get? (tree.key d) = t.get? (tree.key d)) :
    Holds tree file g' t' v i := by
  obtain ⟨id, rfl, hid⟩ := exists_link_of_form? h.form
  have hField : ∀ {name w}, name ∉ ["location", "typedef_name", "members"] →
      g.field? (.link id) name = some w → g'.field? (.link id) name = some w := by
    intro name w hname hw
    refine (hk.field id hid name fun hf => hname ?_).trans hw
    rcases hFree id name hf with h | h | h <;> simp [h]
  refine ⟨(hk.form id hid).trans h.form, (hk.name id hid).trans h.name, hk.has id _ h.location, ?_⟩
  have hForm := h.form
  have hContent := h.content
  cases hi : i.content with
  | record isUnion fields =>
    rw [hi] at hForm hContent
    obtain ⟨hContext, vs, hMembers, hAll⟩ := hContent
    refine ⟨hField (by simp) hContext, vs, ?_, hAll.imp fun _ _ hPart => ?_⟩
    · refine (hk.field id hid _ fun hf => ?_).trans hMembers
      have := hFree id _ hf
      cases isUnion <;> simp [IsLate, hForm, Content.form] at this
    · refine hPart.keeps hk hs fun id' hf => ?_
      have := hFree id' _ hf
      simp [IsLate] at this
  | enumeration constants =>
    rw [hi] at hContent
    obtain ⟨hContext, vs, hValues, hAll⟩ := hContent
    exact ⟨hField (by simp) hContext, vs, hField (by simp) hValues,
      hAll.imp fun _ _ hPart => hPart.keeps hk⟩
  | function result params =>
    rw [hi] at hContent
    obtain ⟨⟨w, hw, hShows⟩, vs, hArgs, hAll⟩ := hContent
    exact ⟨⟨w, hField (by simp) hw, hShows.keeps hk hs⟩, vs, hField (by simp) hArgs,
      hAll.imp fun _ _ hPart => hPart.keeps hk hs⟩
  | global type =>
    rw [hi] at hContent
    obtain ⟨w, hw, hShows⟩ := hContent
    exact ⟨w, hField (by simp) hw, hShows.keeps hk hs⟩
  | typedef type =>
    rw [hi] at hContent
    obtain ⟨w, hw, hShows, hTag⟩ := hContent
    refine ⟨w, hField (by simp) hw, hShows.keeps hk hs, ?_⟩
    rintro d name rfl
    obtain ⟨hd, hName⟩ := hTag d name rfl
    obtain ⟨id', rfl⟩ := hShows.shows.isLink
    exact ⟨(hTable d name (by simp [Item.tag?, hi])).trans hd, hk.has _ _ hName⟩

/-! ### Structs, unions and enumerations -/

section Tag

variable {α : Type} {cursor : α → Nat} (HoldsPart : Graph → Value → α → Prop)
  (Ready : Session → Prop) {type : TypeRef → Nat → Work (Option Typed)}
  {sub : Cursor → Nat → Work Value} {c level : Nat} {kindName name : String} {kind : Kind}
  {e : Entry} (slot : Slot) {parts : List α}

/-- A cursor is read into a declaration that holds what its children are read into. -/
theorem yields_tag (hStands : tree.Stands c kindName name)
    (hk : tree.kind (.numbered c) = .ok kind) (hEntered : isEntered kind = true)
    (hVisit : Yields (visit tree type (.numbered c) kind level) s (.link s.graph.entries.size)
      { s with graph := (s.graph.add e).2 })
    (hName : e.get? "name" = some (.text name)) (hFile : e.form ≠ .file) {context : Value}
    (hContext : e.get? "context" = some context)
    (hLocation : e.get? "location" = some .nothing)
    (hSlot : slot? .unit e.form "add_child" = some slot)
    (hSlotName : slot.name ∈ ["members", "values"]) (hEmpty : e.get? slot.name = some (.list []))
    (hChildren : (tree.cursor (.numbered c)).children = parts.map cursor)
    (hReady : ∀ s' g t, Ready s' →
      Extends tree (Only s.graph.entries.size slot.name) (parts.map cursor) s' g t →
      Ready { s' with graph := g, table := t })
    (hHolds : ∀ g g' v a, g.form? (.link s.graph.entries.size) = some e.form → HoldsPart g v a →
      KeepsBut (Only s.graph.entries.size slot.name) g g' → HoldsPart g' v a)
    (hRead : ∀ s, ∀ a ∈ parts, Ready s → ∃ id g t, Yields (sub (.numbered (cursor a)) (level + 1)) s
      (.link id) { s with graph := g, table := t } ∧
        Extends tree (fun _ _ => False) [cursor a] s g t ∧ HoldsPart g (.link id) a)
    (ho : s.graph.origin = .unit) (hText : s.openText = none) (hKey : s.openKey = none)
    (hDistinct : tree.hash c ∉ (parts.map cursor).map tree.hash)
    (h : Ready { entered tree c s.graph.entries.size { s with graph := (s.graph.add e).2 } with
      context := .link s.graph.entries.size :: s.context }) :
    ∃ vs g t, Yields (elementStep tree type sub (.numbered c) level) s
        (.link s.graph.entries.size) { s with graph := g, table := t } ∧
      Extends tree (fun _ _ => False) (c :: parts.map cursor) s g t ∧
      t.get? (tree.key c) = some (.link s.graph.entries.size) ∧
      (g.form? (.link s.graph.entries.size) = some e.form ∧
        g.field? (.link s.graph.entries.size) "name" = some (.text name) ∧
        (g.field? (.link s.graph.entries.size) "location").isSome ∧
        g.field? (.link s.graph.entries.size) "context" = some context) ∧
      g.field? (.link s.graph.entries.size) slot.name = some (.list vs) ∧
      List.Forall₂ (HoldsPart g) vs parts := by
  obtain ⟨file, hInFile⟩ := hStands.file
  obtain ⟨typeKind, hType⟩ := hStands.typeKind
  let r := s.graph.entries.size
  let g₁ := (s.graph.add e).2
  let g₂ := located tree c r g₁
  let s₁ : Session := { s with graph := g₁ }
  let s₂ : Session := { entered tree c r s₁ with context := .link r :: s.context }
  have he : g₁.get? r = some e := s.graph.get?_add_self e
  have hlt := g₁.lt_size_of_get? he
  have hName₁ := (g₁.field?_of_get? he "name").trans hName
  have hForm₁ := g₁.form?_of_get? he
  have hLocated : KeepsBut (Only r "location") g₁ g₂ := keepsBut_located tree c hlt
  have hForm₂ : g₂.form? (.link r) = some e.form := (hLocated.form r hlt).trans hForm₁
  have hSlotNe : slot.name ≠ "location" ∧ slot.name ≠ "name" := by
    simp only [List.mem_cons, List.not_mem_nil, or_false] at hSlotName
    rcases hSlotName with h | h <;> simp [h]
  have hList₂ : g₂.field? (.link r) slot.name = some (.list []) :=
    (hLocated.field r hlt _ fun h => hSlotNe.1 h.2).trans ((g₁.field?_of_get? he _).trans hEmpty)
  obtain ⟨vs, g, t, hYields, hExt, hList, hAll⟩ := yields_readChildren hSlot hSlotNe.2 hReady hHolds
    parts hRead (fun a ha => List.mem_map_of_mem ha) (s := s₂)
    (hLocated.origin.trans ho) hForm₂ hList₂ h
  refine ⟨vs, g, t, ?_, ?_, ?_, ?_, hList, hAll⟩
  · exact yields_parent hk hType hVisit hName₁ hEntered (.inl (by simp [hInFile]))
      (p := s₁) (q := { s₂ with graph := g, table := t }) (hChildren ▸ hYields) rfl hText hKey
  · have hEnter : Extends tree (fun _ _ => False) (c :: parts.map cursor) s g₂ s₂.table :=
      (extends_entered (KeepsBut.add _ _ _) (Nat.le_refl r) hName₁ hForm₁ hFile).weaken
        (fun _ _ h => h) fun d hd => by simp [List.mem_singleton.1 hd]
    have hRest : Extends tree (Only r slot.name) (parts.map cursor) (entered tree c r s₁) g t :=
      hExt.context
    refine hEnter.trans (hRest.weaken (fun _ _ h => h) fun d hd => List.mem_cons_of_mem c hd) ?_
    rintro id hid _ ⟨rfl, _⟩
    exact Nat.lt_irrefl _ hid
  · exact (hExt.table c hDistinct).trans (Table.get?_insert_self _ _ _)
  · have hKeeps : KeepsBut (fun id name => id = r ∧ (name = "location" ∨ name = slot.name)) g₁ g :=
      (hLocated.weaken fun id name h => ⟨h.1, .inl h.2⟩).trans hExt.keeps
        fun id _ name h => ⟨h.1, .inr h.2⟩
    have hNotContext : ¬ (r = r ∧ ("context" = "location" ∨ "context" = slot.name)) := by
      simp only [List.mem_cons, List.not_mem_nil, or_false] at hSlotName
      rcases hSlotName with h | h <;> simp [h]
    exact ⟨(hKeeps.form r hlt).trans hForm₁, (hKeeps.name r hlt).trans hName₁,
      hKeeps.has r _ (by rw [g₁.field?_of_get? he, hLocation]; rfl),
      (hKeeps.field r hlt _ hNotContext).trans ((g₁.field?_of_get? he _).trans hContext)⟩

end Tag

/-- What reading a declaration comes to. -/
structure ReadsItem (tree : Tree) (file : Nat) (x : Work Value) (i : Item) (s : Session) (id : Nat)
    (g : Graph) (t : Table Key Value) : Prop where
  yields : Yields x s (.link id) { s with graph := g, table := t }
  new : s.graph.entries.size ≤ id
  table : t.get? (tree.key i.cursor) = some (.link id)
  holds : Holds tree file g t (.link id) i

/-- A new struct or union. -/
def recordEntry (isUnion : Bool) (name : String) (context : Value) : Entry :=
  ⟨if isUnion then .union else .struct, [("location", .nothing), ("name", .text name),
    ("members", .list []), ("context", context)]⟩

def enumerationEntry (name : String) (context : Value) : Entry :=
  ⟨.enumeration, [("location", .nothing), ("name", .text name), ("context", context),
    ("values", .list [])]⟩

section Items

variable {i : Item} {file n level : Nat} {rest : List Value} (h : tree.Declares i)
  (ho : s.graph.origin = .unit) (hText : s.openText = none) (hKey : s.openKey = none)

include h ho hText hKey

/-- **An enumeration is read.** -/
theorem Tree.Declares.reads_enumeration {constants : List Constant}
    (hi : i.content = .enumeration constants) (hTop : s.context = .link file :: rest)
    (hDistinct : (i.cursors.map tree.hash).Nodup) :
    ∃ id g t, ReadsItem tree file (readElement tree (n + 2) (.numbered i.cursor) level) i s id g t ∧
      Extends tree (fun _ _ => False) i.cursors s g t := by
  have hContent := h.content
  have hCursors : i.cursors = i.cursor :: constants.map (·.cursor) := by
    simp only [Item.cursors, hi]
  rw [hi] at hContent
  obtain ⟨hChildren, hConstants⟩ := hContent
  obtain ⟨kind, hk, hn⟩ := hi ▸ h.stands.kind
  let e := enumerationEntry i.name (.link file)
  have hVisit : Yields (visit tree (typeReader tree (readElement tree (n + 1))) (.numbered i.cursor)
      kind level) s (.link s.graph.entries.size) { s with graph := (s.graph.add e).2 } := by
    simp only [visit, hn, Content.kindName]
    refine Yields.bind (yields_check h.stands.spelling) (Yields.bind (yields_top hTop) ?_)
    exact yields_make (by rw [ho]; rfl)
  have hRead : ∀ s', ∀ k ∈ constants,
      s'.graph.origin = .unit ∧ s'.openText = none ∧ s'.openKey = none → ∃ id g t,
        Yields (readElement tree (n + 1) (.numbered k.cursor) (level + 1)) s' (.link id)
          { s' with graph := g, table := t } ∧
        Extends tree (fun _ _ => False) [k.cursor] s' g t ∧ HoldsConstant g (.link id) k :=
    fun s' k hk hReady => (hConstants k hk).yields hReady.1 hReady.2.1 hReady.2.2 (level + 1)
  rw [hCursors] at hDistinct ⊢
  obtain ⟨vs, g, t, hYields, hExt, hTable, ⟨hForm, hName, hLocation, hContext⟩, hList, hAll⟩ :=
    yields_tag HoldsConstant _ ⟨"values", false⟩ h.stands hk
    (by simp [isEntered, hn, Content.kindName]) hVisit rfl (by simp [e, enumerationEntry]) rfl rfl
    rfl (by simp) rfl hChildren
    (fun s' g t hReady hExt => ⟨hExt.keeps.origin.trans hReady.1, hReady.2⟩)
    (fun _ _ _ _ _ hPart hk => hPart.keeps hk) hRead ho hText hKey
    (by simpa using (List.nodup_cons.1 hDistinct).1) ⟨by simpa [entered] using ho, hText, hKey⟩
  refine ⟨_, g, t, ⟨hYields, Nat.le_refl _, hTable, ?_⟩, hExt⟩
  refine ⟨by rw [hi]; exact hForm, hName, hLocation, ?_⟩
  rw [hi]
  exact ⟨hContext, vs, hList, hAll⟩

/-- **A struct or union is read.** What its fields are tagged by has been read before, or is the
struct or union itself. -/
theorem Tree.Declares.reads_record {isUnion : Bool} {fields : List Member}
    (hi : i.content = .record isUnion fields) (hTop : s.context = .link file :: rest)
    (hDistinct : (i.cursors.map tree.hash).Nodup)
    (hKnown : ∀ f ∈ fields, ∀ d ∈ f.type.tags, d = i.cursor ∨
      tree.hash d ∉ i.cursors.map tree.hash ∧ AllKnown tree s [d]) :
    ∃ id g t, ReadsItem tree file (readElement tree (n + 2) (.numbered i.cursor) level) i s id g t ∧
      Extends tree (fun _ _ => False) i.cursors s g t := by
  have hContent := h.content
  have hCursors : i.cursors = i.cursor :: fields.map (·.cursor) := by simp only [Item.cursors, hi]
  rw [hi] at hContent
  obtain ⟨hChildren, hFields⟩ := hContent
  obtain ⟨kind, hk, hn⟩ := hi ▸ h.stands.kind
  let r := s.graph.entries.size
  let e := recordEntry isUnion i.name (.link file)
  have hVisit : Yields (visit tree (typeReader tree (readElement tree (n + 1))) (.numbered i.cursor)
      kind level) s (.link r) { s with graph := (s.graph.add e).2 } := by
    cases isUnion with
    | false | true =>
      simp only [visit, hn, Content.kindName]
      refine Yields.bind (yields_check h.stands.spelling) (Yields.bind (yields_top hTop) ?_)
      exact yields_make (by rw [ho]; rfl)
  let Ready (s' : Session) : Prop := s'.graph.origin = .unit ∧ s'.openText = none ∧
    s'.openKey = none ∧ s'.context = .link r :: s.context ∧
    ∀ f ∈ fields, AllKnown tree s' f.type.tags
  have hRead : ∀ s', ∀ f ∈ fields, Ready s' → ∃ id g t,
      Yields (readElement tree (n + 1) (.numbered f.cursor) (level + 1)) s' (.link id)
        { s' with graph := g, table := t } ∧
      Extends tree (fun _ _ => False) [f.cursor] s' g t ∧ HoldsField g (.link id) f := by
    intro s' f hf hs'
    obtain ⟨ho', hText', hKey', hTop', hTags⟩ := hs'
    exact (hFields f hf).yields ho' hText' hKey' hTop' (hTags f hf) (level + 1)
  have hNotPart : tree.hash i.cursor ∉ (fields.map (·.cursor)).map tree.hash := by
    rw [hCursors] at hDistinct
    simpa using (List.nodup_cons.1 hDistinct).1
  have hApart :
      ∀ f ∈ fields, ∀ d ∈ f.type.tags, tree.hash d ∉ (fields.map (·.cursor)).map tree.hash := by
    intro f hf d hd
    rcases hKnown f hf d hd with rfl | ⟨hNew, _⟩
    · exact hNotPart
    · rw [hCursors] at hNew
      exact fun hmem => hNew (by simpa using .inr (by simpa using hmem))
  -- the struct or union is known as soon as it has been entered
  have hTags : ∀ f ∈ fields, AllKnown tree (entered tree i.cursor r
      { s with graph := (s.graph.add e).2 }) f.type.tags := by
    intro f hf d hd
    have he := s.graph.get?_add_self e
    have hlt := Graph.lt_size_of_get? _ he
    have hLocated := keepsBut_located tree i.cursor hlt
    have hForm := Graph.form?_of_get? _ he
    have hName := Graph.field?_of_get? _ he "name"
    have hTagged : isTagged e.form = true ∧ e.form ≠ .file := by
      cases isUnion <;> simp [e, recordEntry, isTagged]
    rcases hKnown f hf d hd with rfl | ⟨hNew, hKnown⟩
    · exact ⟨r, i.name, h.stands.spelling, Table.get?_insert_self _ _ _,
        ⟨e.form, (hLocated.form r hlt).trans hForm, hTagged.1⟩,
        (hLocated.name r hlt).trans hName⟩
    · have hExt : Extends tree (fun _ _ => False) [i.cursor] s _ _ :=
        extends_entered (KeepsBut.add _ _ e) (Nat.le_refl _) hName hForm hTagged.2
      refine hExt.allKnown ?_ hKnown d (by simp)
      intro d' hd'
      rw [List.mem_singleton.1 hd', hCursors] at *
      simp at hNew ⊢
      exact hNew.1
  have hReady : ∀ s' g t, Ready s' → Extends tree (Only r "members") (fields.map (·.cursor)) s' g
      t → Ready { s' with graph := g, table := t } := by
    intro s' g t hs' hExt
    obtain ⟨ho', hText', hKey', hTop', hTags'⟩ := hs'
    exact ⟨hExt.keeps.origin.trans ho', hText', hKey', hTop', fun f hf =>
      hExt.allKnown (hApart f hf) (hTags' f hf)⟩
  have hHolds : ∀ g g' v f, g.form? (.link r) = some e.form → HoldsField g v f →
      KeepsBut (Only r "members") g g' → HoldsField g' v f := by
    intro g g' v f hForm hPart hk
    refine hPart.keeps hk (isSteady_of_form hForm ?_ _ _) (by simp [Only])
    cases isUnion <;> rfl
  rw [hCursors]
  have hSlot : slot? .unit e.form "add_child" = some ⟨"members", true⟩ := by cases isUnion <;> rfl
  obtain ⟨vs, g, t, hYields, hExt, hTable, ⟨hForm, hName, hLocation, hContext⟩, hList, hAll⟩ :=
    yields_tag HoldsField Ready ⟨"members", true⟩ h.stands hk
    (by cases isUnion <;> simp [isEntered, hn, Content.kindName]) hVisit rfl
    (by cases isUnion <;> simp [e, recordEntry]) rfl rfl hSlot (by simp) rfl hChildren hReady
    hHolds hRead ho hText hKey hNotPart
    ⟨by simpa [entered] using ho, hText, hKey, rfl, fun f hf => (hTags f hf).context _⟩
  refine ⟨_, g, t, ⟨hYields, Nat.le_refl _, hTable, ?_⟩, hExt⟩
  refine ⟨?_, hName, hLocation, ?_⟩
  · rw [hi, hForm]
    cases isUnion <;> rfl
  · rw [hi]
    exact ⟨hContext, vs, hList, hAll⟩

end Items

/-! ### Functions and variables -/

def functionEntry (name : String) (returns : Value) : Entry :=
  ⟨.function, [("location", .nothing), ("name", .text name), ("returns", returns),
    ("context", .nothing), ("attributes", .nothing), ("extern", .nothing), ("arguments", .list [])]⟩

/-- **The parameters of a function are read** and added to it. -/
theorem yields_addParameters (element : Cursor → Nat → Work Value) (level : Nat) {f : Nat}
    (params : List Member) (hParams : ∀ p ∈ params, tree.IsParam p) {s : Session}
    (ho : s.graph.origin = .unit) (hForm : s.graph.form? (.link f) = some .function)
    (hKnown : ∀ p ∈ params, AllKnown tree s p.type.tags) {vs : List Value}
    (hList : s.graph.field? (.link f) "arguments" = some (.list vs)) :
    ∃ vs' g, Yields (addParameters tree (typeReader tree element) (.link f) level
        (params.map (·.cursor))) s () { s with graph := g } ∧
      KeepsBut (Only f "arguments") s.graph g ∧
      g.field? (.link f) "arguments" = some (.list (vs ++ vs')) ∧
      List.Forall₂ (HoldsParam g) vs' params := by
  induction params generalizing s vs with
  | nil => exact ⟨[], s.graph, .pure _ _, .refl _ _, by simpa using hList, .nil⟩
  | cons p params ih =>
    have hParam := hParams p (by simp)
    obtain ⟨kind, hKind⟩ := hParam.kind
    obtain ⟨typed, g₁, hr⟩ := hParam.type.reads element ho (hKnown p (by simp)) (level + 1)
    let e := argumentEntry p.name typed.value
    let g₂ := (g₁.add e).2
    let g₃ := g₂.setField f "arguments" (.list (vs ++ [.link g₁.entries.size]))
    have hKeeps₂ : Keeps s.graph g₂ := hr.keeps.trans (KeepsBut.add _ _ _)
    have hf := s.graph.lt_size_of_form? hForm
    have hForm₂ := (hKeeps₂.form f hf).trans hForm
    have hf₂ := g₂.lt_size_of_form? hForm₂
    have hList₂ := (hKeeps₂.field f hf "arguments" False.elim).trans hList
    have hKeeps₂₃ : KeepsBut (Only f "arguments") g₂ g₃ :=
      KeepsBut.setField hf₂ _ (by simp) ⟨rfl, rfl⟩
    have hKeeps₃ : KeepsBut (Only f "arguments") s.graph g₃ :=
      (hKeeps₂.weaken fun _ _ => False.elim).trans hKeeps₂₃ fun _ _ _ h => h
    have hList₃ :
        g₃.field? (.link f) "arguments" = some (.list (vs ++ [.link g₁.entries.size])) := by
      rw [Graph.field?_setField g₂ hf₂, if_pos ⟨rfl, rfl⟩]
    obtain ⟨vs', g₄, hYields, hKeeps₄, hList₄, hAll⟩ := ih (fun q hq => hParams q (by simp [hq]))
      (s := { s with graph := g₃ }) (hKeeps₃.origin.trans ho) ((hKeeps₂₃.form f hf₂).trans hForm₂)
      (fun q hq => (hKnown q (by simp [hq])).keeps hKeeps₃) hList₃
    refine ⟨.link g₁.entries.size :: vs', g₄, ?_, hKeeps₃.trans hKeeps₄ fun _ _ _ h => h,
      by simpa using hList₄, .cons ?_ hAll⟩
    · refine Yields.bind (yields_check hKind) (Yields.bind (yields_check hParam.spelling) ?_)
      refine Yields.bind (yields_tell _ _) (Yields.bind hr.yields (Yields.bind (.pure _ _) ?_))
      refine Yields.bind (yields_make_unit (hr.keeps.origin.trans ho) rfl) ?_
      exact Yields.bind (yields_add (s := { s with graph := g₂ }) (hKeeps₂.origin.trans ho) hForm₂
        rfl _ hList₂) hYields
    · have hShows : ShowsType g₂ typed.value p.type :=
        hr.showsType (KeepsBut.add _ _ _) (g₂.lt_size_of_get? (g₁.get?_add_self e))
      have hArg : HoldsParam g₂ (.link g₁.entries.size) p :=
        ⟨_, _, rfl, g₁.get?_add_self e, hShows⟩
      exact hArg.keeps (hKeeps₂₃.trans hKeeps₄ fun _ _ _ h => h) (isSteady_of_form hForm₂ rfl _ _)

section Leaf

variable {i : Item} {file n level : Nat} (h : tree.Declares i) (ho : s.graph.origin = .unit)
  (hText : s.openText = none) (hKey : s.openKey = none)

include h hText hKey

/-- A declaration whose cursor has no children is read by visiting and entering it. -/
theorem Tree.Declares.reads_leaf {id : Nat} {kind : Kind} {g : Graph} {free : Nat → String → Prop}
    (hk : tree.kind (.numbered i.cursor) = .ok kind) (hEntered : isEntered kind = false)
    (hVisit : Yields (visit tree (typeReader tree (readElement tree n)) (.numbered i.cursor) kind
      level) s (.link id) { s with graph := g })
    (hKeeps : KeepsBut free s.graph g) (hNew : s.graph.entries.size ≤ id)
    (hTag : ∀ d name, i.tag? = some (d, name) → tree.hash i.cursor ≠ tree.hash d)
    (hHolds : Holds tree file g s.table (.link id) i) :
    ∃ g' t, ReadsItem tree file (readElement tree (n + 1) (.numbered i.cursor) level) i s id g' t ∧
      Extends tree free [i.cursor] s g' t ∧ KeepsBut (Only id "location") g g' := by
  obtain ⟨name, hFile⟩ := h.stands.file
  obtain ⟨typeKind, hType⟩ := h.stands.typeKind
  have hlt := g.lt_size_of_form? hHolds.form
  have hForm : isSettled i.content.form = false ∧ i.content.form ≠ .file := by
    cases i.content with
    | record isUnion fields => cases isUnion <;> exact ⟨rfl, nofun⟩
    | _ => exact ⟨rfl, nofun⟩
  refine ⟨_, _, ⟨?_, hNew, Table.get?_insert_self s.table (.link id) _, ?_⟩,
    extends_entered hKeeps hNew hHolds.name hHolds.form hForm.2, keepsBut_located tree _ hlt⟩
  · exact yields_leaf hk hType (p := { s with graph := g }) hVisit hHolds.name hEntered
      (by simp [hFile]) hText hKey
  · refine hHolds.keeps (keepsBut_located tree _ hlt) (isSteady_of_form hHolds.form hForm.1 _ _)
      (fun id name h => .inl h.2) fun d name hd => ?_
    exact Table.get?_insert_of_ne _ _ (hTag d name hd)

include ho

/-- **A variable is read.** -/
theorem Tree.Declares.reads_global {type : UnitType} (hi : i.content = .global type)
    (hKnown : AllKnown tree s type.tags) :
    ∃ id g t, ReadsItem tree file (readElement tree (n + 1) (.numbered i.cursor) level) i s id g t ∧
      Extends tree (fun _ _ => False) [i.cursor] s g t := by
  have hContent := hi ▸ h.content
  obtain ⟨kind, hk, hn⟩ := hi ▸ h.stands.kind
  obtain ⟨typed, g₁, hr⟩ := Tree.Denotes.reads hContent (readElement tree n) ho hKnown level
  let e : Entry := ⟨.globalVariable, [("location", .nothing), ("name", .text i.name),
    ("typ", typed.value), ("context", .nothing), ("init", .nothing)]⟩
  let g := (g₁.add e).2
  have he : g.get? g₁.entries.size = some e := g₁.get?_add_self e
  have hKeeps : Keeps g₁ g := KeepsBut.add _ _ _
  have hVisit : Yields (visit tree (typeReader tree (readElement tree n)) (.numbered i.cursor) kind
      level) s (.link g₁.entries.size) { s with graph := g } := by
    simp only [visit, hn, Content.kindName]
    refine Yields.bind (yields_check h.stands.spelling) (Yields.bind hr.yields ?_)
    exact Yields.bind (.pure _ _) (yields_make_unit (hr.keeps.origin.trans ho) rfl)
  have hHolds : Holds tree file g s.table (.link g₁.entries.size) i := by
    refine ⟨?_, g.field?_of_get? he "name", by rw [g.field?_of_get? he]; rfl, ?_⟩
    · rw [hi]
      exact g.form?_of_get? he
    · rw [hi]
      exact ⟨_, g.field?_of_get? he "typ", hr.showsType hKeeps (g.lt_size_of_get? he)⟩
  obtain ⟨g', t, hReads, hExt, _⟩ := h.reads_leaf hText hKey hk
    (by simp [isEntered, hn, Content.kindName]) hVisit (hr.keeps.trans hKeeps) hr.keeps.size
    (by simp [Item.tag?, hi]) hHolds
  exact ⟨_, g', t, hReads, hExt⟩

/-- **A function is read**, with its parameters. -/
theorem Tree.Declares.reads_function {result : UnitType} {params : List Member}
    (hi : i.content = .function result params) (hKnown : AllKnown tree s result.tags)
    (hKnownParams : ∀ p ∈ params, AllKnown tree s p.type.tags) :
    ∃ id g t, ReadsItem tree file (readElement tree (n + 1) (.numbered i.cursor) level) i s id g t ∧
      Extends tree (fun _ _ => False) [i.cursor] s g t := by
  have hContent := hi ▸ h.content
  obtain ⟨hResult, hArguments, hParams⟩ := hContent
  obtain ⟨kind, hk, hn⟩ := hi ▸ h.stands.kind
  obtain ⟨typed, g₁, hr⟩ := hResult.reads (readElement tree n) ho hKnown level
  let f := g₁.entries.size
  let e := functionEntry i.name typed.value
  let g₂ := (g₁.add e).2
  have he : g₂.get? f = some e := g₁.get?_add_self e
  have hlt := g₂.lt_size_of_get? he
  have hKeeps₁ : Keeps g₁ g₂ := KeepsBut.add _ _ _
  have hKeeps₂ : Keeps s.graph g₂ := hr.keeps.trans hKeeps₁
  obtain ⟨vs, g, hYields, hKeeps, hList, hAll⟩ := yields_addParameters (readElement tree n)
    level params hParams (s := { s with graph := g₂ })
    (hKeeps₂.origin.trans ho) (g₂.form?_of_get? he)
    (fun p hp => (hKnownParams p hp).keeps hKeeps₂) (g₂.field?_of_get? he "arguments")
  have hVisit : Yields (visit tree (typeReader tree (readElement tree n)) (.numbered i.cursor) kind
      level) s (.link f) { s with graph := g } := by
    simp only [visit, hn, Content.kindName]
    refine Yields.bind (yields_check h.stands.spelling) (Yields.bind hr.yields ?_)
    rw [hArguments]
    refine Yields.bind (.pure _ _) ?_
    refine Yields.bind (yields_make_unit (hr.keeps.origin.trans ho) rfl) ?_
    exact Yields.bind hYields (.pure _ _)
  have hSteady := isSteady_of_form (g₂.form?_of_get? he) rfl "arguments" 0
  have hHolds : Holds tree file g s.table (.link f) i := by
    refine ⟨?_, (hKeeps.name f hlt).trans (g₂.field?_of_get? he "name"), ?_, ?_⟩
    · rw [hi]
      exact (hKeeps.form f hlt).trans (g₂.form?_of_get? he)
    · exact hKeeps.has f _ (by rw [g₂.field?_of_get? he]; rfl)
    · rw [hi]
      refine ⟨⟨_, (hKeeps.field f hlt "returns" (by simp [Only])).trans
        (g₂.field?_of_get? he "returns"), ?_⟩, vs, hList, hAll⟩
      exact (hr.showsType hKeeps₁ hlt).keeps hKeeps hSteady
  have hKeeps₃ : Keeps s.graph g :=
    KeepsBut.trans hKeeps₂ hKeeps fun id hid _ hf =>
      Nat.not_lt.2 hr.keeps.size (hf.1 ▸ hid : f < s.graph.entries.size)
  obtain ⟨g', t, hReads, hExt, _⟩ := h.reads_leaf hText hKey hk
    (by simp [isEntered, hn, Content.kindName]) hVisit hKeeps₃ hr.keeps.size
    (by simp [Item.tag?, hi]) hHolds
  exact ⟨_, g', t, hReads, hExt⟩

end Leaf

end PxdGen.Index
