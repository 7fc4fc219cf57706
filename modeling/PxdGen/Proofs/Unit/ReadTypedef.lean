import PxdGen.Proofs.Unit.ReadItem
/-! # Reading typedefs

A typedef of a struct, union or enumeration does more than the other declarations. It sets the
typedef name of what it stands for. If that has no name of its own, it is taken out of the file, and
if it has the name of the typedef, nothing is made of the typedef at all.
-/

namespace PxdGen.Index

open Decl Decl.Work

variable {tree : Tree} {s : Session}

variable {g : Graph} {vs : List Value} {v : Value}

variable {id d file r : Nat}

/-- What is tagged by a declaration that has been read, with the key of that declaration. -/
theorem Tree.Denotes.yields_tagged {t : TypeRef} {name : String}
    (h : tree.Denotes t (.tagged d name)) (hKnown : Known tree s d id name)
    (element : Cursor → Nat → Work Value) (level : Nat) :
    Yields (typeReader tree element t level) s (some ⟨.link id, .int (tree.hash d)⟩) s := by
  cases h with
  | tagged hk hn hd hs => exact Index.yields_tagged hk hn hd hs hKnown

/-- Takes a value out of a list, where it first occurs. -/
def without (v : Value) (vs : List Value) : List Value :=
  match vs.findIdx? (·.same v) with
  | some i => vs.eraseIdx i
  | none => vs

/-- The graph in which a declaration is no member of its context any more. -/
def unlisted (file : Nat) (v : Value) (vs : List Value) (g : Graph) : Graph :=
  match vs.findIdx? (·.same v) with
  | some i => g.setField file "members" (.list (vs.eraseIdx i))
  | none => g

theorem keepsBut_unlisted (hFile : file < g.entries.size) (v : Value) (vs : List Value) :
    KeepsBut (Only file "members") g (unlisted file v vs g) := by
  unfold unlisted
  split
  · exact KeepsBut.setField hFile _ (by simp) ⟨rfl, rfl⟩
  · exact KeepsBut.refl _ g

theorem field?_unlisted (h : g.field? (.link file) "members" = some (.list vs)) (v : Value) :
    (unlisted file v vs g).field? (.link file) "members" = some (.list (without v vs)) := by
  unfold unlisted without
  split
  · rw [Graph.field?_setField g (g.lt_size_of_field? h), if_pos ⟨rfl, rfl⟩]
  · exact h

/-- **A declaration is taken out of the members of its context.** -/
theorem yields_removeFromContext
    (hContext : s.graph.field? (.link id) "context" = some (.link file))
    (hMembers : s.graph.field? (.link file) "members" = some (.list vs)) (level : Nat) :
    Yields (removeFromContext (.link id) level) s ()
      { s with graph := unlisted file (.link id) vs s.graph } := by
  refine Yields.bind (yields_field hContext) (Yields.bind (yields_field hMembers) ?_)
  unfold unlisted
  cases hi : vs.findIdx? (·.same (.link id)) with
  | some i =>
    simp only [hi]
    exact Yields.bind (yields_tell _ _) (yields_setField _ _ _)
  | none =>
    simp only [hi]
    exact Yields.bind (yields_shown _) (yields_tell _ _)

section Name

variable {c r d : Nat} {name own : String}
  (hSpelling : tree.spelling (.numbered c) = .ok (some name))
  (hOwn : s.graph.field? (.link r) "name" = some (.text own))

include hSpelling hOwn

theorem yields_nameByTypedef (hNamed : own ≠ "") (key : Value) (level : Nat) :
    Yields (nameByTypedef tree (.numbered c) ⟨.link r, key⟩ level) s (!own == name)
      { s with graph := s.graph.setField r "typedef_name" (.text name) } := by
  have hr := s.graph.lt_size_of_field? hOwn
  have hOwn' : (s.graph.setField r "typedef_name" (.text name)).field? (.link r) "name" =
      some (.text own) := by
    rw [Graph.field?_setField s.graph hr, if_neg (by simp)]
    exact hOwn
  refine Yields.bind (yields_check hSpelling) (Yields.bind (yields_setField _ _ _) ?_)
  refine Yields.bind (yields_field hOwn') ?_
  have hTrue : (Value.text own).isTrue = true := by simpa [Value.isTrue] using hNamed
  simp only [hTrue]
  exact .pure _ _

theorem yields_nameByTypedef_unnamed (hEmpty : own = "")
    (hTable : s.table.get? (tree.key d) = some (.link r))
    (hContext : s.graph.field? (.link r) "context" = some (.link file))
    (hMembers : s.graph.field? (.link file) "members" = some (.list vs)) (level : Nat) :
    Yields (nameByTypedef tree (.numbered c) ⟨.link r, .int (tree.hash d)⟩ level) s true
      { s with graph := unlisted file (.link r) vs
                (s.graph.setField r "typedef_name" (.text name)) } := by
  have hr := s.graph.lt_size_of_field? hOwn
  let g := s.graph.setField r "typedef_name" (.text name)
  have hKeeps : KeepsBut (Only r "typedef_name") s.graph g :=
    KeepsBut.setField hr _ (by simp) ⟨rfl, rfl⟩
  have hFile := s.graph.lt_size_of_field? hMembers
  have hFind : Yields (find (.int (tree.hash d))) { s with graph := g } (.link r)
      { s with graph := g } := by
    refine yields_get_bind fun k => Yields.bind (.pure _ _) ?_
    have hTable' : s.table.get? (.named (.int (tree.hash d))) = some (.link r) := hTable
    simp only [hTable']
    exact .pure _ _
  refine Yields.bind (yields_check hSpelling) (Yields.bind (yields_setField _ _ _) ?_)
  refine Yields.bind (yields_field ((hKeeps.name r hr).trans hOwn)) ?_
  have hFalse : (Value.text own).isTrue = false := by simp [Value.isTrue, hEmpty]
  simp only [hFalse]
  refine Yields.bind hFind (Yields.bind (yields_shown _) (Yields.bind (yields_shown _) ?_))
  refine Yields.bind (yields_tell _ _) (Yields.bind (a := ()) ?_ (.pure _ _))
  exact yields_removeFromContext (s := { s with graph := g })
    ((hKeeps.field r hr _ (by simp [Only])).trans hContext)
    ((hKeeps.field file hFile _ (by simp [Only])).trans hMembers) level

end Name

section Visit

variable {type : TypeRef → Nat → Work (Option Typed)} {c w level : Nat} {key name : Value}
  {s₁ s₂ s₃ : Session} {form : Form}
  (hType : Yields (type (tree.cursor (.numbered c)).underlying level) s (some ⟨.link w, key⟩) s₁)
  (hForm : s₁.graph.form? (.link w) = some form)
  (hName : s₁.graph.field? (.link w) "name" = some name)

include hType hForm hName

theorem yields_visitTypedef {isNew : Bool}
    (hNew : Yields (if isTagged form then
      nameByTypedef tree (.numbered c) ⟨.link w, key⟩ level else pure true) s₁ isNew s₂)
    (h : Yields (do
      if isNew then
        make .typedef [nameValue (← check (tree.spelling (.numbered c))), .link w, .nothing]
      else pure .nothing) s₂ v s₃) :
    Yields (visitTypedef tree type (.numbered c) level) s v s₃ := by
  refine Yields.bind hType (Yields.bind (.pure _ _) (yields_get_bind fun k => ?_))
  refine Yields.bind (yields_field hName) (Yields.bind (yields_literal _) ?_)
  refine Yields.bind (yields_tell _ _) ?_
  dsimp only
  rw [hForm]
  cases form <;> exact Yields.bind hNew h

end Visit

/-! ### Typedefs as a whole -/

theorem Shows.form_of_ne_tagged {low : Nat} {type : UnitType}
    (h : Shows g low v type) (hne : ∀ d name, type ≠ .tagged d name) :
    ∃ form, g.form? v = some form ∧ isTagged form = false ∧
        g.field? v "name" = some (.text "") := by
  cases h with
  | plain _ _ h1 => exact ⟨_, g.form?_of_get? h1, rfl, g.field?_of_get? h1 "name"⟩
  | tagged => exact absurd rfl (hne _ _)
  | pointer _ _ h1 | array _ h1 | function _ h1 =>
    exact ⟨_, g.form?_of_get? h1, rfl, g.field?_of_get? h1 "name"⟩

section Typedef

variable {i : Item} {file n level : Nat} (h : tree.Declares i) (hText : s.openText = none)
  (hKey : s.openKey = none)

include h hText hKey

/-- **A typedef of a type that is no struct, union or enumeration is read.** -/
theorem Tree.Declares.reads_typedef_plain (ho : s.graph.origin = .unit) {type : UnitType}
    (hi : i.content = .typedef type) (hne : ∀ d name, type ≠ .tagged d name)
    (hKnown : AllKnown tree s type.tags) :
    ∃ id g t, ReadsItem tree file (readElement tree (n + 1) (.numbered i.cursor) level) i s id g t ∧
      Extends tree (fun _ _ => False) [i.cursor] s g t := by
  have hContent := hi ▸ h.content
  obtain ⟨kind, hk, hn⟩ := hi ▸ h.stands.kind
  obtain ⟨⟨v, key⟩, g₁, hr⟩ := Tree.Denotes.reads hContent (readElement tree n) ho hKnown level
  obtain ⟨w, rfl⟩ := hr.shows.isLink
  obtain ⟨form, hForm, hTagged, hName⟩ := hr.shows.form_of_ne_tagged hne
  let e := typedefEntry i.name (.link w) .nothing
  let g := (g₁.add e).2
  have he : g.get? g₁.entries.size = some e := g₁.get?_add_self e
  have hMake : Entry.make? g₁.origin .typedef [.text i.name, .link w, .nothing] = some e :=
    make?_typedef _ _ _ _
  have hKeeps : Keeps g₁ g := KeepsBut.add _ _ _
  have hVisit : Yields (visit tree (typeReader tree (readElement tree n)) (.numbered i.cursor) kind
      level) s (.link g₁.entries.size) { s with graph := g } := by
    simp only [visit, hn, Content.kindName]
    refine yields_visitTypedef hr.yields hForm hName (by rw [hTagged]; exact .pure true _) ?_
    exact Yields.bind (yields_check h.stands.spelling)
      (yields_make (s := { s with graph := g₁ }) hMake)
  have hHolds : Holds tree file g s.table (.link g₁.entries.size) i := by
    refine ⟨?_, g.field?_of_get? he "name", by rw [g.field?_of_get? he]; rfl, ?_⟩
    · rw [hi]
      exact g.form?_of_get? he
    · rw [hi]
      exact ⟨_, g.field?_of_get? he "typ", hr.showsType hKeeps (g.lt_size_of_get? he),
        fun d name hd => absurd hd (hne d name)⟩
  have hTag : ∀ d name, i.tag? = some (d, name) → tree.hash i.cursor ≠ tree.hash d := by
    intro d name hd
    rw [Item.tag?_eq_some, hi, Content.typedef.injEq] at hd
    exact absurd hd (hne d name)
  obtain ⟨g', t, hReads, hExt, _⟩ := h.reads_leaf hText hKey hk
    (by simp [isEntered, hn, Content.kindName]) hVisit (hr.keeps.trans hKeeps) hr.keeps.size
    hTag hHolds
  exact ⟨_, g', t, hReads, hExt⟩

/-- A typedef of a struct, union or enumeration is made once that has its typedef name. -/
theorem Tree.Declares.reads_typedef_tagged {own : String}
    (hi : i.content = .typedef (.tagged d own)) (hKnown : Known tree s d r own)
    (hHash : tree.hash i.cursor ≠ tree.hash d) {free : Nat → String → Prop} {g₁ : Graph}
    (hBy : Yields (nameByTypedef tree (.numbered i.cursor) ⟨.link r, .int (tree.hash d)⟩ level) s
      true { s with graph := g₁ }) (hKeeps₁ : KeepsBut free s.graph g₁)
    (hTypedefName : (g₁.field? (.link r) "typedef_name").isSome) :
    ∃ id g t, ReadsItem tree file (readElement tree (n + 1) (.numbered i.cursor) level) i s id g t ∧
      Extends tree free [i.cursor] s g t ∧ KeepsBut (fun id _ => g₁.entries.size ≤ id) g₁ g := by
  have hContent := hi ▸ h.content
  obtain ⟨kind, hk, hn⟩ := hi ▸ h.stands.kind
  obtain ⟨form, hForm, hTagged⟩ := hKnown.form
  have hr := s.graph.lt_size_of_form? hForm
  let e := typedefEntry i.name (.link r) .nothing
  let g := (g₁.add e).2
  have he : g.get? g₁.entries.size = some e := g₁.get?_add_self e
  have hMake : Entry.make? g₁.origin .typedef [.text i.name, .link r, .nothing] = some e :=
    make?_typedef _ _ _ _
  have hKeeps : Keeps g₁ g := KeepsBut.add _ _ _
  have hType := Tree.Denotes.yields_tagged hContent hKnown (readElement tree n) level
  have hVisit : Yields (visit tree (typeReader tree (readElement tree n)) (.numbered i.cursor) kind
      level) s (.link g₁.entries.size) { s with graph := g } := by
    simp only [visit, hn, Content.kindName]
    refine yields_visitTypedef hType hForm hKnown.name (by rwa [hTagged]) ?_
    exact Yields.bind (yields_check h.stands.spelling)
      (yields_make (s := { s with graph := g₁ }) hMake)
  have hKeeps₂ : KeepsBut free s.graph g := hKeeps₁.trans hKeeps fun _ _ _ => False.elim
  have hHolds : Holds tree file g s.table (.link g₁.entries.size) i := by
    refine ⟨?_, g.field?_of_get? he "name", by rw [g.field?_of_get? he]; rfl, ?_⟩
    · rw [hi]
      exact g.form?_of_get? he
    · rw [hi]
      refine ⟨_, g.field?_of_get? he "typ", ⟨.tagged ((hKeeps₂.form r hr).trans hForm) hTagged
        ((hKeeps₂.name r hr).trans hKnown.name), Nat.lt_of_le_of_lt (Nat.zero_le r)
          (Nat.lt_of_lt_of_le hr hKeeps₂.size)⟩, ?_⟩
      rintro d' name' hd
      cases hd
      exact ⟨hKnown.table, hKeeps.has _ _ hTypedefName⟩
  have hTag : ∀ d' name, i.tag? = some (d', name) → tree.hash i.cursor ≠ tree.hash d' := by
    intro d' name hd
    rw [Item.tag?_eq_some, hi] at hd
    cases hd
    exact hHash
  obtain ⟨g', t, hReads, hExt, hLocated⟩ := h.reads_leaf hText hKey hk
    (by simp [isEntered, hn, Content.kindName]) hVisit hKeeps₂ hKeeps₁.size hTag hHolds
  refine ⟨_, g', t, hReads, hExt, KeepsBut.trans (KeepsBut.add _ _ _) hLocated ?_⟩
  rintro id _ _ ⟨rfl, _⟩
  exact Nat.le_refl _

/-- **A typedef that only repeats a name** makes nothing. -/
theorem Tree.Declares.yields_typedef_redundant (hi : i.content = .typedef (.tagged d i.name))
    (hKnown : Known tree s d r i.name) (hNamed : i.name ≠ "") :
    Yields (readElement tree (n + 1) (.numbered i.cursor) level) s .nothing
      { s with graph := s.graph.setField r "typedef_name" (.text i.name) } := by
  have hContent := hi ▸ h.content
  obtain ⟨kind, hk, hn⟩ := hi ▸ h.stands.kind
  obtain ⟨file, hFile⟩ := h.stands.file
  obtain ⟨form, hForm, hTagged⟩ := hKnown.form
  have hType := Tree.Denotes.yields_tagged hContent hKnown (readElement tree n) level
  have hBy := yields_nameByTypedef h.stands.spelling hKnown.name hNamed (.int (tree.hash d)) level
  have hVisit : Yields (visit tree (typeReader tree (readElement tree n)) (.numbered i.cursor) kind
      level) s .nothing
      { s with graph := s.graph.setField r "typedef_name" (.text i.name) } := by
    simp only [visit, hn, Content.kindName]
    refine yields_visitTypedef hType hForm hKnown.name (by rwa [hTagged]) ?_
    simp only [beq_self_eq_true]
    exact .pure _ _
  refine Yields.bind (yields_check hk) ?_
  rw [if_neg (by simp [hFile])]
  refine Yields.bind hVisit ?_
  rw [if_neg (by simp [isEntered, hn, Content.kindName])]
  exact Yields.bind (yields_close hText hKey) (.pure _ _)

end Typedef

end PxdGen.Index
