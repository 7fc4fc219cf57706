import PxdGen.Proofs.Unit.Balance
/-! # Types that are named afterwards

A type that is not exposed and has no declaration becomes a placeholder, and a reference to a type
may give the placeholder a name later. The name is handed down through pointers, references and
arrays, but not through qualified types, and every pointer is read into one of these.
-/

namespace PxdGen.Decl

open Work

variable {g g' : Graph} {b id w : Nat} {p : Bool} {s : Session}

def wrapperForms : List Form := [.refType, .arrayType, .pointerType, .cvQualifiedType]

/-- A type over a placeholder, and whether a qualified type is among those from the one to the
other. -/
inductive Graph.Covers (g : Graph) (b : Nat) : Bool → Nat → Prop where
  | base : g.form? (.link b) = some .fundamentalType → g.Covers b false b
  | wrap {id w : Nat} {form : Form} {p : Bool} : form ∈ wrapperForms →
    g.form? (.link id) = some form → g.field? (.link id) "typ" = some (.link w) → w < id →
    g.Covers b p w → g.Covers b (form == .cvQualifiedType || p) id

namespace Graph.Covers

theorem lt_size (h : g.Covers b p id) : id < g.entries.size := by
  cases h with
  | base h | wrap _ h => exact g.lt_size_of_form? h

theorem fills (h : g.Covers b p id) (hg : g.Fills g') : g'.Covers b p id := by
  induction h with
  | base h => exact .base (hg.forms _ _ h)
  | wrap hForm h ht hlt _ ih =>
    have ht' := hg.types _ (g.lt_size_of_field? ht) "typ" (by decide)
    exact .wrap hForm (hg.forms _ _ h) (ht'.trans ht) hlt ih

theorem add (h : g.Covers b p w) {e : Entry} (hForm : e.form ∈ wrapperForms)
    (hTyp : e.get? "typ" = some (.link w)) :
    (g.add e).2.Covers b (e.form == .cvQualifiedType || p) g.entries.size := by
  have he := g.get?_add_self e
  exact .wrap hForm (form?_of_get? _ he) ((field?_of_get? _ he "typ").trans hTyp) h.lt_size
    (h.fills (.add g e))

theorem gives_renameType (h : s.graph.Covers b p id) (name : Value) {fuel : Nat} (hf : id < fuel) :
    Gives (renameType fuel (.link id) name) s ()
      { s with graph := if p then s.graph else s.graph.setField b "name" name } := by
  induction h generalizing fuel with
  | base h =>
    obtain ⟨fuel, rfl⟩ := Nat.exists_eq_add_of_lt hf
    refine Gives.get ?_
    rw [h]
    exact gives_setField _ _ _
  | @wrap id w form p hForm h ht hlt _ ih =>
    obtain ⟨fuel, rfl⟩ : ∃ k, fuel = k + 1 := ⟨fuel - 1, by omega⟩
    refine Gives.get ?_
    rw [h]
    simp only [wrapperForms, List.mem_cons, List.not_mem_nil, or_false] at hForm
    obtain rfl | rfl | rfl | rfl := hForm
    iterate 3
      · exact Gives.bind (gives_field ht) (ih (by omega))
    · exact .pure _ _

end Graph.Covers

end PxdGen.Decl

namespace PxdGen.Index

open Decl Decl.Work

variable {tree : Tree} {s s' : Session} {u t : TypeRef} {p : Bool}

/-- Pointers to, references to and arrays of a type that is not exposed, and whose canonical type
`u` is not either; and whether there is a pointer. -/
inductive Tree.Hides (tree : Tree) (u : TypeRef) : Bool → TypeRef → Prop where
  | unexposed {t : TypeRef} {kind kind' : Kind} : tree.typeKind t = .ok kind →
    kind.name = "UNEXPOSED" → tree.canonicalType t = u → tree.typeKind u = .ok kind' →
    kind'.name = "UNEXPOSED" → tree.Hides u false t
  | pointer {t : TypeRef} {kind : Kind} {p : Bool} : tree.typeKind t = .ok kind →
    kind.name = "POINTER" → tree.Hides u p (tree.type t).pointee → tree.Hides u true t
  | reference {t : TypeRef} {kind : Kind} {p : Bool} : tree.typeKind t = .ok kind →
    kind.name = "LVALUEREFERENCE" → tree.Hides u p (tree.type t).pointee → tree.Hides u p t
  | array {t e : TypeRef} {kind : Kind} {p : Bool} : tree.typeKind t = .ok kind →
    kind.name = "CONSTANTARRAY" → tree.elementType t = .ok e → tree.Hides u p e → tree.Hides u p t

/-- A unit is being read in which the declaration of a type is not known. -/
def IsOpen (tree : Tree) (u : TypeRef) (s : Session) : Prop :=
  s.graph.origin = .unit ∧
    ∀ v, s.table.get? (.ofInt (tree.cursor (tree.declaration u)).hash) = some v → v = .nothing

theorem IsOpen.filled (h : IsOpen tree u s) (hs : Filled s s') : IsOpen tree u s' :=
  ⟨hs.1.origin.trans h.1, hs.2.2 ▸ h.2⟩

variable {α : Type} {r : α} {level steps : Nat}

/-- Reading a type begins by telling of it. -/
theorem exists_gives_of_told {β γ : Type} {x : Except Fault β} {b : β} (hx : x = .ok b)
    {e : Except Fault γ} {words : β → γ → List String} {f : β → γ → Work α}
    (h : Gives (do let b ← check x; let a ← check e; tell level (words b a); f b a) s r s') :
    ∃ a s₁, Filled s s₁ ∧ Gives (f b a) s₁ r s' := by
  have := coupling_alone filling_filled
  subst hx
  have h := gives_after (Gives.pure b s) h
  obtain ⟨a, s₀, hCheck, h⟩ := gives_bind.1 h
  obtain ⟨_, s₁, hTell, h⟩ := gives_bind.1 h
  exact ⟨a, s₁, filling_filled.trans (Coupled.check (L := Alone Filled) _ hCheck).1
    (Coupled.tell (L := Alone Filled) _ _ hTell).1, h⟩

theorem gives_expected {r : Option Typed} {a : Typed} (h : Gives (expected r) s a s') :
    r = some a ∧ s' = s := by
  cases r with
  | none => cases h
  | some b =>
    obtain ⟨rfl, rfl⟩ := gives_pure.1 h
    exact ⟨rfl, rfl⟩

variable {typed : Typed}

section

variable (hTree : tree.HasNoInnerUnit) {element : Cursor → Nat → Work Value}
variable (hElement : ∀ c, ¬ tree.IsWhole c → ∀ level s v s', Gives (element c level) s v s' →
    Kept tree s s')
variable (hNone : ∀ level s v s', Gives (element (tree.declaration u) level) s v s' → v = .nothing)

include hTree hElement

theorem exists_covers_of_part {k : Typed → Work α}
    (hPart : ∀ {level s typed s'}, IsOpen tree u s →
      Gives (readType tree element steps t level true) s (some typed) s' →
      ∃ id b, typed.value = .link id ∧ s'.graph.Covers b p id)
    (hs : IsOpen tree u s)
    (h : Gives (do k (← expected (← readType tree element steps t level true))) s r s') :
    ∃ key w b s₁, s₁.graph.origin = .unit ∧ s₁.graph.Covers b p w ∧
        Gives (k ⟨.link w, key⟩) s₁ r s' := by
  obtain ⟨_, s₁, hRead, h⟩ := gives_bind.1 h
  obtain ⟨⟨_, key⟩, s₂, hInner, h⟩ := gives_bind.1 h
  obtain ⟨rfl, rfl⟩ := gives_expected hInner
  obtain ⟨w, b, rfl, hCovers⟩ := hPart hs hRead
  have hKept := (coupled_readType hTree hElement steps t level true hRead).1
  exact ⟨key, w, b, s₂, hKept.later.origin.trans hs.1, hCovers, h⟩

include hNone

theorem exists_covers_of_gives_typeByDeclaration {kind : Kind} (hn : kind.name = "UNEXPOSED")
    (hs : IsOpen tree u s)
    (h : Gives (typeByDeclaration tree element u kind level) s (some typed) s') :
    ∃ id b, typed.value = .link id ∧ s'.graph.Covers b false id := by
  have := coupling_alone filling_filled
  obtain ⟨_, s₁, hTell, h⟩ := gives_bind.1 h
  have hs₁ := hs.filled (Coupled.tell (L := Alone Filled) _ _ hTell).1
  have hKnown : Gives (known? tree (tree.declaration u)) s₁ none s₁ := by
    refine Gives.get ?_
    split
    · exact .pure _ _
    · exact .pure _ _
    · rename_i hNe hv
      exact absurd (hs₁.2 _ hv) hNe
  have h := gives_after hKnown h
  obtain ⟨_, s₂, hCheck, h⟩ := gives_bind.1 h
  obtain ⟨_, s₃, hTell, h⟩ := gives_bind.1 h
  obtain ⟨v, s₄, hRead, h⟩ := gives_bind.1 h
  obtain rfl := hNone _ _ _ _ hRead
  have hs₃ := (hs₁.filled (Coupled.check (L := Alone Filled) _ hCheck).1).filled
    (Coupled.tell (L := Alone Filled) _ _ hTell).1
  have ho := (hElement _ (hTree.declaration u) _ _ _ _ hRead).later.origin.trans hs₃.1
  simp only [hn] at h
  have h := gives_after (gives_make (e := fundamentalEntry "unexposed_type") (by rw [ho]; rfl)) h
  obtain ⟨hTyped, rfl⟩ := gives_pure.1 h
  cases hTyped
  exact ⟨_, _, rfl, .base (Graph.form?_of_get? _ (s₄.graph.get?_add_self _))⟩

/-- The placeholder is made for a type whose declaration neither is known nor can be read. -/
theorem exists_covers_of_gives (hHides : tree.Hides u p t) (hs : IsOpen tree u s)
    (h : Gives (readType tree element steps t level true) s (some typed) s') :
    ∃ id b, typed.value = .link id ∧ s'.graph.Covers b p id := by
  induction hHides generalizing steps level s s' typed with
  | @unexposed t kind kind' hk hn hu hk' hn' =>
    obtain - | - | steps := steps
    · cases h
    · obtain ⟨_, s₁, hTold, h⟩ := exists_gives_of_told hk h
      simp only [hn] at h
      cases h
    · obtain ⟨_, s₁, hTold, h⟩ := exists_gives_of_told hk h
      simp only [hn, hu] at h
      obtain ⟨_, s₂, hTold', h⟩ := exists_gives_of_told hk' h
      simp only [hn'] at h
      exact exists_covers_of_gives_typeByDeclaration hTree hElement hNone hn'
        ((hs.filled hTold).filled hTold') h
  | @pointer t kind p hk hn _ ih =>
    obtain - | steps := steps
    · cases h
    obtain ⟨_, s₁, hTold, h⟩ := exists_gives_of_told hk h
    simp only [hn] at h
    obtain ⟨key, w, b, s₂, ho, hCovers, h⟩ := exists_covers_of_part hTree hElement ih
      (hs.filled hTold) h
    have h := gives_after (gives_make (e := pointerEntry (.link w)) (by rw [ho]; rfl)) h
    have h := gives_after (gives_make (e := qualifiedEntry (.link s₂.graph.entries.size)
      (tree.type t).isConst (tree.type t).isVolatile) (by rw [Graph.origin_add, ho]; rfl)) h
    obtain ⟨hTyped, rfl⟩ := gives_pure.1 h
    cases hTyped
    exact ⟨_, b, rfl, (hCovers.add (e := pointerEntry (.link w))
      (show Form.pointerType ∈ wrapperForms by decide) rfl).add
      (show Form.cvQualifiedType ∈ wrapperForms by decide) rfl⟩
  | @reference t kind p hk hn _ ih =>
    obtain - | steps := steps
    · cases h
    obtain ⟨_, s₁, hTold, h⟩ := exists_gives_of_told hk h
    simp only [hn] at h
    obtain ⟨key, w, b, s₂, ho, hCovers, h⟩ := exists_covers_of_part hTree hElement ih
      (hs.filled hTold) h
    have h := gives_after (gives_make (e := referenceEntry (.link w)) (by rw [ho]; rfl)) h
    obtain ⟨hTyped, rfl⟩ := gives_pure.1 h
    cases hTyped
    exact ⟨_, b, rfl, hCovers.add (show Form.refType ∈ wrapperForms by decide) rfl⟩
  | @array t e kind p hk hn he _ ih =>
    obtain - | steps := steps
    · cases h
    obtain ⟨_, s₁, hTold, h⟩ := exists_gives_of_told hk h
    simp only [hn] at h
    rw [he] at h
    have h := gives_after (Gives.pure e s₁) h
    obtain ⟨key, w, b, s₂, ho, hCovers, h⟩ := exists_covers_of_part hTree hElement ih
      (hs.filled hTold) h
    obtain ⟨count, s₃, hCheck, hRest⟩ := gives_bind.1 h
    rw [eq_ok_of_gives_check hCheck] at hCheck
    obtain ⟨-, rfl⟩ := gives_pure.1 hCheck
    have h := gives_after (gives_make (e := arrayEntry (.link w) count) (by rw [ho]; rfl)) hRest
    obtain ⟨hTyped, rfl⟩ := gives_pure.1 h
    cases hTyped
    exact ⟨_, b, rfl, hCovers.add (show Form.arrayType ∈ wrapperForms by decide) rfl⟩

end

/-- **A reference to a type names the placeholder, unless there is a pointer over it.** A field,
argument or function has a type that was read from one that is not exposed, or from pointers,
references and arrays over such a type. When a reference to a type is visited inside it, whose own
type is not exposed either and can be read, the placeholder gets the name that the reference
displays if there is no pointer. If there is one, nothing is changed. -/
theorem visitTypeReference_names (hTree : tree.HasNoInnerUnit) {fuel steps level : Nat}
    (hNone : ∀ level s v s', Gives (readElement tree fuel (tree.declaration u) level) s v s' →
    v = .nothing)
    (hHides : tree.Hides u p t) {s₀ s₁ s s₂ : Session} {typed own : Typed}
      (hOpen : IsOpen tree u s₀)
    (hRead : Gives (readType tree (readElement tree fuel) steps t level true) s₀ (some typed) s₁)
    (hSince : s₁.graph.Fills s.graph) {parent : Nat} {rest : List Value}
    (hTop : s.context = .link parent :: rest) {form : Form} {slot : String}
    (hForm : s.graph.form? (.link parent) = some form)
    (hSlot : (form = .field ∨ form = .argument) ∧ slot = "typ" ∨ form = .function ∧
      slot = "returns")
    (hTyped : s.graph.field? (.link parent) slot = some typed.value) {c : Cursor} {kind : Kind}
    (hKind : tree.typeKind (tree.cursor c).type = .ok kind) (hName : kind.name = "UNEXPOSED")
    (hOwn : Gives (readType tree (readElement tree fuel) steps (tree.cursor c).type level true) s
      (some own) s₂) :
    ∃ id b s', typed.value = .link id ∧ s₁.graph.Covers b p id ∧
      Gives (visitTypeReference tree (fun t level => readType tree (readElement tree fuel) steps t
        level true) c level) s .nothing s' ∧
      s'.graph = if p then s₂.graph else s₂.graph.setField b "name"
          (.text (tree.cursor c).display) := by
  have hElement := fun c hc level s v s' h =>
    (kept_of_gives_readElement hTree fuel c hc level s v s' h).1
  obtain ⟨id, b, hid, hCovers⟩ := exists_covers_of_gives hTree hElement hNone hHides hOpen hRead
  have hKept := (coupled_readType hTree hElement steps _ level true hOwn).1
  obtain ⟨k, hTell⟩ : ∃ k, Gives (tell level ["TYPE REF", Text.quoted (tree.cursor c).display,
      "parent: " ++ Value.display s₂.graph.display (.link parent) ++ ", type: " ++ kind.text]) s₂ ()
        { s₂ with console := k } := gives_say _
  have hCovers₂ : ({ s₂ with console := k } : Session).graph.Covers b p id :=
    hCovers.fills (hSince.trans hKept.later)
  let g := if p then s₂.graph else s₂.graph.setField b "name" (.text (tree.cursor c).display)
  have hRename : Gives (renameType (s₂.graph.entries.size + 1) (.link parent)
      (.text (tree.cursor c).display)) { s₂ with console := k } ()
      { s₂ with console := k, graph := g } := by
    refine Gives.get ?_
    have hSub := hCovers₂.gives_renameType (.text (tree.cursor c).display) hCovers₂.lt_size
    have hField : s₂.graph.field? (.link parent) slot = some (.link id) := by
      rw [hKept.later.types _ (s.graph.lt_size_of_form? hForm) slot, hTyped, hid]
      rcases hSlot with ⟨-, rfl⟩ | ⟨-, rfl⟩ <;> decide
    rw [hKept.later.forms _ _ hForm]
    rcases hSlot with ⟨rfl | rfl, rfl⟩ | ⟨rfl, rfl⟩ <;> exact Gives.bind (gives_field hField) hSub
  have hTop₂ : Gives top s₂ (.link parent) s₂ := by
    refine Gives.get ?_
    rw [hKept.context, hTop]
    exact .pure _ _
  refine ⟨id, b, { s₂ with console := k, graph := g }, hid, hCovers, ?_, rfl⟩
  refine Gives.bind hOwn (Gives.bind (.pure own s₂) (Gives.bind hTop₂ ?_))
  rw [hKind]
  refine Gives.bind (.pure kind s₂) (Gives.bind (gives_shown _) (Gives.bind hTell ?_))
  rw [hName]
  exact Gives.bind gives_steps (Gives.bind hRename (.pure _ _))

/-- A field is being filled whose type has been read: that of `hiddenField` or what it points to. -/
def fillField (isPointer : Bool) : Work Typed := do
  let typed ← expected (← readType hiddenField (readElement hiddenField 1) 4
    (if isPointer then some 1 else some 0) 0 true)
  modify fun s => { s with
    graph := (s.graph.add ⟨.field, [("typ", typed.value)]⟩).2
    context := [.link s.graph.entries.size] }
  expected (← readType hiddenField (readElement hiddenField 1) 4 (some 0) 0 true)

theorem visitTypeReference_names_hiddenField : hiddenField.HasNoInnerUnit ∧
    ∀ isPointer : Bool, ∃ s₁ s s₂ s' id b key own,
    Gives (readType hiddenField (readElement hiddenField 1) 4
      (if isPointer then some 1 else some 0) 0 true) { graph := { origin := .unit } }
      (some ⟨.link id, key⟩) s₁ ∧ s₁.graph.Covers b isPointer id ∧
    Gives (readType hiddenField (readElement hiddenField 1) 4 (some 0) 0 true) s own s₂ ∧
    Gives (visitTypeReference hiddenField (fun t level => readType hiddenField
      (readElement hiddenField 1) 4 t level true) (.numbered 2) 0) s .nothing s' ∧
    s'.graph = if isPointer then s₂.graph else s₂.graph.setField b "name" (.text "T") := by
  have hTree : hiddenField.HasNoInnerUnit :=
    ⟨fun _ _ _ => not_isWhole_hiddenField _, fun _ => not_isWhole_hiddenField _⟩
  refine ⟨hTree, fun isPointer => ?_⟩
  have hOk : (outcome (fillField isPointer) { graph := { origin := .unit } }).1.isOk = true := by
    cases isPointer <;> decide
  have hHides : hiddenField.Hides (some 0) isPointer (if isPointer then some 1 else some 0) := by
    cases isPointer with
    | false => exact .unexposed rfl rfl rfl rfl rfl
    | true => exact .pointer rfl rfl (.unexposed rfl rfl rfl rfl rfl)
  obtain ⟨own, h⟩ := exists_gives_of_isOk hOk
  obtain ⟨_, _, hRead, h⟩ := gives_bind.1 h
  obtain ⟨⟨v, key⟩, s₁, hTyped, hFill⟩ := gives_bind.1 h
  obtain ⟨rfl, rfl⟩ := gives_expected hTyped
  obtain ⟨_, _, hModify, hRest⟩ := gives_bind.1 hFill
  obtain rfl := gives_modify.1 hModify
  obtain ⟨_, _, hOwn, hLast⟩ := gives_bind.1 hRest
  obtain ⟨rfl, rfl⟩ := gives_expected hLast
  have hEntry := s₁.graph.get?_add_self ⟨.field, [("typ", v)]⟩
  have hNone : ∀ level s v s', Gives (readElement hiddenField 1 .undeclared level) s v s' →
      v = .nothing := by
    intro level s v s' h
    have h := gives_after (Gives.pure _ s) h
    rw [if_pos (by decide)] at h
    exact (gives_pure.1 h).1
  obtain ⟨id, b, s', rfl, hCovers, hGives, hGraph⟩ := visitTypeReference_names (u := some 0)
    hTree hNone hHides ⟨rfl, fun _ h => by cases h⟩ hRead (.add _ _) rfl
    (Graph.form?_of_get? _ hEntry) (.inl ⟨.inl rfl, rfl⟩) (Graph.field?_of_get? _ hEntry "typ")
    (c := .numbered 2) rfl rfl hOwn
  exact ⟨s₁, _, _, s', id, b, key, _, hRead, hCovers, hOwn, hGives, hGraph⟩

end PxdGen.Index
