import PxdGen.Proofs.Decl.Advance
import PxdGen.Proofs.Unit.Node
/-! # Steps of reading that come to an end

Reading a type or a cursor ends, whatever the fuel, if reading what it leads to does. A type leads
to its parts and to its declaration, and that only if it has not been read before; a cursor leads to
its types and to its children.
-/

namespace PxdGen.Index

open Decl Decl.Work

variable {t : TypeRef} {v : Value} {c : Cursor}

/-! ### Declarations of types -/

/-- The kinds of cursors that declare types of their own. -/
def taggedKinds : List String :=
  ["STRUCT_DECL", "UNION_DECL", "CLASS_DECL", "CLASS_TEMPLATE", "ENUM_DECL"]

/-- A cursor that is in no file, as that of what has no declaration, or declares a type of its
own. -/
def Tree.IsTagged (tree : Tree) (c : Cursor) : Prop :=
  (tree.cursor c).location.file = none ∨ ∃ kind, tree.kind c = .ok kind ∧ kind.name ∈ taggedKinds

/-- All types but typedefs are declared by such cursors. -/
def Tree.HasTaggedTypes (tree : Tree) : Prop :=
  ∀ t kind, tree.typeKind t = .ok kind → kind.name ≠ "TYPEDEF" → tree.IsTagged (tree.declaration t)

/-! ### Questions to a unit -/

section Query

theorem KindTable.find_ne_endless (table : KindTable) (id : Int) :
    table.find id ≠ .error .endless := by
  unfold KindTable.find
  split
  · simp
  · split
    · simp
    · unfold KindTable.unknown
      split <;> simp

variable (tree : Tree)

theorem kind_ne_endless (c : Cursor) : tree.kind c ≠ .error .endless :=
  KindTable.find_ne_endless _ _

theorem typeKind_ne_endless (t : TypeRef) : tree.typeKind t ≠ .error .endless :=
  KindTable.find_ne_endless _ _

theorem bind_ne_endless {α β : Type} {x : Except Fault α} {f : α → Except Fault β}
    (hx : x ≠ .error .endless) (hf : ∀ a, f a ≠ .error .endless) : x >>= f ≠ .error .endless := by
  cases x with
  | error e => exact fun h => hx (Except.error.inj h ▸ rfl)
  | ok a => exact hf a

theorem spelling_ne_endless (c : Cursor) : tree.spelling c ≠ .error .endless :=
  bind_ne_endless (kind_ne_endless tree c) fun _ => by simp

theorem elementType_ne_endless (t : TypeRef) : tree.elementType t ≠ .error .endless :=
  bind_ne_endless (typeKind_ne_endless tree _) fun _ => by split <;> simp

theorem elementCount_ne_endless (t : TypeRef) : tree.elementCount t ≠ .error .endless := by
  unfold Tree.elementCount
  dsimp only
  split <;> simp

theorem enumType_ne_endless (c : Cursor) : tree.enumType c ≠ .error .endless :=
  bind_ne_endless (kind_ne_endless tree c) fun _ => by split <;> simp

theorem enumValue_ne_endless (c : Cursor) : tree.enumValue c ≠ .error .endless := by
  refine bind_ne_endless (kind_ne_endless tree c) fun kind => ?_
  split
  · simp
  · refine bind_ne_endless (typeKind_ne_endless tree _) fun kind => ?_
    have hRest : ∀ t, (do
        let value := (tree.cursor c).enumValue
        .ok (if Tree.isUnsigned (← tree.typeKind t) then value % Int.pow 2 64 else value)) ≠
        Except.error Fault.endless :=
      fun t => bind_ne_endless (typeKind_ne_endless tree t) fun _ => by simp
    split
    · exact bind_ne_endless (enumType_ne_endless tree _) hRest
    · exact hRest _

end Query

variable {tree : Tree} {keys : List Int} {k : Nat} {s : Session}
variable {α β : Type} {Q : β → Session → Prop}

theorem advances_tell (level : Nat) (words : List String) :
    Advances keys k (fun _ s' => s'.table = s.table) (tell level words) (tell level words) s :=
  advances_say _

@[simp] theorem grounded_nameValue (g : Graph) (name : Option String) :
    g.Grounded (nameValue name) := by
  cases name <;> simp [nameValue]

theorem looks_known? (hs : s.IsGrounded) (c : Cursor) :
    Looks (fun r => (r = none ∧ s.knows (tree.cursor c).hash = false) ∨
      ∃ v, r = some v ∧ s.graph.Grounded v) (known? tree c) s := by
  refine .get ?_
  split
  iterate 2
    · rename_i h
      exact .pure (.inl ⟨rfl, by rw [Session.knows, Key.ofInt, h]⟩)
  · rename_i v _ h
    exact .pure (.inr ⟨v, rfl, hs v (.inr (Table.mem_values_of_get? _ h))⟩)

/-! ### Types -/

/-- What a type became has types that end. -/
def IsTyped (r : Option Typed) (s : Session) : Prop := ∀ t, r = some t → s.graph.Grounded t.value

theorem isTyped_some {t : Typed} (h : s.graph.Grounded t.value) : IsTyped (some t) s := by
  rintro _ ⟨⟩
  exact h

theorem isTyped_none : IsTyped none s := by
  rintro _ ⟨⟩

theorem Advances.typed {x y : Work (Option Typed)} {f g : Typed → Work β}
    (hx : Advances keys k IsTyped x y s)
    (hf : ∀ a s', Onward s s' → s'.graph.Grounded a.value → Advances keys k Q (f a) (g a) s') :
    Advances keys k Q (x >>= fun r => expected r >>= f) (y >>= fun r => expected r >>= g) s := by
  refine hx.bind fun r s' hOn hr => ?_
  cases r with
  | none => exact fun hs => (Advances.throw (by decide) : Advances keys k Q _ _ s') hs
  | some a => exact hf a s' hOn (hr a rfl)

theorem advances_qualified {inner : Value} (h : s.graph.Grounded inner) (t : TypeRef) :
    Advances keys k IsTyped (qualified tree t inner) (qualified tree t inner) s :=
  .bind (advances_make _ (by simp [h])) fun _ _ _ hv => .pure (isTyped_some hv.2)

section OfType

variable {element element' : Cursor → Nat → Work Value}
variable (hElement : ∀ c level s, tree.IsTagged c → s.knows (tree.cursor c).hash = false →
  Advances keys k GroundedIn (element c level) (element' c level) s)

include hElement

theorem advances_typeByDeclaration (ht : tree.IsTagged (tree.declaration t))
    (kind : Kind) (level : Nat) :
      Advances keys k IsTyped (typeByDeclaration tree element t kind level)
      (typeByDeclaration tree element' t kind level) s := by
  refine .bind (advances_tell _ _) fun _ s₁ _ _ => .assuming fun hs => ?_
  refine .look (looks_known? hs.isGrounded _) fun r hr => ?_
  rcases hr with ⟨rfl, hUnknown⟩ | ⟨v, rfl, hv⟩
  · refine .look (looks_check (kind_ne_endless tree _)) fun _ _ => ?_
    refine .bind (advances_tell _ _) fun _ s₂ _ hTable => ?_
    have hUnknown : s₂.knows (tree.cursor (tree.declaration t)).hash = false := by
      rwa [Session.knows, hTable]
    refine (hElement _ _ s₂ ht hUnknown).bind fun v s₃ _ hv => ?_
    split
    · split
      · exact .bind (advances_make _ (by simp)) fun _ _ _ hv => .pure (isTyped_some hv.2)
      · refine .bind (advances_tell _ _) fun _ _ _ _ => ?_
        exact .bind (advances_make _ (by simp)) fun _ _ _ hv => .pure (isTyped_some hv.2)
    · exact .pure (isTyped_some hv)
  · exact .pure (isTyped_some hv)

variable {sub sub' : TypeRef → Nat → Bool → Work (Option Typed)}

omit hElement in
theorem advances_addArguments {ts : List TypeRef}
    (hSub : ∀ u ∈ ts, ∀ level s, Advances keys k IsTyped (sub u level true) (sub' u level true) s)
    (function : Value) (level : Nat) :
    Advances keys k (fun _ _ => True) (addArguments tree sub function level ts)
      (addArguments tree sub' function level ts) s := by
  induction ts generalizing s with
  | nil => exact .pure trivial
  | cons t rest ih =>
    refine .look (looks_check (typeKind_ne_endless tree t)) fun kind _ => ?_
    split
    · refine Advances.typed (hSub t (by simp) _ _) fun a s₁ _ ha => ?_
      refine .bind (advances_make _ (by simp [ha])) fun _ s₂ _ _ => ?_
      exact .bind (advances_add _ _ _) fun _ s₃ _ _ => ih fun u hu => hSub u (by simp [hu])
    · exact .pure trivial

theorem advances_typeStep (hTagged : tree.HasTaggedTypes) {resolve : Bool}
    (hPart : ∀ u ∈ tree.parts t, ∀ level s,
      Advances keys k IsTyped (sub u level true) (sub' u level true) s)
    (hCanonical : ∀ kind, tree.typeKind t = .ok kind → kind.name = "UNEXPOSED" → resolve = true →
      ∀ level s, Advances keys k IsTyped (sub (tree.canonicalType t) level false)
        (sub' (tree.canonicalType t) level false) s) (level : Nat) :
    Advances keys k IsTyped (typeStep tree element sub t level resolve)
      (typeStep tree element' sub' t level resolve) s := by
  refine .look (looks_check (typeKind_ne_endless tree t)) fun kind hKind => ?_
  refine .look (looks_check (spelling_ne_endless tree _)) fun spelling _ => ?_
  refine .bind (advances_tell _ _) fun _ s₁ _ _ => ?_
  cases hSimple : simpleName? kind.name with
  | some name =>
    exact .bind (advances_make _ (by simp)) fun _ _ _ hv => advances_qualified hv.2 t
  | none =>
    dsimp only
    split
    case h_1 hName =>
      refine .look (looks_check (elementType_ne_endless tree t)) fun e he => ?_
      obtain rfl := Tree.eq_of_elementType he
      refine Advances.typed (hPart _ (by simp [Tree.parts, hKind, hName]) _ _) fun a s₂ _ ha => ?_
      refine .look (looks_check (elementCount_ne_endless tree t)) fun count _ => ?_
      exact .bind (advances_make _ (by simp [ha])) fun _ _ _ hv => .pure (isTyped_some hv.2)
    case h_2 => exact .bind (advances_make _ (by simp)) fun _ _ _ hv => advances_qualified hv.2 t
    case h_3 hName =>
      refine Advances.typed (hPart _ (by simp [Tree.parts, hKind, hName]) _ _) fun a s₂ _ ha => ?_
      split
      · exact .pure isTyped_none
      · exact .bind (advances_make _ (by simp [ha])) fun _ _ _ hv => advances_qualified hv.2 t
    case h_4 hName =>
      refine Advances.typed (hPart _ (by simp [Tree.parts, hKind, hName]) _ _) fun a s₂ _ ha => ?_
      split
      · exact .pure isTyped_none
      · exact .bind (advances_make _ (by simp [ha])) fun _ _ _ hv => .pure (isTyped_some hv.2)
    case h_5 hName =>
      refine .assuming fun hs => .look (looks_known? hs.isGrounded _) fun r hr => ?_
      rcases hr with ⟨rfl, hUnknown⟩ | ⟨v, rfl, hv⟩
      · refine .bind (advances_tell _ _) fun _ s₂ _ hTable => ?_
        have hUnknown : s₂.knows (tree.cursor (tree.declaration t)).hash = false := by
          rwa [Session.knows, hTable]
        refine (hElement _ _ s₂ (hTagged t kind hKind (by simp [hName])) hUnknown).bind fun v _ _
          hv => ?_
        exact .pure (isTyped_some hv)
      · exact .pure (isTyped_some hv)
    case h_6 hName =>
      refine .bind (advances_tell _ _) fun _ s₂ _ _ => ?_
      refine Advances.typed (hPart _ (by simp [Tree.parts, hKind, hName]) _ _) fun a s₃ _ ha => ?_
      refine .bind (advances_make _ (by simp [ha])) fun function s₄ _ hFunction => ?_
      refine .bind (advances_tell _ _) fun _ s₅ h₅ _ => ?_
      refine .bind
        (advances_addArguments (fun u hu => hPart u (by simp [Tree.parts, hKind, hName, hu]))
        function level) fun _ s₆ h₆ _ => ?_
      exact .pure (isTyped_some (hFunction.2.keeps (h₅.trans h₆).types))
    case h_7 hName =>
      split
      · exact hCanonical kind hKind hName ‹_› _ _
      · exact advances_typeByDeclaration hElement (hTagged t kind hKind (by simp [hName])) kind
          level
    case h_8 _ _ hName _ _ _ _ _ =>
      exact advances_typeByDeclaration hElement (hTagged t kind hKind hName) kind level

end OfType

/-! ### Cursors -/

theorem advances_removeFromContext (v : Value) (level : Nat) :
    Finishes keys k (removeFromContext v level) s := by
  refine .look (looks_field _ _) fun context _ => .look (looks_field _ _) fun members _ => ?_
  split
  · split
    · exact .bind (advances_tell _ _) fun _ _ _ _ => advances_setField _ (by decide) _
    · exact .look (looks_shown v) fun _ _ => (advances_tell _ _).mono fun _ _ _ => trivial
  · exact .throw (by decide)

theorem advances_nameByTypedef (c : Cursor) (typed : Typed) (level : Nat) :
    Finishes keys k (nameByTypedef tree c typed level) s := by
  refine .look (looks_check (spelling_ne_endless tree c)) fun name _ => ?_
  refine .bind (advances_setField _ (by decide) _) fun _ s₁ _ _ => ?_
  refine .look (looks_field _ _) fun own _ => ?_
  split
  · refine .look (looks_find _) fun _ _ => .look (looks_shown _) fun _ _ => ?_
    refine .look (looks_shown _) fun _ _ => .bind (advances_tell _ _) fun _ s₂ _ _ => ?_
    exact .bind (advances_removeFromContext _ _) fun _ _ _ _ => .pure trivial
  · exact .pure trivial

theorem advances_nameByField (c : Cursor) :
    Finishes keys k (nameByField tree c) s := by
  unfold nameByField
  split
  · refine .look (looks_check (kind_ne_endless tree _)) fun kind _ => ?_
    split
    · refine .look (looks_find _) fun v _ => .look (looks_field _ _) fun own _ => ?_
      split
      · refine .look (looks_check (spelling_ne_endless tree c)) fun _ _ => ?_
        exact advances_setField _ (by decide) _
      · exact .pure trivial
    · exact .pure trivial
  · exact .pure trivial

theorem advances_addTemplateParam (v param : Value) :
    Finishes keys k (addTemplateParam v param) s := by
  refine .look (P := fun _ => True) (.inl ⟨_, rfl, trivial⟩) fun own _ => ?_
  split
  · exact advances_append v (by decide) param
  · refine .get ?_
    split
    iterate 2
      · exact .modify (.ofGraph ⟨Nat.le_refl _, fun _ _ _ _ => rfl⟩ rfl rfl) trivial
    · exact .throw (by decide)

theorem advances_visitTemplateParameter (c : Cursor) (level : Nat) :
    Advances keys k GroundedIn (visitTemplateParameter tree c level)
      (visitTemplateParameter tree c level) s := by
  refine .look (looks_check (spelling_ne_endless tree c)) fun param _ => .assuming fun hs => ?_
  refine .look (looks_top hs.isGrounded) fun parent _ => .get ?_
  split
  iterate 2
    · exact .bind (advances_addTemplateParam _ _) fun _ _ _ _ => .pure (by simp)
  · refine .look (looks_shown _) fun _ _ => ?_
    exact .bind (advances_tell _ _) fun _ _ _ _ => .pure (by simp)

/-- Records and enumerations are made without a look at any type, and so is a whole unit. -/
theorem advances_visit_tagged {type type' : TypeRef → Nat → Work (Option Typed)} (c : Cursor)
    {kind : Kind} (hKind : kind.name ∈ "TRANSLATION_UNIT" :: taggedKinds) (level : Nat) :
    Advances keys k (fun v s' => v ≠ .nothing ∧ s'.graph.Grounded v)
      (visit tree type c kind level) (visit tree type' c kind level) s := by
  refine .assuming fun hs => ?_
  have hName := looks_check (s := s) (spelling_ne_endless tree c)
  have hTop := looks_top hs.isGrounded
  unfold visit
  dsimp only
  split
  case h_1 =>
    refine .bind (advances_make _ (by simp)) fun _ s₁ _ hFile => ?_
    exact .bind (advances_push hFile.2) fun _ _ h₂ _ => .pure ⟨hFile.1, hFile.2.keeps h₂.types⟩
  case h_4 | h_5 | h_7 | h_14 | h_15 =>
    exact .look hName fun _ _ => .look hTop fun _ hv => advances_make _ (by simp [hv])
  all_goals simp_all [taggedKinds]

section OfCursor

variable {type type' : TypeRef → Nat → Work (Option Typed)}
variable (hType : ∀ t level s, Advances keys k IsTyped (type t level) (type' t level) s)

include hType

theorem advances_visitTypedef (c : Cursor) (level : Nat) :
    Advances keys k GroundedIn (visitTypedef tree type c level) (visitTypedef tree type' c level)
    s := by
  refine Advances.typed (hType _ _ _) fun a s₁ _ ha => ?_
  split
  · exact .pure (by simp)
  · refine .get (.look (looks_field _ _) fun name _ => .look (looks_literal _) fun _ _ => ?_)
    refine .bind (advances_tell _ _) fun _ s₂ h₂ _ => ?_
    have hEnd : ∀ (isNew : Bool) s', Onward s₂ s' → Advances keys k GroundedIn
        (if isNew = true then check (tree.spelling c) >>= fun n =>
          make .typedef [nameValue n, a.value, .nothing] else pure .nothing)
        (if isNew = true then check (tree.spelling c) >>= fun n =>
          make .typedef [nameValue n, a.value, .nothing] else pure .nothing) s' := by
      intro isNew s' h'
      have ha' := ha.keeps (h₂.trans h').types
      split
      · refine .look (looks_check (spelling_ne_endless tree c)) fun _ _ => ?_
        exact (advances_make _ (by simp [ha'])).mono fun _ _ hv => hv.2
      · exact .pure (by simp)
    dsimp only
    split
    iterate 3
      · exact .bind (advances_nameByTypedef c a level) fun isNew s' h' _ => hEnd isNew s' h'
    · exact hEnd true s₂ (.refl s₂)

theorem advances_visitField (c : Cursor) (level : Nat) :
    Advances keys k GroundedIn (visitField tree type c level) (visitField tree type' c level)
    s := by
  refine .bind (advances_nameByField c) fun _ s₁ _ _ => .assuming fun hs => ?_
  refine .look (looks_top hs.isGrounded) fun parent hParent => ?_
  refine .look (looks_check (spelling_ne_endless tree c)) fun name _ => ?_
  refine Advances.typed (hType _ _ _) fun a s₂ h₂ ha => ?_
  exact (advances_make _ (by simp [ha, hParent.keeps h₂.types])).mono fun _ _ hv => hv.2

theorem advances_addParameters (function : Value) (level : Nat) (args : List Nat) :
    Advances keys k (fun _ _ => True) (addParameters tree type function level args)
      (addParameters tree type' function level args) s := by
  induction args generalizing s with
  | nil => exact .pure trivial
  | cons arg rest ih =>
    refine .look (looks_check (kind_ne_endless tree _)) fun kind _ => ?_
    refine .look (looks_check (spelling_ne_endless tree _)) fun name _ => ?_
    refine .bind (advances_tell _ _) fun _ s₁ _ _ => Advances.typed (hType _ _ _) fun a s₂ _ ha =>
      ?_
    refine .bind (advances_make _ (by simp [ha])) fun _ s₃ _ _ => ?_
    exact .bind (advances_add _ _ _) fun _ _ _ _ => ih

theorem advances_visitFunction (c : Cursor) (level : Nat) :
    Advances keys k GroundedIn (visitFunction tree type c level)
      (visitFunction tree type' c level) s := by
  refine .look (looks_check (spelling_ne_endless tree c)) fun name _ => ?_
  refine Advances.typed (hType _ _ _) fun a s₁ _ ha => ?_
  refine .bind (advances_make _ (by simp [ha])) fun function s₂ _ hFunction => ?_
  refine .bind (advances_addParameters hType _ _ _) fun _ s₃ h₃ _ => ?_
  exact .pure (hFunction.2.keeps h₃.types)

theorem advances_visitTypeReference (c : Cursor) (level : Nat) :
    Advances keys k GroundedIn (visitTypeReference tree type c level)
      (visitTypeReference tree type' c level) s := by
  refine Advances.typed (hType _ _ _) fun _ s₁ _ _ => .assuming fun hs => ?_
  refine .look (looks_top hs.isGrounded) fun parent hParent => ?_
  split
  · exact .pure (by simp)
  · refine .look (looks_check (typeKind_ne_endless tree _)) fun kind _ => ?_
    refine .look (looks_shown _) fun _ _ => .bind (advances_tell _ _) fun _ s₂ h₂ _ => ?_
    dsimp only
    split
    · refine .look looks_steps fun n hn => ?_
      subst hn
      exact .bind (advances_renameType (hParent.keeps h₂.types) _) fun _ _ _ _ => .pure (by simp)
    · exact .pure (by simp)

theorem advances_visit (c : Cursor) (kind : Kind) (level : Nat) :
    Advances keys k GroundedIn (visit tree type c kind level) (visit tree type' c kind level)
    s := by
  by_cases hKind : kind.name ∈ "TRANSLATION_UNIT" :: taggedKinds
  · exact (advances_visit_tagged c hKind level).mono fun _ _ hv => hv.2
  refine .assuming fun hs => ?_
  have hName := looks_check (s := s) (spelling_ne_endless tree c)
  have hTop := looks_top hs.isGrounded
  unfold visit
  dsimp only
  split
  case h_1 | h_4 | h_5 | h_7 | h_14 | h_15 => simp_all [taggedKinds]
  case h_2 => exact .look hName fun _ _ => (advances_make _ (by simp)).mono fun _ _ hv => hv.2
  case h_3 => exact advances_visitTypedef hType c level
  case h_6 => exact advances_visitField hType c level
  case h_8 =>
    refine .look hName fun _ _ => .look (looks_check (enumValue_ne_endless tree c)) fun _ _ => ?_
    exact (advances_make _ (by simp)).mono fun _ _ hv => hv.2
  case h_9 | h_10 | h_11 | h_12 => exact advances_visitFunction hType c level
  case h_13 =>
    refine .look hName fun _ _ => Advances.typed (hType _ _ _) fun a _ _ ha => ?_
    exact (advances_make _ (by simp [ha])).mono fun _ _ hv => hv.2
  case h_16 =>
    refine .look hName fun _ _ => .look hTop fun _ _ => Advances.typed (hType _ _ _) fun a _ _ ha =>
      ?_
    exact (advances_make _ (by simp [ha])).mono fun _ _ hv => hv.2
  case h_17 => exact advances_visitTypeReference hType c level
  case h_18 => exact advances_visitTemplateParameter c level
  case h_19 =>
    exact .look hName fun _ _ => .bind (advances_tell _ _) fun _ _ _ _ => .pure (by simp)

end OfCursor

/-- Tells a declaration where it stands. -/
def locate (tree : Tree) (c : Cursor) (v : Value) : Work Unit :=
  match (tree.cursor c).location.file with
  | some file => setField v "location"
    (.tuple [.text file, .int (tree.cursor c).location.line.toNat])
  | none => pure ()

theorem enter_eq (c : Cursor) (kind : Kind) (v : Value) (level : Nat) :
    enter tree c kind v level = (do
      locate tree c v
      register (.named (.int (tree.cursor c).hash)) v
      let typeKind ← check (tree.typeKind (tree.cursor c).type)
      tell level ["cursor:", kind.text, typeKind.text]
      tell level ["name:", ← literal (← field v "name")]
      say "") := by
  unfold enter locate
  dsimp only
  cases (tree.cursor c).location.file <;> rfl

/-- A declaration that has been entered can be found. -/
theorem advances_enter (c : Cursor) (kind : Kind) (hv : v ≠ .nothing)
    (hg : s.graph.Grounded v) (level : Nat) :
    Advances keys k (fun _ s' => s'.knows (tree.cursor c).hash = true) (enter tree c kind v level)
      (enter tree c kind v level) s := by
  rw [enter_eq]
  have hLocate : Finishes keys k (locate tree c v) s := by
    unfold locate
    split
    · exact advances_setField _ (by decide) _
    · exact .pure trivial
  refine .bind hLocate fun _ s₀ h₀ _ =>
    .bind (R := fun _ s' => s'.knows (tree.cursor c).hash = true)
      (.modify (onward_register hv (hg.keeps h₀.types) _) (s₀.knows_register hv _)) fun _ s₁ _ h₁ =>
      ?_
  refine .look (looks_check (typeKind_ne_endless tree _)) fun _ _ => ?_
  refine .bind (advances_tell _ _) fun _ s₂ h₂ _ => .look (looks_field _ _) fun _ _ => ?_
  refine .look (looks_literal _) fun _ _ => .bind (advances_tell _ _) fun _ s₃ h₃ _ => ?_
  have hKnown := (h₂.trans h₃).knows _ h₁
  exact (advances_say _).mono fun _ s₄ hTable => by rwa [Session.knows, hTable]

/-- What is left to do at a cursor whose declaration has been entered. -/
def readInside (tree : Tree) (sub : Cursor → Nat → Work Value) (c : Cursor) (kind : Kind)
    (v : Value) (level : Nat) : Work Value := do
  if isEntered kind then
    push v
    readChildren sub v level (tree.cursor c).children
    let _ ← pop
  modify fun s => { s with openText := none, openKey := none }
  pure v

section Children

variable {sub sub' : Cursor → Nat → Work Value}

theorem advances_readChildren {children : List Nat}
    (hSub : ∀ i ∈ children, ∀ level s, Advances keys k GroundedIn
      (sub (.numbered i) level) (sub' (.numbered i) level) s) (v : Value) (level : Nat) :
    Advances keys k (fun _ _ => True) (readChildren sub v level children)
      (readChildren sub' v level children) s := by
  induction children generalizing s with
  | nil => exact .pure trivial
  | cons i rest ih =>
    have ih := fun s => ih (s := s) fun j hj => hSub j (by simp [hj])
    refine (hSub i (by simp) _ _).bind fun w s₁ _ _ => ?_
    split
    · exact ih s₁
    · refine .look (P := fun _ => True) (.inl ⟨_, rfl, trivial⟩) fun takes _ => ?_
      cases takes with
      | true => exact .bind (advances_add _ _ _) fun _ s₂ _ _ => ih s₂
      | false => exact ih s₁

theorem advances_readInside (hSub : ∀ i ∈ (tree.cursor c).children, ∀ level s,
      Advances keys k GroundedIn (sub (.numbered i) level) (sub' (.numbered i) level) s)
    (kind : Kind) (hv : s.graph.Grounded v) (level : Nat) :
    Advances keys k GroundedIn (readInside tree sub c kind v level)
      (readInside tree sub' c kind v level) s := by
  have hClose : ∀ s, s.graph.Grounded v → Advances keys k GroundedIn
      (modify (fun s : Session => { s with openText := none, openKey := none }) >>= fun _ => pure v)
      (modify (fun s : Session => { s with openText := none, openKey := none }) >>= fun _ => pure v)
      s := by
    intro s hv
    exact .bind (R := fun _ s' => s'.graph.Grounded v) (.modify (.ofGraph (.refl _) rfl rfl) hv)
      fun _ _ _ hv => .pure hv
  unfold readInside
  split
  · refine .bind (advances_push hv) fun _ s₁ h₁ _ => ?_
    refine .bind (advances_readChildren hSub v level) fun _ s₂ h₂ _ => ?_
    refine .bind advances_pop fun _ s₃ h₃ _ => hClose s₃ (hv.keeps ?_)
    exact (h₁.trans (h₂.trans h₃)).types
  · exact hClose s hv

variable {type type' : TypeRef → Nat → Work (Option Typed)}

theorem advances_elementStep
    (hType : ∀ t level s, Advances keys k IsTyped (type t level) (type' t level) s)
    (hSub : ∀ i ∈ (tree.cursor c).children, ∀ level s,
      Advances keys k GroundedIn (sub (.numbered i) level) (sub' (.numbered i) level) s)
      (level : Nat) :
    Advances keys k GroundedIn (elementStep tree type sub c level)
      (elementStep tree type' sub' c level) s := by
  unfold elementStep
  dsimp only
  refine .look (looks_check (kind_ne_endless tree c)) fun kind _ => ?_
  split
  · exact .pure (by simp)
  · refine .bind (advances_visit hType c kind level) fun v s₁ _ hv => ?_
    split
    · exact advances_readInside hSub kind hv level
    · rename_i hNe
      refine .bind (advances_enter c kind hNe hv level) fun _ s₂ h₂ _ => ?_
      exact advances_readInside hSub kind (hv.keeps h₂.types) level

/-- A record or an enumeration that was not known is known before its children are read. -/
theorem advances_elementStep_tagged (hTagged : tree.IsTagged c)
    (hUnknown : s.knows (tree.cursor c).hash = false)
    (hKey : (tree.cursor c).children ≠ [] → (tree.cursor c).hash ∈ keys)
    (hSub : ∀ j, k = j + 1 → ∀ i ∈ (tree.cursor c).children, ∀ level s,
      Advances keys j GroundedIn (sub (.numbered i) level) (sub' (.numbered i) level) s)
      (level : Nat) :
    Advances keys k GroundedIn (elementStep tree type sub c level)
      (elementStep tree type' sub' c level) s := by
  unfold elementStep
  dsimp only
  refine .look (looks_check (kind_ne_endless tree c)) fun kind hKind => .assuming fun hs => ?_
  split
  · exact .pure (by simp)
  · rename_i hRead
    have hTag : kind.name ∈ "TRANSLATION_UNIT" :: taggedKinds := by
      rcases hTagged with hFile | ⟨kind', hKind', hMem⟩
      · simp only [hFile, Option.isNone_none, Bool.true_and, bne_iff_ne, ne_eq, Decidable.not_not]
          at hRead
        simp [hRead]
      · cases hKind.symm.trans hKind'
        exact List.mem_cons_of_mem _ hMem
    refine .bind (advances_visit_tagged c hTag level) fun v s₁ h₁ hv => ?_
    split
    · exact absurd rfl hv.1
    · refine .bind (advances_enter c kind hv.1 hv.2 level) fun _ s₂ h₂ hKnown => ?_
      have hv₂ := hv.2.keeps h₂.types
      by_cases hNil : (tree.cursor c).children = []
      · exact advances_readInside (by simp [hNil]) kind hv₂ level
      · obtain ⟨j, hj, hs₂⟩ := hs.exists_pred (h₁.trans h₂) (hKey hNil) hUnknown hKnown
        exact .ofLacks hs₂ (advances_readInside (hSub j hj) kind hv₂ level)

end Children

end PxdGen.Index
