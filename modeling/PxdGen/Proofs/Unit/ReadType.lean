import PxdGen.Proofs.Unit.Shows
/-! # Reading types

Reading a type of a unit adds the declarations that make it up to the graph and changes nothing
else, as long as everything that it is tagged by has been read. The depth of the recursion suffices
for every type that denotes a C type.
-/

namespace PxdGen.Index

open Decl Decl.Work

variable {tree : Tree} {s : Session}

variable {d id f : Nat} {name : String} {g : Graph} {r : Option Typed} {s' s'' : Session}
  {typed : Typed} {v w : Value} {vs : List Value} {type : UnitType}

/-- The key that what is read from a cursor is found by. -/
def Tree.key (tree : Tree) (c : Nat) : Key := .named (.int (tree.cursor (.numbered c)).hash)

/-- A struct, union or enumeration has been read from a cursor. -/
structure Known (tree : Tree) (s : Session) (declaration id : Nat) (name : String) : Prop where
  table : s.table.get? (tree.key declaration) = some (.link id)
  form : ∃ form, s.graph.form? (.link id) = some form ∧ isTagged form = true
  name : s.graph.field? (.link id) "name" = some (.text name)

/-- The cursors have been read under the names they are spelled with. -/
def AllKnown (tree : Tree) (s : Session) (declarations : List Nat) : Prop :=
  ∀ d ∈ declarations, ∃ id name, tree.spelling (.numbered d) = .ok (some name) ∧
    Known tree s d id name

variable {free : Nat → String → Prop}

theorem Known.keeps (h : Known tree s d id name) (hk : KeepsBut free s.graph g) :
    Known tree { s with graph := g } d id name := by
  obtain ⟨form, hform, ht⟩ := h.form
  have hid := Graph.lt_size_of_form? _ hform
  exact ⟨h.table, ⟨form, (hk.form id hid).trans hform, ht⟩, (hk.name id hid).trans h.name⟩

theorem AllKnown.keeps {ds : List Nat} {g : Graph} (h : AllKnown tree s ds)
    (hk : KeepsBut free s.graph g) : AllKnown tree { s with graph := g } ds := by
  intro d hd
  obtain ⟨id, name, hs, hKnown⟩ := h d hd
  exact ⟨id, name, hs, hKnown.keeps hk⟩

theorem AllKnown.context {ds : List Nat} (h : AllKnown tree s ds) (vs : List Value) :
    AllKnown tree { s with context := vs } ds := by
  intro d hd
  obtain ⟨id, name, hs, hKnown⟩ := h d hd
  exact ⟨id, name, hs, hKnown.table, hKnown.form, hKnown.name⟩

theorem yields_tell (level : Nat) (words : List String) : Yields (tell level words) s () s :=
  yields_say _

/-- Two answers that are at hand, and a line on the console. -/
theorem yields_asked {α β γ : Type} {x : Except Fault α} {y : Except Fault β} {a : α} {b : β}
    {level : Nat} {words : α → β → List String} {f : α → β → Work γ} {r : γ} (hx : x = .ok a)
    (hy : y = .ok b) (h : Yields (f a b) s r s') : Yields (do
      let a ← check x
      let b ← check y
      tell level (words a b)
      f a b) s r s' :=
  Yields.bind (yields_check hx) (Yields.bind (yields_check hy) (Yields.bind (yields_tell _ _) h))

theorem yields_known? {c : Cursor}
    (h : s.table.get? (.named (.int (tree.cursor c).hash)) = some (.link id)) :
    Yields (known? tree c) s (some (.link id)) s := by
  refine yields_get_bind fun k => ?_
  dsimp only
  rw [h]
  exact .pure _ s

theorem Known.yields_known? (h : Known tree s d id name) :
    Yields (known? tree (.numbered d)) s (some (.link id)) s := Index.yields_known? h.table

/-- What reading a type comes to: the graph has grown by the declarations of the type. -/
structure ReadsType (s : Session) (x : Work (Option Typed)) (type : UnitType) (typed : Typed)
    (g : Graph) : Prop where
  yields : Yields x s (some typed) { s with graph := g }
  keeps : Keeps s.graph g
  shows : Shows g s.graph.entries.size typed.value type
  size : g.entries.size = s.graph.entries.size + type.cells

/-- The qualifiers are put around a declaration. -/
theorem yields_qualified (ho : s.graph.origin = .unit) (t : TypeRef) (inner : Value) :
    Yields (qualified tree t inner) s (some { value := .link s.graph.entries.size })
      { s with graph := (s.graph.add (qualifiedEntry inner (tree.type t).isConst
          (tree.type t).isVolatile)).2 } := by
  refine Yields.bind (yields_make ?_) (.pure _ _)
  rw [ho]
  rfl

section Step

variable {element : Cursor → Nat → Work Value} {sub : TypeRef → Nat → Bool → Work (Option Typed)}
  {t : TypeRef} {kind : Kind} {level : Nat} {resolve : Bool}

variable (hk : tree.typeKind t = .ok kind)

include hk

theorem yields_simple (hs : tree.IsSpelled t)
    (hn : simpleName? kind.name = some name)
    (h : Yields (do qualified tree t (← make .fundamentalType [.text name])) s r s') :
    Yields (typeStep tree element sub t level resolve) s r s' := by
  obtain ⟨spelling, hs⟩ := hs
  refine yields_asked hk hs ?_
  rw [hn]
  exact h

theorem yields_typedef
    (hn : kind.name = "TYPEDEF") (hs : tree.spelling (tree.declaration t) = .ok (some name))
    (h : Yields (do qualified tree t (← make .fundamentalType [.text name])) s r s') :
    Yields (typeStep tree element sub t level resolve) s r s' := by
  refine yields_asked hk hs ?_
  simp only [hn]
  exact h

theorem yields_pointer (hs : tree.IsSpelled t)
    (hn : kind.name = "POINTER") {key : Value}
    (hSub : Yields (sub (tree.type t).pointee (level + 1) true) s (some ⟨.link id, key⟩) s')
    (h : Yields (do qualified tree t (← make .pointerType [.link id, .nothing, .nothing])) s' r
      s'') :
    Yields (typeStep tree element sub t level resolve) s r s'' := by
  obtain ⟨spelling, hs⟩ := hs
  refine yields_asked hk hs ?_
  simp only [hn]
  exact Yields.bind hSub (Yields.bind (.pure _ _) h)

theorem yields_array (hs : tree.IsSpelled t)
    (hn : kind.name = "CONSTANTARRAY") {e : TypeRef} {count : Int} (he : tree.elementType t = .ok e)
    (hc : tree.elementCount t = .ok count)
      (hSub : Yields (sub e (level + 1) true) s (some typed) s')
    (h : Yields (make .arrayType [typed.value, .int 0, .int (count - 1)]) s' v s'') :
    Yields (typeStep tree element sub t level resolve) s (some { value := v }) s'' := by
  obtain ⟨spelling, hs⟩ := hs
  refine yields_asked hk hs ?_
  simp only [hn]
  refine Yields.bind (yields_check he) (Yields.bind hSub (Yields.bind (.pure _ _) ?_))
  exact Yields.bind (yields_check hc) (Yields.bind h (.pure _ _))

theorem yields_function (hs : tree.IsSpelled t)
    (hn : kind.name = "FUNCTIONPROTO") {s₁ s₂ s₃ : Session}
    (hSub : Yields (sub (tree.type t).result (level + 1) true) s (some typed) s₁)
    (hMake : Yields (make .functionType [typed.value, .nothing]) s₁ v s₂)
    (h : Yields (addArguments tree sub v level (tree.type t).arguments) s₂ () s₃) :
    Yields (typeStep tree element sub t level resolve) s (some { value := v }) s₃ := by
  obtain ⟨spelling, hs⟩ := hs
  refine yields_asked hk hs ?_
  simp only [hn]
  refine Yields.bind (yields_tell _ _) (Yields.bind hSub (Yields.bind (.pure _ _) ?_))
  refine Yields.bind hMake (Yields.bind (yields_tell _ _) ?_)
  exact Yields.bind h (.pure _ _)

/-- What is tagged by a declaration that has been read is that declaration. -/
theorem yields_tagged (hn : kind.name = "RECORD" ∨ kind.name = "ENUM")
    (hd : tree.declaration t = .numbered d) (hs : tree.spelling (.numbered d) = .ok (some name))
    (h : Known tree s d id name) : Yields (typeStep tree element sub t level resolve) s
      (declared tree (.numbered d) (.link id)) s := by
  refine yields_asked hk (hd ▸ hs) ?_
  rcases hn with hn | hn
  · simp only [hn, hd]
    refine Yields.bind (yields_tell _ _) (Yields.bind (hd ▸ h.yields_known?) ?_)
    simp only [hd]
    exact .pure _ s
  · simp only [hn, hd]
    exact Yields.bind h.yields_known? (.pure _ s)

end Step

/-! ### Arguments of function types -/

theorem yields_addArgument (ho : s.graph.origin = .unit)
    (h : s.graph.get? f = some (functionTypeEntry w vs)) (a : Nat) :
    Yields (add "add_argument" (.link f) (.link a)) s ()
        { s with graph := s.graph.setField f "arguments" (.list (vs ++ [.link a])) } := by
  refine yields_get_bind fun k => ?_
  dsimp only
  rw [Graph.form?_of_get? _ h, ho]
  exact yields_append _ (Graph.field?_of_get? _ h "arguments")

theorem get?_setField_arguments (h : g.get? f = some (functionTypeEntry w vs)) (vs' : List Value) :
    (g.setField f "arguments" (.list vs')).get? f = some (functionTypeEntry w vs') := by
  rw [Graph.get?_setField, if_pos rfl, h]
  rfl

/-! ### Types as a whole -/

theorem readsType_plain (ho : s.graph.origin = .unit) {t : TypeRef}
    {x : Work (Option Typed)}
    (hx : ∀ {r s'}, Yields (do qualified tree t (← make .fundamentalType [.text name])) s r s' →
      Yields x s r s') :
    ∃ typed g, ReadsType s x (.plain name (tree.type t).isConst (tree.type t).isVolatile) typed
        g := by
  let g₁ := (s.graph.add (fundamentalEntry name)).2
  let g₂ := (g₁.add (qualifiedEntry (.link s.graph.entries.size) (tree.type t).isConst
    (tree.type t).isVolatile)).2
  have hSize : g₁.entries.size = s.graph.entries.size + 1 := Graph.size_add _ _
  refine ⟨_, g₂, hx (Yields.bind (yields_make (by rw [ho]; rfl))
    (yields_qualified (s := { s with graph := g₁ }) ho t _)), ?_, ?_, ?_⟩
  · exact Keeps.trans (KeepsBut.add _ _ _) (KeepsBut.add _ _ _)
  · refine .plain ?_ (Nat.le_refl s.graph.entries.size) (g₁.get?_add_self _) ?_
    · show s.graph.entries.size ≤ g₁.entries.size
      omega
    · exact Keeps.get? (KeepsBut.add _ g₁ _) (s.graph.get?_add_self _) rfl
  · show (g₁.add _).2.entries.size = _
    rw [Graph.size_add, hSize]
    rfl

theorem ReadsType.pointer (ho : s.graph.origin = .unit) {t : TypeRef} {target : UnitType}
    {typed : Typed} {g : Graph} {x y : Work (Option Typed)} (h : ReadsType s y target typed g)
    (hx : ∀ {id r s'}, typed.value = .link id →
      Yields (do qualified tree t (← make .pointerType [.link id, .nothing, .nothing]))
        { s with graph := g } r s' → Yields x s r s') :
    ∃ typed g, ReadsType s x (.pointer target (tree.type t).isConst (tree.type t).isVolatile)
      typed g := by
  obtain ⟨id, hid⟩ := h.shows.isLink
  let g₁ := (g.add (pointerEntry (.link id))).2
  let g₂ := (g₁.add (qualifiedEntry (.link g.entries.size) (tree.type t).isConst
    (tree.type t).isVolatile)).2
  have ho' : g.origin = .unit := h.keeps.origin.trans ho
  have hSize : g₁.entries.size = g.entries.size + 1 := Graph.size_add _ _
  have hle := h.keeps.size
  have hKeeps : Keeps g g₂ := Keeps.trans (KeepsBut.add _ _ _) (KeepsBut.add _ _ _)
  refine ⟨_, g₂, hx hid (Yields.bind (yields_make_unit ho' rfl)
    (yields_qualified (s := { s with graph := g₁ }) ho' t _)), h.keeps.trans hKeeps, ?_, ?_⟩
  · refine .pointer ?_ hle (g₁.get?_add_self _) ?_ (hid ▸ h.shows.keepsAll hKeeps)
    · show s.graph.entries.size ≤ g₁.entries.size
      omega
    · exact Keeps.get? (KeepsBut.add _ g₁ _) (g.get?_add_self _) rfl
  · show (g₁.add _).2.entries.size = _
    rw [Graph.size_add, hSize, h.size]
    rfl

theorem ReadsType.array (ho : s.graph.origin = .unit) {element : UnitType} {count : Int}
    {typed : Typed} {g : Graph} {x y : Work (Option Typed)} (h : ReadsType s y element typed g)
    (hx : ∀ {v s'}, Yields (make .arrayType [typed.value, .int 0, .int (count - 1)])
      { s with graph := g } v s' → Yields x s (some { value := v }) s') :
    ∃ typed g, ReadsType s x (.array element count) typed g := by
  have hKeeps : Keeps g (g.add (arrayEntry typed.value count)).2 := KeepsBut.add _ _ _
  refine ⟨_, _, hx (yields_make_unit (h.keeps.origin.trans ho) rfl), h.keeps.trans hKeeps, ?_, ?_⟩
  · exact .array h.keeps.size (g.get?_add_self _) (h.shows.keepsAll hKeeps)
  · rw [Graph.size_add, h.size]
    rfl

theorem kind_ne_invalid {t : TypeRef} {kind : Kind} (h : tree.Denotes t type)
    (hk : tree.typeKind t = .ok kind) : kind.name ≠ "INVALID" := by
  intro e
  cases h with
  | simple hk' _ hn =>
    obtain rfl := Except.ok.inj (hk.symm.trans hk')
    simp [e, simpleName?] at hn
  | tagged hk' hn =>
    obtain rfl := Except.ok.inj (hk.symm.trans hk')
    rcases hn with hn | hn <;> simp [e] at hn
  | typedef hk' hn | pointer hk' _ hn | array hk' _ hn | function hk' _ hn =>
    obtain rfl := Except.ok.inj (hk.symm.trans hk')
    simp [e] at hn

theorem Tree.Denotes.typeKind_eq {t : TypeRef} (h : tree.Denotes t type) :
    ∃ kind, tree.typeKind t = .ok kind := by
  cases h <;> exact ⟨_, ‹_›⟩

mutual

/-- **A type of a unit is read** into the declarations that make up the C type it denotes. -/
theorem Tree.Denotes.readsType (element : Cursor → Nat → Work Value) {s : Session}
    (ho : s.graph.origin = .unit) {t : TypeRef} {type : UnitType} (h : tree.Denotes t type)
    (hKnown : AllKnown tree s type.tags) {n : Nat} (hn : type.depth ≤ n) (level : Nat)
    (resolve : Bool) :
    ∃ typed g, ReadsType s (readType tree element n t level resolve) type typed g := by
  have hpos := type.depth_pos
  obtain ⟨n, rfl⟩ : ∃ m, n = m + 1 := ⟨n - 1, by omega⟩
  cases h with
  | simple hk hs hname => exact readsType_plain ho fun h => yields_simple hk hs hname h
  | typedef hk hname hs => exact readsType_plain ho fun h => yields_typedef hk hname hs h
  | @tagged _ _ d name hk hname hd hs =>
    obtain ⟨id, name', hs', hd'⟩ := hKnown d (by simp [UnitType.tags])
    obtain rfl : name = name' := by simpa using hs.symm.trans hs'
    obtain ⟨form, hform, ht⟩ := hd'.form
    exact ⟨_, s.graph, yields_tagged hk hname hd hs hd', KeepsBut.refl _ _,
      .tagged hform ht hd'.name, rfl⟩
  | pointer hk hs hname ht =>
    obtain ⟨⟨v, key⟩, g, hr⟩ := ht.readsType element ho hKnown (n := n)
      (by simp only [UnitType.depth] at hn; omega) (level + 1) true
    refine hr.pointer ho ?_
    rintro id r s' rfl h
    exact yields_pointer hk hs hname hr.yields h
  | array hk hs hname he hc ht =>
    obtain ⟨typed, g, hr⟩ := ht.readsType element ho hKnown (n := n)
      (by simp only [UnitType.depth] at hn; omega) (level + 1) true
    exact hr.array ho fun h => yields_array hk hs hname he hc hr.yields h
  | @function _ _ result args hk hs hname hres hargs =>
    simp only [UnitType.depth] at hn
    obtain ⟨typed, g₁, hr⟩ := hres.readsType element ho
      (fun d hd => hKnown d (List.mem_append.2 (.inl hd))) (n := n) (by omega) (level + 1) true
    let g₂ := (g₁.add (functionTypeEntry typed.value [])).2
    have ho₁ : g₁.origin = .unit := hr.keeps.origin.trans ho
    have hKeeps₂ : Keeps s.graph g₂ := hr.keeps.trans (KeepsBut.add _ _ _)
    obtain ⟨vs, g₃, hYields, hKeeps₃, hf, hAll, hSize⟩ := hargs.readsAll element
      (s := { s with graph := g₂ }) ho₁
      (AllKnown.keeps (fun d hd => hKnown d (List.mem_append.2 (.inr hd))) hKeeps₂) (n := n)
      (by omega) level (g₁.get?_add_self _)
    have hle := hr.keeps.size
    -- the function type itself is the only declaration that changes, and it is new
    have hKeeps₁₃ : Keeps g₁ g₃ :=
      KeepsBut.trans (KeepsBut.add _ _ _) hKeeps₃ fun id hid _ h => (Nat.ne_of_lt hid) h.1
    refine ⟨_, g₃, yields_function hk hs hname hr.yields
      (yields_make_unit ho₁ rfl) hYields, hr.keeps.trans hKeeps₁₃, ?_, ?_⟩
    · exact .function hle hf (hr.shows.keepsAll hKeeps₁₃) (hAll.mono (by omega))
    · rw [hSize, Graph.size_add, hr.size]
      simp only [UnitType.cells]
      omega

theorem Tree.DenotesAll.readsAll (element : Cursor → Nat → Work Value) {s : Session}
    (ho : s.graph.origin = .unit) {ts : List TypeRef} {types : UnitTypes}
    (h : tree.DenotesAll ts types) (hKnown : AllKnown tree s types.tags) {n : Nat}
    (hn : types.depth ≤ n) (level : Nat) {f : Nat} {w : Value} {vs : List Value}
    (hf : s.graph.get? f = some (functionTypeEntry w vs)) :
    ∃ vs' g, Yields (addArguments tree (readType tree element n) (.link f) level ts) s ()
        { s with graph := g } ∧
      KeepsBut (Only f "arguments") s.graph g ∧ g.get? f = some (functionTypeEntry w (vs ++ vs')) ∧
      ShowsAll g (f + 1) vs' types ∧ g.entries.size = s.graph.entries.size + types.cells := by
  cases h with
  | nil =>
    exact ⟨[], s.graph, .pure _ _, KeepsBut.refl _ _, by simpa using hf, .nil, rfl⟩
  | @cons t ts type types ht hts =>
    simp only [UnitTypes.depth] at hn
    obtain ⟨kind, hk⟩ := ht.typeKind_eq
    obtain ⟨typed, g₁, hr⟩ := ht.readsType element ho
      (fun d hd => hKnown d (List.mem_append.2 (.inl hd))) (n := n) (by omega) (level + 1) true
    let g₂ := (g₁.add (argumentEntry "" typed.value)).2
    let g₃ := g₂.setField f "arguments" (.list (vs ++ [.link g₁.entries.size]))
    have ho₁ : g₁.origin = .unit := hr.keeps.origin.trans ho
    have hle := hr.keeps.size
    have hSize₂ : g₂.entries.size = g₁.entries.size + 1 := Graph.size_add _ _
    have hfs := s.graph.lt_size_of_get? hf
    have hKeeps₂ : Keeps s.graph g₂ := hr.keeps.trans (KeepsBut.add _ _ _)
    have hf₂ := hKeeps₂.get? hf rfl
    have hKeeps₂₃ : KeepsBut (Only f "arguments") g₂ g₃ :=
      KeepsBut.setField (g₂.lt_size_of_get? hf₂) _ (by simp) ⟨rfl, rfl⟩
    have hKeeps₃ : KeepsBut (Only f "arguments") s.graph g₃ :=
      (hKeeps₂.weaken fun _ _ => False.elim).trans hKeeps₂₃ fun _ _ _ => id
    obtain ⟨vs', g₄, hYields, hKeeps₄, hf₄, hAll, hSize⟩ := hts.readsAll element
      (s := { s with graph := g₃ }) ho₁
      (AllKnown.keeps (fun d hd => hKnown d (List.mem_append.2 (.inr hd))) hKeeps₃) (n := n)
      (by omega) level (get?_setField_arguments hf₂ _)
    have hKeeps₂₄ : KeepsBut (Only f "arguments") g₂ g₄ := hKeeps₂₃.trans hKeeps₄ fun _ _ _ => id
    refine ⟨.link g₁.entries.size :: vs', g₄, ?_, hKeeps₃.trans hKeeps₄ fun _ _ _ => id, ?_, ?_, ?_⟩
    · refine Yields.bind (yields_check hk) ?_
      rw [if_pos (by simpa using kind_ne_invalid ht hk)]
      refine Yields.bind hr.yields (Yields.bind (.pure _ _) ?_)
      refine Yields.bind (yields_make_unit ho₁ rfl) ?_
      exact Yields.bind (yields_addArgument (s := { s with graph := g₂ }) ho₁ hf₂ _) hYields
    · simpa using hf₄
    · have hSteady := isSteady_only f "arguments" g₂
      have hArg := hKeeps₂₄.steady hSteady (by omega) (g₁.get?_add_self _) rfl
      have hType : Shows g₂ (f + 1) typed.value type :=
        (hr.shows.mono hfs).keepsAll (KeepsBut.add _ g₁ _)
      exact .cons (by omega) hArg (hType.keeps hKeeps₂₄ hSteady) hAll
    · rw [hSize, Graph.size_setField, hSize₂, hr.size]
      simp only [UnitTypes.cells]
      omega

end

end PxdGen.Index
