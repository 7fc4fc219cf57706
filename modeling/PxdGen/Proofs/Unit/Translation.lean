import PxdGen.Proofs.Unit.Node
import PxdGen.Proofs.Unit.ReadType
/-! # Translating types

A type with a node is read into declarations of its own, and leaves all others, the table and the
stack as they are. Where it is mentioned then, its node is what the mention gives. Of the qualifiers
of the type, the node has all but those of structs, unions, classes and enumerations.
-/

namespace PxdGen.Index

open Decl Decl.Work

/-! ### Reading -/

section Step

variable {tree : Tree} {s : Session} {element : Cursor → Nat → Work Value}
  {sub : TypeRef → Nat → Bool → Work (Option Typed)} {t : TypeRef} {kind : Kind} {level : Nat}
  {resolve : Bool}

theorem yields_reference (hk : tree.typeKind t = .ok kind) (hs : tree.IsSpelled t)
    (hn : kind.name = "LVALUEREFERENCE") {s' s'' : Session} {id : Nat} {key v : Value}
    (hSub : Yields (sub (tree.type t).pointee (level + 1) true) s (some ⟨.link id, key⟩) s')
    (h : Yields (make .refType [.link id]) s' v s'') :
    Yields (typeStep tree element sub t level resolve) s (some { value := v }) s'' := by
  obtain ⟨spelling, hs⟩ := hs
  refine yields_asked hk hs ?_
  simp only [hn]
  exact Yields.bind hSub (Yields.bind (.pure _ _) (Yields.bind h (.pure _ _)))

theorem yields_declared (hk : tree.typeKind t = .ok kind) (hs : tree.IsSpelled t)
    (hn : kind.name = "RECORD" ∨ kind.name = "ENUM") {id : Nat}
    (hTable : s.table.get? (.named (.int (tree.cursor (tree.declaration t)).hash)) =
      some (.link id)) :
    Yields (typeStep tree element sub t level resolve) s
      (declared tree (tree.declaration t) (.link id)) s := by
  have hKnown := yields_known? hTable
  obtain ⟨spelling, hs⟩ := hs
  refine yields_asked hk hs ?_
  rcases hn with hn | hn
  · simp only [hn]
    exact Yields.bind (yields_tell _ _) (Yields.bind hKnown (.pure _ s))
  · simp only [hn]
    exact Yields.bind hKnown (.pure _ s)

end Step

/-- What reading a type comes to: a graph that has grown by the declarations of a node. -/
structure ReadsNode (base : Nat) (s : Session) (x : Work (Option Typed)) (node : Value)
    (typed : Typed) (g : Graph) : Prop where
  yields : Yields x s (some typed) { s with graph := g }
  grows : Grows s.graph g
  stands : ∃ height, height + s.graph.entries.size ≤ g.entries.size + 1 ∧
    StandsFor g base s.graph.entries.size height typed.value node

namespace ReadsNode

variable {tree : Tree} {base : Nat} {s : Session} {t : TypeRef} {node : Value} {typed : Typed}
  {g : Graph} {x y : Work (Option Typed)}

theorem plain (ho : s.graph.origin = .unit) {name : String}
    (hx : ∀ {r s'}, Yields (do qualified tree t (← make .fundamentalType [.text name])) s r s' →
      Yields x s r s') : ∃ typed g,
      ReadsNode base s x (namedValue name (tree.type t).isConst (tree.type t).isVolatile) typed
          g := by
  let g₁ := (s.graph.add (fundamentalEntry name)).2
  let g₂ := (g₁.add (qualifiedEntry (.link s.graph.entries.size) (tree.type t).isConst
    (tree.type t).isVolatile)).2
  have hSize₁ : g₁.entries.size = s.graph.entries.size + 1 := Graph.size_add _ _
  have hSize₂ : g₂.entries.size = g₁.entries.size + 1 := Graph.size_add _ _
  refine ⟨_, g₂, hx (Yields.bind (yields_make (by rw [ho]; rfl))
    (yields_qualified (s := { s with graph := g₁ }) ho t _)),
    (KeepsApart.add _ _).trans (KeepsApart.add _ _), 2, by omega, ?_⟩
  exact .plain ho (show _ ≤ g₁.entries.size by omega) (Nat.le_refl _) (g₁.get?_add_self _)
    ((KeepsApart.add g₁ _).get?_eq (s.graph.get?_add_self _) (.inr (Nat.zero_le _)))

theorem pointer (h : ReadsNode base s y node typed g) (ho : s.graph.origin = .unit)
    (hx : ∀ {id r s'}, typed.value = .link id →
      Yields (do qualified tree t (← make .pointerType [.link id, .nothing, .nothing]))
        { s with graph := g } r s' → Yields x s r s') : ∃ typed g,
      ReadsNode base s x (.node .pointer [("value", node), ("const", .flag (tree.type t).isConst),
        ("volatile", .flag (tree.type t).isVolatile)]) typed g := by
  obtain ⟨height, hHeight, hStands⟩ := h.stands
  obtain ⟨id, hid⟩ := hStands.isLink
  let g₁ := (g.add (pointerEntry (.link id))).2
  let g₂ := (g₁.add (qualifiedEntry (.link g.entries.size) (tree.type t).isConst
    (tree.type t).isVolatile)).2
  have ho' : g.origin = .unit := h.grows.origin.trans ho
  have hSize₁ : g₁.entries.size = g.entries.size + 1 := Graph.size_add _ _
  have hSize₂ : g₂.entries.size = g₁.entries.size + 1 := Graph.size_add _ _
  have hle := h.grows.size
  have hGrows : Grows g g₂ := (KeepsApart.add _ _).trans (KeepsApart.add _ _)
  refine ⟨_, g₂, hx hid (Yields.bind (yields_make_unit ho' rfl)
    (yields_qualified (s := { s with graph := g₁ }) ho' t _)), h.grows.trans hGrows, height + 2,
    by omega, ?_⟩
  refine (hid ▸ hStands.keeps (.ofGrows hGrows _ _)).pointer ho' ?_ hle (g₁.get?_add_self _)
    ((KeepsApart.add g₁ _).get?_eq (g.get?_add_self _) (.inr (Nat.zero_le _)))
  show _ ≤ g₁.entries.size
  omega

/-- A reference or an array is one declaration behind that of its part. -/
theorem wrap (h : ReadsNode base s y node typed g) {e : Entry} {node' : Value}
    (hNode : ∀ {g' height}, g'.origin = g.origin →
      StandsFor g' base s.graph.entries.size height typed.value node →
      g'.get? g.entries.size = some e →
      StandsFor g' base s.graph.entries.size (height + 1) (.link g.entries.size) node')
    (hx : Yields x s (some { value := .link g.entries.size }) { s with graph := (g.add e).2 }) :
    ∃ typed g, ReadsNode base s x node' typed g := by
  obtain ⟨height, hHeight, hStands⟩ := h.stands
  have hGrows : Grows g (g.add e).2 := KeepsApart.add _ _
  refine ⟨_, _, hx, h.grows.trans hGrows, height + 1, ?_, ?_⟩
  · rw [Graph.size_add]
    omega
  · exact hNode rfl (hStands.keeps (.ofGrows hGrows _ _)) (g.get?_add_self _)

end ReadsNode

namespace Tree

variable {tree : Tree} {s : Session}

theorem HasNode.exists_typeKind {t : TypeRef} {node : Value} (h : tree.HasNode s t node) :
    ∃ kind, tree.typeKind t = .ok kind ∧ kind.name ≠ "INVALID" := by
  cases h with
  | simple hk _ hn =>
    refine ⟨_, hk, fun e => ?_⟩
    simp [e, simpleName?] at hn
  | typedef hk hn => exact ⟨_, hk, by simp [hn]⟩
  | declared hk _ hn => exact ⟨_, hk, by rcases hn with hn | hn <;> simp [hn]⟩
  | pointer hk _ hn | reference hk _ hn | array hk _ hn | function hk _ hn =>
    exact ⟨_, hk, by simp [hn]⟩

/-- `sub` reads a type with a node into any graph that has grown from that of `s`. -/
def IsRead (tree : Tree) (s : Session) (sub : TypeRef → Nat → Bool → Work (Option Typed))
    (t : TypeRef) : Prop :=
  ∀ node, tree.HasNode s t node → ∀ g, Grows s.graph g → ∀ level resolve, ∃ typed g',
    ReadsNode s.graph.entries.size { s with graph := g } (sub t level resolve) node typed g'

theorem HasNodes.exists_reads {sub : TypeRef → Nat → Bool → Work (Option Typed)}
    (ho : s.graph.origin = .unit) {ts : List TypeRef} {nodes : List Value}
    (h : tree.HasNodes s ts nodes) (hSub : ∀ t ∈ ts, tree.IsRead s sub t) (level : Nat)
    {f : Nat} {w : Value} (hBase : s.graph.entries.size ≤ f) {g : Graph} {vs : List Value}
    (hGrows : Grows s.graph g) (hf : g.get? f = some (functionTypeEntry w vs)) :
    ∃ vs' g', Yields (addArguments tree sub (.link f) level ts) { s with graph := g } ()
        { s with graph := g' } ∧ KeepsApart f (f + 1) g g' ∧
      g'.get? f = some (functionTypeEntry w (vs ++ vs')) ∧
      ∀ height, g'.entries.size ≤ height + f →
        ArgumentsStand g' s.graph.entries.size (f + 1) height vs' nodes := by
  induction ts generalizing nodes g vs with
  | nil =>
    cases h
    exact ⟨[], g, .pure _ _, .refl _ _ _, by simpa using hf, fun _ _ => .nil⟩
  | cons t ts ih =>
    obtain - | @⟨_, _, node, nodes, ht, hts⟩ := h
    obtain ⟨kind, hk, hKind⟩ := ht.exists_typeKind
    obtain ⟨typed, g₁, hr⟩ := hSub t (by simp) node ht g hGrows (level + 1) true
    let g₂ := (g₁.add (argumentEntry "" typed.value)).2
    let g₃ := g₂.setField f "arguments" (.list (vs ++ [.link g₁.entries.size]))
    have ho₁ : g₁.origin = .unit := hr.grows.origin.trans (hGrows.origin.trans ho)
    have hGrows₂ : Grows g g₂ := hr.grows.trans (.add _ _)
    have hf₂ :
      g₂.get? f = some (functionTypeEntry w vs) := hGrows₂.get?_eq hf (.inr (Nat.zero_le _))
    have hKeeps₂₃ : KeepsApart f (f + 1) g₂ g₃ :=
      .setField g₂ (Nat.le_refl f) (Nat.lt_succ_self f) _ _
    have hKeeps₃ : KeepsApart f (f + 1) g g₃ := (KeepsApart.ofGrows hGrows₂ _ _).trans hKeeps₂₃
    have hGrows₃ : Grows s.graph g₃ :=
      KeepsApart.grows ((KeepsApart.ofGrows hGrows _ _).trans hKeeps₃) hBase
    obtain ⟨vs', g₄, hYields, hKeeps₄, hf₄, hArgs⟩ := ih hts (fun t ht => hSub t (by simp [ht]))
      hGrows₃ (get?_setField_arguments hf₂ _)
    refine ⟨.link g₁.entries.size :: vs', g₄, ?_, hKeeps₃.trans hKeeps₄, by simpa using hf₄, ?_⟩
    · refine Yields.bind (yields_check hk) ?_
      rw [if_pos (by simpa using hKind)]
      refine Yields.bind hr.yields (Yields.bind (.pure _ _) ?_)
      refine Yields.bind (yields_make_unit ho₁ rfl) ?_
      exact Yields.bind (yields_addArgument (s := { s with graph := g₂ }) ho₁ hf₂ _) hYields
    · -- what has been read behind the function type is not changed by its further arguments
      intro height hHeight
      obtain ⟨k, hk, hStands⟩ := hr.stands
      have hSizes : g₂.entries.size = g₁.entries.size + 1 := Graph.size_add _ _
      have hlt := g.lt_size_of_get? hf
      have hle := hr.grows.size
      have hle₄ := (hKeeps₂₃.trans hKeeps₄).size
      have hKeeps₂₄ : KeepsApart s.graph.entries.size (f + 1) g₂ g₄ :=
        (hKeeps₂₃.trans hKeeps₄).mono hBase (Nat.le_refl _)
      have hType : StandsFor g₂ s.graph.entries.size (f + 1) k typed.value node :=
        (hStands.lower hlt).keeps (.ofGrows (.add _ _) _ _)
      have hArg : g₄.get? g₁.entries.size = some (argumentEntry "" typed.value) :=
        hKeeps₂₄.get?_eq (g₁.get?_add_self _) (.inr (Nat.le_trans hlt hle))
      refine .cons (Nat.le_trans hlt hle) hArg ?_ (hType.keeps hKeeps₂₄) (hArgs height hHeight)
      change k + g.entries.size ≤ _ at hk
      omega

/-- **A type is read into declarations that stand for its node**, if the depth of the recursion
reaches its level. -/
theorem HasNode.exists_reads (element : Cursor → Nat → Work Value) (ho : s.graph.origin = .unit)
    {rank : TypeRef → Nat} (hPos : ∀ t, 0 < rank t)
    (hRank : ∀ t v, tree.HasNode s t v → ∀ p ∈ tree.parts t, rank p < rank t) (n : Nat) :
    ∀ t, rank t ≤ n → tree.IsRead s (readType tree element n) t := by
  induction n with
  | zero => exact fun t ht => absurd (hPos t) (by omega)
  | succ n ih =>
    intro t ht node h g hGrows level resolve
    have ho' : g.origin = .unit := hGrows.origin.trans ho
    have hPart : ∀ p ∈ tree.parts t, tree.IsRead s (readType tree element n) p := fun p hp =>
      ih p (Nat.le_of_lt_succ (Nat.lt_of_lt_of_le (hRank t node h p hp) ht))
    cases h with
    | simple hk hs hn =>
      exact ReadsNode.plain (s := { s with graph := g }) ho' fun h => yields_simple hk hs hn h
    | typedef hk hn hs =>
      exact ReadsNode.plain (s := { s with graph := g }) ho' fun h => yields_typedef hk hn hs h
    | @declared _ _ id name hk hs hn hd =>
      obtain ⟨form, hForm, hDeclared⟩ := hd.form
      have hid := Graph.lt_size_of_form? _ hForm
      have hStay : g.get? id = s.graph.get? id := hGrows.get? id hid (.inr (Nat.zero_le _))
      refine ⟨_, g, yields_declared (s := { s with graph := g }) hk hs hn hd.table, .refl _ _ _, 1,
        by simp [Nat.add_comm], ?_⟩
      have hForm' : g.form? (.link id) = some form := by
        simpa only [Graph.form?, hStay] using hForm
      have hName' : g.field? (.link id) "name" = some (.text name) := by
        simpa only [Graph.field?, hStay] using hd.name
      exact .declared ho' hid hForm' hDeclared hName' hd.isNamed
    | pointer hk hs hn h =>
      obtain ⟨⟨v, key⟩, g₁, hr⟩ := hPart _ (by simp [parts, hk, hn]) _ h g hGrows (level + 1) true
      refine hr.pointer ho' ?_
      rintro id r s' rfl h
      exact yields_pointer hk hs hn hr.yields h
    | reference hk hs hn h =>
      obtain ⟨⟨v, key⟩, g₁, hr⟩ := hPart _ (by simp [parts, hk, hn]) _ h g hGrows (level + 1) true
      obtain ⟨_, _, hStands⟩ := hr.stands
      obtain ⟨id, rfl⟩ := hStands.isLink
      have ho₁ : g₁.origin = .unit := hr.grows.origin.trans ho'
      refine hr.wrap (fun hEq hStands he => hStands.reference (hEq.trans ho₁) hr.grows.size he) ?_
      exact yields_reference hk hs hn hr.yields (yields_make_unit ho₁ rfl)
    | @array _ e _ _ count hk hs hn he hc h =>
      obtain rfl := eq_of_elementType he
      obtain ⟨typed, g₁, hr⟩ := hPart _ (by simp [parts, hk, hn]) _ h g hGrows (level + 1) true
      refine hr.wrap (fun _ hStands he => hStands.array hr.grows.size he) ?_
      exact yields_array hk hs hn he hc hr.yields (yields_make_unit (hr.grows.origin.trans ho') rfl)
    | function hk hs hn hres hargs =>
      obtain ⟨typed, g₁, hr⟩ := hPart _ (by simp [parts, hk, hn]) _ hres g hGrows (level + 1) true
      let g₂ := (g₁.add (functionTypeEntry typed.value [])).2
      have ho₁ : g₁.origin = .unit := hr.grows.origin.trans ho'
      have hGrows₁ : Grows s.graph g₁ := hGrows.trans hr.grows
      have hArg : ∀ p ∈ (tree.type t).arguments, tree.IsRead s (readType tree element n) p :=
        fun p hp => hPart p (by simp [parts, hk, hn, hp])
      obtain ⟨vs, g₃, hYields, hKeeps, hf, hArgs⟩ := hargs.exists_reads ho hArg level hGrows₁.size
        (g := g₂) (hGrows₁.trans (.add _ _)) (g₁.get?_add_self _)
      -- the function type is the only declaration that changes, and it is new
      have hGrows₁₃ : Grows g₁ g₃ :=
        KeepsApart.grows ((KeepsApart.ofGrows (.add g₁ _) _ _).trans hKeeps) (Nat.le_refl _)
      obtain ⟨k, hk', hStands⟩ := hr.stands
      change k + g.entries.size ≤ _ at hk'
      have hle : g.entries.size ≤ g₁.entries.size := hr.grows.size
      have hSize₂ : g₂.entries.size = g₁.entries.size + 1 := Graph.size_add _ _
      have hle₃ := hKeeps.size
      refine ⟨_, g₃, yields_function hk hs hn hr.yields
        (yields_make_unit ho₁ rfl) hYields, hr.grows.trans hGrows₁₃,
        g₃.entries.size - g.entries.size + 1, ?_, ?_⟩
      · show _ + g.entries.size ≤ _
        omega
      · refine StandsFor.function ((hStands.keeps (.ofGrows hGrows₁₃ _ _)).higher ?_)
          (hGrows₁₃.origin.trans ho₁) hle (Nat.le_succ_of_le hle) hf (hArgs _ ?_)
        · omega
        · omega

/-- A type with a node is read and then mentioned by it, however far the recursion may go beyond the
number of types. -/
theorem HasNode.exists_gives (element : Cursor → Nat → Work Value) (ho : s.graph.origin = .unit)
    {t : TypeRef} {node : Value} (h : tree.HasNode s t node) {n : Nat} (hn : tree.types.size < n)
    (level : Nat) (resolve : Bool) : ∃ typed g k,
      Gives (readType tree element n t level resolve) s (some typed)
        { s with graph := g, console := k } ∧ Grows s.graph g ∧
      Gives (do mention (← steps) typed.value) { s with graph := g, console := k } node
        { s with graph := g, console := k } := by
  obtain ⟨rank, hBounds, hRank⟩ := tree.exists_typeLevel s
  obtain ⟨typed, g, hYields, hGrows, height, hHeight, hStands⟩ :=
    HasNode.exists_reads element ho (fun t => (hBounds t).1) hRank n t
      (Nat.le_trans (hBounds t).2 hn) node h s.graph (.refl _ _ _) level resolve
  obtain ⟨k, hGives⟩ := hYields.gives
  refine ⟨typed, g, k, hGives, hGrows, ?_⟩
  refine Gives.bind (a := g.entries.size + 1) rfl ?_
  change height + s.graph.entries.size ≤ _ at hHeight
  exact hStands.mention { s with graph := g, console := k } (.refl _ _ _) _ (by omega)

end Tree

/-- **Types are translated shape by shape**: any session reads a type into declarations of its own
and keeps its table, its stack and all it had declared. The declarations are mentioned by the node
of the shape of the type. -/
theorem readType_translates (tree : Tree) (element : Cursor → Nat → Work Value) (s : Session)
    (ho : s.graph.origin = .unit) {t : TypeRef} {node : Value} (h : tree.HasNode s t node) {n : Nat}
    (hn : tree.types.size < n) (level : Nat) (resolve : Bool) :
    ∃ typed s', Gives (readType tree element n t level resolve) s (some typed) s' ∧
      s'.table = s.table ∧ s'.context = s.context ∧ Grows s.graph s'.graph ∧
      Gives (do mention (← steps) typed.value) s' node s' := by
  obtain ⟨typed, g, k, hRead, hGrows, hMention⟩ := h.exists_gives element ho hn level resolve
  exact ⟨typed, _, hRead, rfl, rfl, hGrows, hMention⟩

/-- Functions from references to a struct `S` and arrays of three volatile integers to constant
pointers to a typedef `T`. -/
def mixedTypes : Tree where
  cursors := #[
    { kind := 2, spelling := "S", hash := 7, location := { file := some "t.h" } },
    { kind := 20, spelling := "T", hash := 8, location := { file := some "t.h" } }]
  types := #[
    { kind := 111, result := some 1, arguments := [some 3, some 5] },
    { kind := 101, isConst := true, pointee := some 2 },
    { kind := 107, declaration := some 1 },
    { kind := 103, pointee := some 4 },
    { kind := 105, declaration := some 0 },
    { kind := 112, element := some 6, count := 3 },
    { kind := 17, isVolatile := true }]

/-- The struct `S` has been read. -/
def mixedSession : Session where
  graph := { origin := .unit, entries := #[⟨.struct, [("name", .text "S")]⟩] }
  table := ⟨#[(.named (.int 7), .link 0)]⟩

def mixedNode : Value :=
  .node .cFunctionType [
    ("args", Pxd.argumentsValue [
      Pxd.cNameValue (.node .reference [("value", namedValue "S" false false)]) "",
      Pxd.cNameValue (.node .array [("value", namedValue "int" false true), ("dim", .int 3)]) ""]),
    ("returns", .node .pointer [("value", namedValue "T" false false), ("const", .flag true),
      ("volatile", .flag false)])]

theorem hasNode_mixedTypes : mixedTypes.HasNode mixedSession (some 0) mixedNode := by
  refine .function rfl ⟨_, rfl⟩ rfl (.pointer rfl ⟨_, rfl⟩ rfl (.typedef rfl rfl rfl)) ?_
  refine .cons (.reference rfl ⟨_, rfl⟩ rfl ?_) (.cons ?_ .nil)
  · exact .declared rfl ⟨_, rfl⟩ (.inl rfl) ⟨rfl, rfl, ⟨_, rfl, rfl⟩, rfl⟩
  · exact .array rfl ⟨_, rfl⟩ rfl rfl rfl (.simple rfl ⟨_, rfl⟩ rfl)

theorem readType_translates_mixedTypes :
    ∃ typed s', Gives (readType mixedTypes (readElement mixedTypes 16) 17 (some 0) 0 true)
        mixedSession (some typed) s' ∧
      s'.table = mixedSession.table ∧ s'.context = [] ∧ Grows mixedSession.graph s'.graph ∧
      Gives (do mention (← steps) typed.value) s' mixedNode s' :=
  readType_translates mixedTypes _ mixedSession rfl hasNode_mixedTypes (by decide) 0 true

/-! ### Where const stands -/

/-- Which levels of a node are const, from the outermost pointer to the name under all of them. -/
inductive ConstLevels : Value → List Bool → Prop where
  | name {name : String} {c v : Bool} : ConstLevels (namedValue name c v) [c]
  | pointer {target : Value} {levels : List Bool} {c v : Bool} : ConstLevels target levels →
    ConstLevels (.node .pointer [("value", target), ("const", .flag c), ("volatile", .flag v)])
      (c :: levels)
  | array {element : Value} {levels : List Bool} {count : Int} : ConstLevels element levels →
    ConstLevels (.node .array [("value", element), ("dim", .int count)]) levels

theorem ConstLevels.unique {node : Value} {a b : List Bool} (ha : ConstLevels node a)
    (hb : ConstLevels node b) : a = b := by
  induction ha generalizing b with
  | name => cases hb; rfl
  | pointer _ ih =>
    obtain - | @⟨_, levels, _, _, hb⟩ := hb
    rw [ih hb]
  | array _ ih =>
    obtain - | - | @⟨_, levels, _, hb⟩ := hb
    exact ih hb

/-- A struct, union, class or enumeration. -/
def Tree.isByDeclaration (tree : Tree) (t : TypeRef) : Bool :=
  match tree.typeKind t with
  | .ok kind => kind.name == "RECORD" || kind.name == "ENUM"
  | .error _ => false

/-- The pointers and arrays around a base, with the qualifiers of the pointers from the outermost
on. -/
inductive Tree.Wraps (tree : Tree) (base : TypeRef) : TypeRef → List Bool → Prop where
  | base {kind : Kind} : tree.typeKind base = .ok kind →
    (simpleName? kind.name).isSome ∨ kind.name = "TYPEDEF" ∨ tree.isByDeclaration base = true →
    tree.Wraps base base []
  | pointer {t : TypeRef} {kind : Kind} {levels : List Bool} : tree.typeKind t = .ok kind →
    kind.name = "POINTER" → tree.Wraps base (tree.type t).pointee levels →
    tree.Wraps base t ((tree.type t).isConst :: levels)
  | array {t : TypeRef} {kind : Kind} {levels : List Bool} : tree.typeKind t = .ok kind →
    kind.name = "CONSTANTARRAY" → tree.Wraps base (tree.type t).element levels →
    tree.Wraps base t levels

section

variable {tree : Tree} {s : Session} {t base : TypeRef} {node : Value} {kind : Kind}

/-- What the kind of a type says of its node. -/
theorem Tree.HasNode.eq_pointer (h : tree.HasNode s t node) (hk : tree.typeKind t = .ok kind)
    (hn : kind.name = "POINTER") : ∃ target,
      node = .node .pointer [("value", target), ("const", .flag (tree.type t).isConst),
        ("volatile", .flag (tree.type t).isVolatile)] ∧
      tree.HasNode s (tree.type t).pointee target := by
  cases h with
  | pointer _ _ _ ht => exact ⟨_, rfl, ht⟩
  | declared hk' _ hn' => rcases hn' with hn' | hn' <;> simp_all
  | _ => simp_all [simpleName?]

theorem Tree.HasNode.eq_array (h : tree.HasNode s t node) (hk : tree.typeKind t = .ok kind)
    (hn : kind.name = "CONSTANTARRAY") : ∃ element count,
      node = .node .array [("value", element), ("dim", .int count)] ∧
      tree.HasNode s (tree.type t).element element := by
  cases h with
  | array _ _ _ he _ ht => exact ⟨_, _, rfl, eq_of_elementType he ▸ ht⟩
  | declared hk' _ hn' => rcases hn' with hn' | hn' <;> simp_all
  | _ => simp_all [simpleName?]

theorem Tree.isByDeclaration_eq (hk : tree.typeKind t = .ok kind) :
    tree.isByDeclaration t = (kind.name == "RECORD" || kind.name == "ENUM") := by
  rw [isByDeclaration, hk]

/-- The node of a type is const where the type is, except at a base that is known by its
declaration. -/
theorem Tree.HasNode.constLevels {levels : List Bool} (h : tree.HasNode s t node)
    (hWraps : tree.Wraps base t levels) :
    ConstLevels node (levels ++ [(tree.type base).isConst && !tree.isByDeclaration base]) := by
  induction hWraps generalizing node with
  | @base kind hk hBase =>
    have hBy := isByDeclaration_eq hk
    rw [hBy] at hBase
    cases h with
    | simple hk' _ hn =>
      obtain rfl := Except.ok.inj (hk.symm.trans hk')
      have hOther : ∀ name, simpleName? name = none → (kind.name == name) = false := by
        intro name hNone
        simp only [beq_eq_false_iff_ne]
        rintro rfl
        simp [hNone] at hn
      rw [hBy, hOther "RECORD" rfl, hOther "ENUM" rfl]
      simpa using ConstLevels.name
    | typedef hk' hn =>
      obtain rfl := Except.ok.inj (hk.symm.trans hk')
      simpa [hBy, hn] using ConstLevels.name
    | declared hk' _ hn =>
      obtain rfl := Except.ok.inj (hk.symm.trans hk')
      rw [hBy, show (kind.name == "RECORD" || kind.name == "ENUM") = true by simpa using hn]
      simpa using ConstLevels.name
    | pointer hk' _ hn | reference hk' _ hn | array hk' _ hn | function hk' _ hn =>
      obtain rfl := Except.ok.inj (hk.symm.trans hk')
      simp [hn, simpleName?] at hBase
  | pointer hk hn _ ih =>
    obtain ⟨target, rfl, ht⟩ := h.eq_pointer hk hn
    exact .pointer (ih ht)
  | array hk hn _ ih =>
    obtain ⟨element, count, rfl, he⟩ := h.eq_array hk hn
    exact .array (ih he)

end

/-- **Const is kept at every pointer, builtin type and typedef, and lost at what is known by its
declaration.** So the node of a type is const at just the levels where the type is, if and only if
its base is not such a type with const. -/
theorem constLevels_eq_iff (tree : Tree) (element : Cursor → Nat → Work Value) (s : Session)
    (ho : s.graph.origin = .unit) {t base : TypeRef} {node : Value} {levels : List Bool}
    (h : tree.HasNode s t node) (hWraps : tree.Wraps base t levels) {n : Nat}
    (hn : tree.types.size < n) (level : Nat) (resolve : Bool) :
    (∃ typed s', Gives (readType tree element n t level resolve) s (some typed) s' ∧
      Gives (do mention (← steps) typed.value) s' node s') ∧
    ConstLevels node (levels ++ [(tree.type base).isConst && !tree.isByDeclaration base]) ∧
    (ConstLevels node (levels ++ [(tree.type base).isConst]) ↔
      ¬ ((tree.type base).isConst = true ∧ tree.isByDeclaration base = true)) := by
  obtain ⟨typed, g, k, hRead, -, hMention⟩ := h.exists_gives element ho hn level resolve
  have hLevels := h.constLevels hWraps
  refine ⟨⟨typed, _, hRead, hMention⟩, hLevels, ?_, ?_⟩
  · intro hConst
    have hEq := List.append_cancel_left (hLevels.unique hConst)
    rintro ⟨hc, hd⟩
    simp [hc, hd] at hEq
  · intro hNot
    have hEq :
        ((tree.type base).isConst && !tree.isByDeclaration base) = (tree.type base).isConst := by
      cases hc : (tree.type base).isConst <;> cases hd : tree.isByDeclaration base <;> simp_all
    rwa [hEq] at hLevels

/-- Pointers to a constant struct `S`. -/
def constStruct : Tree where
  cursors := #[{ kind := 2, spelling := "S", hash := 7, location := { file := some "t.h" } }]
  types :=
    #[{ kind := 101, pointee := some 1 }, { kind := 105, isConst := true, declaration := some 0 }]

theorem constLevels_constStruct :
    (∃ typed s', Gives (readType constStruct (readElement constStruct 9) 7 (some 0) 0 true)
        mixedSession (some typed) s' ∧
      Gives (do mention (← steps) typed.value) s'
        (.node .pointer [("value", namedValue "S" false false), ("const", .flag false),
          ("volatile", .flag false)]) s') ∧
    constStruct.Wraps (some 1) (some 0) [false] ∧ (constStruct.type (some 1)).isConst = true ∧
    ¬ ConstLevels (.node .pointer [("value", namedValue "S" false false), ("const", .flag false),
      ("volatile", .flag false)]) [false, true] := by
  have hNode : constStruct.HasNode mixedSession (some 0) (.node .pointer [
      ("value", namedValue "S" false false), ("const", .flag false), ("volatile", .flag false)]) :=
    .pointer rfl ⟨_, rfl⟩ rfl (.declared rfl ⟨_, rfl⟩ (.inl rfl) ⟨rfl, rfl, ⟨_, rfl, rfl⟩, rfl⟩)
  have hWraps : constStruct.Wraps (some 1) (some 0) [false] :=
    .pointer rfl rfl (.base rfl (.inr (.inr rfl)))
  obtain ⟨hRead, -, hIff⟩ := constLevels_eq_iff constStruct (readElement constStruct 9) mixedSession
    rfl hNode hWraps (n := 7) (by decide) 0 true
  exact ⟨hRead, hWraps, rfl, fun h => hIff.1 h ⟨rfl, rfl⟩⟩

end PxdGen.Index
