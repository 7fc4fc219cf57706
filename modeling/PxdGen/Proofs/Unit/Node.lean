import PxdGen.Proofs.Unit.Shows
/-! # Types and their nodes

`Tree.HasNode` says which pxd node has the shape of a type. Types that run in a circle have none, so
those that have one lie on levels. `StandsFor` says that declarations of a graph are mentioned by a
node, and stay so whatever is declared later.
-/

namespace PxdGen.Index

open Decl Decl.Work

variable {t : TypeRef} {e : Entry} {name : String} {n id low' : Nat}

/-- Structs, unions, enumerations and classes. -/
def isDeclared : Form → Bool
  | .struct | .union | .enumeration | .cppClass => true
  | _ => false

/-- The declaration of a type has been read, and has a name. -/
structure Registered (tree : Tree) (s : Session) (t : TypeRef) (id : Nat) (name : String) :
    Prop where
  isNamed : name.isEmpty = false
  table : s.table.get? (.named (.int (tree.cursor (tree.declaration t)).hash)) = some (.link id)
  form : ∃ form, s.graph.form? (.link id) = some form ∧ isDeclared form = true
  name : s.graph.field? (.link id) "name" = some (.text name)

mutual

/-- The pxd node of the same shape as a type. Qualifiers stand at names and at pointers; what is
known by its declaration is called by the name of that. -/
inductive Tree.HasNode (tree : Tree) (s : Session) : TypeRef → Value → Prop where
  | simple {t : TypeRef} {kind : Kind} {name : String} :
    tree.typeKind t = .ok kind → tree.IsSpelled t → simpleName? kind.name = some name →
    tree.HasNode s t (namedValue name (tree.type t).isConst (tree.type t).isVolatile)
  | typedef {t : TypeRef} {kind : Kind} {name : String} :
    tree.typeKind t = .ok kind → kind.name = "TYPEDEF" →
    tree.spelling (tree.declaration t) = .ok (some name) →
    tree.HasNode s t (namedValue name (tree.type t).isConst (tree.type t).isVolatile)
  | declared {t : TypeRef} {kind : Kind} {id : Nat} {name : String} :
    tree.typeKind t = .ok kind → tree.IsSpelled t → kind.name = "RECORD" ∨ kind.name = "ENUM" →
    Registered tree s t id name → tree.HasNode s t (namedValue name false false)
  | pointer {t : TypeRef} {kind : Kind} {target : Value} :
    tree.typeKind t = .ok kind → tree.IsSpelled t → kind.name = "POINTER" →
    tree.HasNode s (tree.type t).pointee target →
    tree.HasNode s t (.node .pointer [("value", target), ("const", .flag (tree.type t).isConst),
      ("volatile", .flag (tree.type t).isVolatile)])
  | reference {t : TypeRef} {kind : Kind} {target : Value} :
    tree.typeKind t = .ok kind → tree.IsSpelled t → kind.name = "LVALUEREFERENCE" →
    tree.HasNode s (tree.type t).pointee target →
    tree.HasNode s t (.node .reference [("value", target)])
  | array {t e : TypeRef} {kind : Kind} {element : Value} {count : Int} :
    tree.typeKind t = .ok kind → tree.IsSpelled t → kind.name = "CONSTANTARRAY" →
    tree.elementType t = .ok e → tree.elementCount t = .ok count → tree.HasNode s e element →
    tree.HasNode s t (.node .array [("value", element), ("dim", .int count)])
  | function {t : TypeRef} {kind : Kind} {result : Value} {args : List Value} :
    tree.typeKind t = .ok kind → tree.IsSpelled t → kind.name = "FUNCTIONPROTO" →
    tree.HasNode s (tree.type t).result result → tree.HasNodes s (tree.type t).arguments args →
    tree.HasNode s t (.node .cFunctionType [("args", Pxd.argumentsValue args), ("returns", result)])

/-- Arguments without names, one for each type. -/
inductive Tree.HasNodes (tree : Tree) (s : Session) : List TypeRef → List Value → Prop where
  | nil : tree.HasNodes s [] []
  | cons {t : TypeRef} {ts : List TypeRef} {v : Value} {vs : List Value} :
    tree.HasNode s t v → tree.HasNodes s ts vs →
    tree.HasNodes s (t :: ts) (Pxd.cNameValue v "" :: vs)

end

/-! ### Types that end -/

namespace Tree

variable {tree : Tree} {s : Session}

/-- The parts of a type, as its kind has them. -/
def parts (tree : Tree) (t : TypeRef) : List TypeRef :=
  match tree.typeKind t with
  | .error _ => []
  | .ok kind =>
    match kind.name with
    | "POINTER" | "LVALUEREFERENCE" => [(tree.type t).pointee]
    | "CONSTANTARRAY" => [(tree.type t).element]
    | "FUNCTIONPROTO" => (tree.type t).result :: (tree.type t).arguments
    | _ => []

theorem parts_place (tree : Tree) (t : TypeRef) :
    tree.parts (some (tree.place t)) = tree.parts t := by
  simp only [parts, typeKind, ← tree.type_place t]

theorem eq_of_elementType {e : TypeRef} (h : tree.elementType t = .ok e) :
    e = (tree.type t).element := by
  rw [elementType] at h
  cases hk : tree.typeKind (tree.type t).element with
  | error f =>
    rw [hk] at h
    cases h
  | ok kind =>
    rw [hk] at h
    simp only [bind, Except.bind] at h
    split at h
    · cases h
    · exact (Except.ok.inj h).symm

theorem parts_of_simple {kind : Kind} (hk : tree.typeKind t = .ok kind)
    (hn : simpleName? kind.name = some name) : tree.parts t = [] := by
  simp only [parts, hk]
  split <;> simp_all [simpleName?]

/-- One type is a part of another, by their numbers. -/
def IsPart (tree : Tree) (i j : Nat) : Prop :=
  i < tree.types.size + 1 ∧ ∃ p ∈ tree.parts (some i), tree.place p = j

theorem acc_of_parts
    (h : ∀ p ∈ tree.parts t, Acc (fun j i => tree.IsPart i j) (tree.place p)) :
    Acc (fun j i => tree.IsPart i j) (tree.place t) := by
  refine .intro _ fun j hj => ?_
  obtain ⟨-, p, hp, rfl⟩ := hj
  rw [parts_place] at hp
  exact h p hp

mutual

/-- All ways into the parts of a type with a node end. -/
theorem HasNode.acc {t : TypeRef} {v : Value} (h : tree.HasNode s t v) :
    Acc (fun j i => tree.IsPart i j) (tree.place t) := by
  refine acc_of_parts ?_
  cases h with
  | simple hk _ hn => simp [parts_of_simple hk hn]
  | typedef hk hn => simp [parts, hk, hn]
  | declared hk _ hn => rcases hn with hn | hn <;> simp [parts, hk, hn]
  | pointer hk _ hn ht | reference hk _ hn ht => simpa [parts, hk, hn] using ht.acc
  | array hk _ hn he _ ht =>
    obtain rfl := eq_of_elementType he
    simpa [parts, hk, hn] using ht.acc
  | function hk _ hn hr ha => simpa [parts, hk, hn] using ⟨hr.acc, ha.acc⟩

theorem HasNodes.acc {ts : List TypeRef} {vs : List Value} (h : tree.HasNodes s ts vs) :
    ∀ p ∈ ts, Acc (fun j i => tree.IsPart i j) (tree.place p) := by
  cases h with
  | nil => simp
  | cons h hs => simpa using ⟨h.acc, hs.acc⟩

end

/-- **Types with a node have levels**, of which there are no more than types and one. -/
theorem exists_typeLevel (tree : Tree) (s : Session) : ∃ level : TypeRef → Nat,
    (∀ t, 0 < level t ∧ level t ≤ tree.types.size + 1) ∧
      ∀ t v, tree.HasNode s t v → ∀ p ∈ tree.parts t, level p < level t := by
  obtain ⟨level, hLe, hPos, hLt⟩ := exists_level (n := tree.types.size + 1)
    (R := fun i j => tree.IsPart i j ∧ Acc (fun j i => tree.IsPart i j) i)
    (fun _ _ h => h.1.1) not_transGen_of_acc
  refine ⟨fun t => level (tree.place t), fun t => ⟨hPos _ (tree.place_lt t), hLe _⟩, ?_⟩
  intro t v h p hp
  refine hLt _ _ ⟨⟨tree.place_lt t, p, ?_, rfl⟩, h.acc⟩
  rwa [parts_place]

end Tree

/-! ### Mentions of classes and references -/

def referenceEntry (typ : Value) : Entry :=
  ⟨.refType, [("location", .nothing), ("name", .text ""), ("typ", typ)]⟩

section Mention

variable {s : Session}

theorem gives_mention_class (ho : s.graph.origin = .unit)
    (hform : s.graph.form? (.link id) = some .cppClass)
    (hname : s.graph.field? (.link id) "name" = some (.text name)) :
    Gives (mention (n + 1) (.link id)) s (namedValue name false false) s := by
  refine gives_mention (Gives.bind gives_origin (Gives.get ?_))
  rw [hform, ho]
  exact Gives.bind (gives_field hname) (gives_namedType name)

theorem gives_mention_reference (ho : s.graph.origin = .unit) {w type : Value}
    (h : s.graph.get? id = some (referenceEntry w)) (hw : Gives (mention n w) s type s)
    (ht : type.isOf .ctype = true) :
    Gives (mention (n + 1) (.link id)) s (.node .reference [("value", type)]) s := by
  refine gives_mention (Gives.bind gives_origin (Gives.get ?_))
  rw [Graph.form?_of_get? _ h, ho]
  refine Gives.bind (gives_field (Graph.field?_of_get? _ h "typ")) (Gives.bind hw ?_)
  exact gives_build (Pxd.build_reference_eq ht)

end Mention

/-! ### Declarations that stand for a node -/

/-- A graph has grown, and all that was numbered below `base` or from `low` on is as it was. -/
structure KeepsApart (base low : Nat) (g g' : Graph) : Prop where
  origin : g'.origin = g.origin
  size : g.entries.size ≤ g'.entries.size
  get? : ∀ id < g.entries.size, id < base ∨ low ≤ id → g'.get? id = g.get? id

/-- A graph has grown, and nothing has changed. -/
abbrev Grows : Graph → Graph → Prop := KeepsApart 0 0

namespace KeepsApart

variable {base low : Nat} {g g' g'' : Graph}

theorem refl (base low : Nat) (g : Graph) : KeepsApart base low g g :=
  ⟨rfl, Nat.le_refl _, fun _ _ _ => rfl⟩

theorem trans (h : KeepsApart base low g g') (h' : KeepsApart base low g' g'') :
    KeepsApart base low g g'' :=
  ⟨h'.origin.trans h.origin, Nat.le_trans h.size h'.size, fun id hid hApart =>
    (h'.get? id (Nat.lt_of_lt_of_le hid h.size) hApart).trans (h.get? id hid hApart)⟩

theorem mono {base' : Nat} (h : KeepsApart base low g g') (hBase : base' ≤ base)
    (hLow : low ≤ low') : KeepsApart base' low' g g' :=
  ⟨h.origin, h.size, fun id hid hApart => h.get? id hid
    (hApart.imp (Nat.lt_of_lt_of_le · hBase) (Nat.le_trans hLow))⟩

theorem ofGrows (h : Grows g g') (base low : Nat) : KeepsApart base low g g' :=
  ⟨h.origin, h.size, fun id hid _ => h.get? id hid (.inr (Nat.zero_le _))⟩

theorem grows (h : KeepsApart base low g g') (hBase : g.entries.size ≤ base) : Grows g g' :=
  ⟨h.origin, h.size, fun id hid _ => h.get? id hid (.inl (Nat.lt_of_lt_of_le hid hBase))⟩

theorem add (g : Graph) (e : Entry) : Grows g (g.add e).2 :=
  ⟨rfl, by simp, fun _ hid _ => Graph.get?_add_of_lt g e hid⟩

theorem setField (g : Graph) {id : Nat} (hBase : base ≤ id) (hLow : id < low) (name : String)
    (v : Value) : KeepsApart base low g (g.setField id name v) := by
  refine ⟨rfl, by simp, fun id' _ hApart => ?_⟩
  rw [Graph.get?_setField, if_neg]
  rintro rfl
  omega

theorem get?_eq (h : KeepsApart base low g g') (he : g.get? id = some e)
    (hid : id < base ∨ low ≤ id) : g'.get? id = some e :=
  (h.get? id (g.lt_size_of_get? he) hid).trans he

end KeepsApart

/-- A value is mentioned by a node in as many steps as `height` or more, and will be as long as the
declarations apart stay as they are. It takes no name from a typedef. -/
structure StandsFor (g : Graph) (base low height : Nat) (u node : Value) : Prop where
  isLink : ∃ id, u = .link id
  isType : node.isOf .ctype = true
  mention : ∀ s : Session, KeepsApart base low g s.graph → ∀ n, height ≤ n →
    Gives (Decl.mention n u) s node s
  isNamed : ∀ g', KeepsApart base low g g' → ∃ name, g'.field? u "name" = some name ∧
    (name.isTrue = true ∨ g'.field? u "typedef_name" = none)

/-- Unnamed arguments, each of a type that stands for a node. -/
inductive ArgumentsStand (g : Graph) (base low height : Nat) : List Value → List Value → Prop where
  | nil : ArgumentsStand g base low height [] []
  | cons {id k : Nat} {u node : Value} {us nodes : List Value} : low ≤ id →
    g.get? id = some (argumentEntry "" u) → k < height → StandsFor g base low k u node →
    ArgumentsStand g base low height us nodes →
    ArgumentsStand g base low height (.link id :: us) (Pxd.cNameValue node "" :: nodes)

section Stand

variable {base low height : Nat} {g g' : Graph} {u node : Value} {us nodes : List Value}

namespace StandsFor

theorem keeps (h : StandsFor g base low height u node) (hk : KeepsApart base low g g') :
    StandsFor g' base low height u node :=
  ⟨h.isLink, h.isType, fun s hs => h.mention s (hk.trans hs), fun g'' hg'' =>
    h.isNamed g'' (hk.trans hg'')⟩

theorem lower (h : StandsFor g base low height u node) (hle : low' ≤ low) :
    StandsFor g base low' height u node :=
  ⟨h.isLink, h.isType, fun s hs => h.mention s (hs.mono (Nat.le_refl _) hle), fun g'' hg'' =>
    h.isNamed g'' (hg''.mono (Nat.le_refl _) hle)⟩

theorem higher {height' : Nat} (h : StandsFor g base low height u node) (hle : height ≤ height') :
    StandsFor g base low height' u node :=
  ⟨h.isLink, h.isType, fun s hs n hn => h.mention s hs n (Nat.le_trans hle hn), h.isNamed⟩

/-- A declaration without a name and without a typedef. -/
theorem isNamed_of_get? (hid : low ≤ id) (he : g.get? id = some e)
    (hName : e.get? "name" = some (.text "")) (hNone : e.get? "typedef_name" = none) (g' : Graph)
    (hk : KeepsApart base low g g') : ∃ name, g'.field? (.link id) "name" = some name ∧
      (name.isTrue = true ∨ g'.field? (.link id) "typedef_name" = none) := by
  have he' := hk.get?_eq he (.inr hid)
  exact ⟨.text "", (Graph.field?_of_get? _ he' _).trans hName,
    .inr ((Graph.field?_of_get? _ he' _).trans hNone)⟩

/-- A declaration that has been read before the type. -/
theorem declared {id : Nat} {name : String} {form : Form} (ho : g.origin = .unit) (hid : id < base)
    (hForm : g.form? (.link id) = some form) (hDeclared : isDeclared form = true)
    (hName : g.field? (.link id) "name" = some (.text name)) (hNamed : name.isEmpty = false) :
    StandsFor g base low 1 (.link id) (namedValue name false false) := by
  have hTrue : (Value.text name).isTrue = true := by simp [Value.isTrue, hNamed]
  have hStay : ∀ {g'}, KeepsApart base low g g' → g'.get? id = g.get? id := fun hk =>
    hk.get? id (Graph.lt_size_of_form? g hForm) (.inl hid)
  refine ⟨⟨id, rfl⟩, rfl, fun s hs n hn => ?_, fun g' hg' => ⟨.text name, ?_, .inl hTrue⟩⟩
  · obtain ⟨n, rfl⟩ : ∃ m, n = m + 1 := ⟨n - 1, by omega⟩
    have hForm' : s.graph.form? (.link id) = some form := by
      simpa only [Graph.form?, hStay hs] using hForm
    have hName' : s.graph.field? (.link id) "name" = some (.text name) := by
      simpa only [Graph.field?, hStay hs] using hName
    have ho' : s.graph.origin = .unit := hs.origin.trans ho
    by_cases hTagged : isTagged form = true
    · exact gives_mention_tagged ho' hForm' hTagged hName' hNamed
    · obtain rfl : form = .cppClass := by cases form <;> simp_all [isDeclared, isTagged]
      exact gives_mention_class ho' hForm' hName'
  · simpa only [Graph.field?, hStay hg'] using hName

theorem plain {id inner : Nat} {name : String} {c v : Bool} (ho : g.origin = .unit)
    (hid : low ≤ id) (hInner : low ≤ inner)
    (he : g.get? id = some (qualifiedEntry (.link inner) c v))
    (hi : g.get? inner = some (fundamentalEntry name)) :
    StandsFor g base low 2 (.link id) (namedValue name c v) := by
  refine ⟨⟨id, rfl⟩, rfl, fun s hs n hn => ?_, isNamed_of_get? hid he rfl rfl⟩
  obtain ⟨n, rfl⟩ : ∃ m, n = m + 2 := ⟨n - 2, by omega⟩
  exact gives_mention_qualified (hs.origin.trans ho) (hs.get?_eq he (.inr hid)) (by simp)
    (gives_mention_fundamental (hs.get?_eq hi (.inr hInner)))

theorem pointer {id inner : Nat} {c v : Bool} (h : StandsFor g base low height u node)
    (ho : g.origin = .unit) (hid : low ≤ id) (hInner : low ≤ inner)
    (he : g.get? id = some (qualifiedEntry (.link inner) c v))
    (hi : g.get? inner = some (pointerEntry u)) :
    StandsFor g base low (height + 2) (.link id)
      (.node .pointer [("value", node), ("const", .flag c), ("volatile", .flag v)]) := by
  refine ⟨⟨id, rfl⟩, rfl, fun s hs n hn => ?_, isNamed_of_get? hid he rfl rfl⟩
  obtain ⟨n, rfl⟩ : ∃ m, n = m + 2 := ⟨n - 2, by omega⟩
  have hTarget := h.mention s hs n (by omega)
  exact gives_mention_qualified (hs.origin.trans ho) (hs.get?_eq he (.inr hid)) (by simp)
    (gives_mention_pointer (hs.get?_eq hi (.inr hInner)) hTarget h.isType)

theorem reference {id : Nat} (h : StandsFor g base low height u node) (ho : g.origin = .unit)
    (hid : low ≤ id) (he : g.get? id = some (referenceEntry u)) :
    StandsFor g base low (height + 1) (.link id) (.node .reference [("value", node)]) := by
  refine ⟨⟨id, rfl⟩, rfl, fun s hs n hn => ?_, isNamed_of_get? hid he rfl rfl⟩
  obtain ⟨n, rfl⟩ : ∃ m, n = m + 1 := ⟨n - 1, by omega⟩
  exact gives_mention_reference (hs.origin.trans ho) (hs.get?_eq he (.inr hid))
    (h.mention s hs n (by omega)) h.isType

theorem array {id : Nat} {count : Int} (h : StandsFor g base low height u node) (hid : low ≤ id)
    (he : g.get? id = some (arrayEntry u count)) :
    StandsFor g base low (height + 1) (.link id)
      (.node .array [("value", node), ("dim", .int count)]) := by
  refine ⟨⟨id, rfl⟩, rfl, fun s hs n hn => ?_, isNamed_of_get? hid he rfl rfl⟩
  obtain ⟨n, rfl⟩ : ∃ m, n = m + 1 := ⟨n - 1, by omega⟩
  exact gives_mention_array (hs.get?_eq he (.inr hid)) (h.mention s hs n (by omega)) h.isType

end StandsFor

namespace ArgumentsStand

theorem isOf (h : ArgumentsStand g base low height us nodes) :
    ∀ v ∈ nodes, v.isOf .expr = true := by
  induction h with
  | nil => simp
  | cons _ _ _ _ _ ih => exact List.forall_mem_cons.2 ⟨rfl, ih⟩

theorem gives_mention (h : ArgumentsStand g base low height us nodes) {s : Session}
    (hs : KeepsApart base low g s.graph) (hn : height ≤ n) :
    Gives (us.mapM fun arg => do
      if Origin.unit == .unit then adoptTypedefName arg
      mention n arg) s nodes s := by
  induction h with
  | nil => exact gives_mapM_nil.2 ⟨rfl, rfl⟩
  | @cons id k u node us nodes hid he hk hu _ ih =>
    obtain ⟨n, rfl⟩ : ∃ m, n = m + 1 := ⟨n - 1, by omega⟩
    have he' := hs.get?_eq he (.inr hid)
    obtain ⟨name, hName, hOr⟩ := hu.isNamed _ hs
    refine gives_mapM_cons.2 ⟨_, s, _, ?_, ih, rfl⟩
    exact Gives.bind (gives_adoptTypedefName he' hName hOr)
      (gives_mention_argument he' (hu.mention s hs n (by omega)) hu.isType)

end ArgumentsStand

theorem StandsFor.function {id low' : Nat} (h : StandsFor g base low height u node)
    (ho : g.origin = .unit) (hid : low ≤ id) (hLow : low ≤ low')
    (he : g.get? id = some (functionTypeEntry u us))
    (hArgs : ArgumentsStand g base low' height us nodes) :
    StandsFor g base low (height + 1) (.link id)
      (.node .cFunctionType [("args", Pxd.argumentsValue nodes), ("returns", node)]) := by
  refine ⟨⟨id, rfl⟩, rfl, fun s hs n hn => ?_, isNamed_of_get? hid he rfl rfl⟩
  obtain ⟨n, rfl⟩ : ∃ m, n = m + 1 := ⟨n - 1, by omega⟩
  have hMention := hArgs.gives_mention (hs.mono (Nat.le_refl _) hLow) (n := n) (by omega)
  exact gives_mention_function (hs.origin.trans ho) (hs.get?_eq he (.inr hid)) hMention hArgs.isOf
    (h.mention s hs n (by omega)) h.isType

end Stand

end PxdGen.Index
