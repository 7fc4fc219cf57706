import PxdGen.Decl.Definition
import PxdGen.Proofs.Decl.Yields
import PxdGen.Proofs.Unit.Type
/-! # C types in a graph

A C type takes several linked declarations in a graph, which do not change any more once they have
been made. `Shows g low v type` says that the declarations at `v`, none of which is numbered below
`low`, make up a type. Where such a type is mentioned, its pxd node is what the mention gives.
-/

namespace PxdGen.Index

open Decl Decl.Work

variable {v type w : Value} {id n : Nat} {kind : Pxd.Kind} {args : List Value} {name : String}

/-! ### Declarations that make up types -/

def fundamentalEntry (name : String) : Entry :=
  ⟨.fundamentalType, [("location", .nothing), ("name", .text name)]⟩

def qualifiedEntry (typ : Value) (isConst isVolatile : Bool) : Entry :=
  ⟨.cvQualifiedType, [("location", .nothing), ("name", .text ""), ("typ", typ),
    ("const", .flag isConst), ("volatile", .flag isVolatile)]⟩

def pointerEntry (typ : Value) : Entry :=
  ⟨.pointerType, [("location", .nothing), ("name", .text ""), ("typ", typ), ("size", .nothing),
    ("align", .nothing)]⟩

def arrayEntry (typ : Value) (count : Int) : Entry :=
  ⟨.arrayType, [("location", .nothing), ("name", .text ""), ("typ", typ), ("min", .int 0),
    ("max", .int (count - 1))]⟩

def functionTypeEntry (returns : Value) (args : List Value) : Entry :=
  ⟨.functionType, [("location", .nothing), ("name", .text ""), ("returns", returns),
    ("attributes", .nothing), ("arguments", .list args)]⟩

def argumentEntry (name : String) (typ : Value) : Entry :=
  ⟨.argument, [("location", .nothing), ("name", .text name), ("typ", typ)]⟩

/-- Structs, unions and enumerations. -/
def isTagged : Form → Bool
  | .struct | .union | .enumeration => true
  | _ => false

mutual

/-- The declarations that a value links to make up a type. -/
inductive Shows (g : Graph) (low : Nat) : Value → UnitType → Prop where
  | plain {id base : Nat} {name : String} {c v : Bool} : low ≤ id → low ≤ base →
    g.get? id = some (qualifiedEntry (.link base) c v) →
    g.get? base = some (fundamentalEntry name) → Shows g low (.link id) (.plain name c v)
  | tagged {id declaration : Nat} {name : String} {form : Form} :
    g.form? (.link id) = some form → isTagged form = true →
    g.field? (.link id) "name" = some (.text name) →
    Shows g low (.link id) (.tagged declaration name)
  | pointer {id base : Nat} {w : Value} {target : UnitType} {c v : Bool} : low ≤ id → low ≤ base →
    g.get? id = some (qualifiedEntry (.link base) c v) → g.get? base = some (pointerEntry w) →
    Shows g low w target → Shows g low (.link id) (.pointer target c v)
  | array {id : Nat} {w : Value} {element : UnitType} {count : Int} : low ≤ id →
    g.get? id = some (arrayEntry w count) → Shows g low w element →
    Shows g low (.link id) (.array element count)
  | function {id : Nat} {w : Value} {vs : List Value} {result : UnitType} {args : UnitTypes} :
    low ≤ id → g.get? id = some (functionTypeEntry w vs) → Shows g low w result →
    ShowsAll g low vs args → Shows g low (.link id) (.function result args)

/-- Arguments without a name. -/
inductive ShowsAll (g : Graph) (low : Nat) : List Value → UnitTypes → Prop where
  | nil : ShowsAll g low [] .nil
  | cons {id : Nat} {w : Value} {vs : List Value} {type : UnitType} {types : UnitTypes} :
    low ≤ id → g.get? id = some (argumentEntry "" w) → Shows g low w type →
    ShowsAll g low vs types → ShowsAll g low (.link id :: vs) (.cons type types)

end

theorem Shows.isLink {g : Graph} {low : Nat} {type : UnitType}
    (h : Shows g low v type) : ∃ id, v = .link id := by
  cases h <;> exact ⟨_, rfl⟩

/-! ### Graphs that keep types -/

/-- Forms of declarations that do not change once they have been made. -/
def isSettled : Form → Bool
  | .fundamentalType | .cvQualifiedType | .pointerType | .arrayType | .functionType | .argument =>
    true
  | _ => false

/-- What reading leaves as it is: the form and the name of each declaration, and all its fields but
those that are `free`. No field goes away. A settled declaration without a free field stays as a
whole. -/
structure KeepsBut (free : Nat → String → Prop) (g g' : Graph) : Prop where
  origin : g'.origin = g.origin
  size : g.entries.size ≤ g'.entries.size
  settled : ∀ id e, g.get? id = some e → isSettled e.form = true → (∀ name, ¬ free id name) →
    g'.get? id = some e
  form : ∀ id < g.entries.size, g'.form? (.link id) = g.form? (.link id)
  name : ∀ id < g.entries.size, g'.field? (.link id) "name" = g.field? (.link id) "name"
  field : ∀ id < g.entries.size, ∀ name, ¬ free id name →
    g'.field? (.link id) name = g.field? (.link id) name
  has : ∀ id name, (g.field? (.link id) name).isSome → (g'.field? (.link id) name).isSome

/-- Nothing changes. -/
abbrev Keeps : Graph → Graph → Prop := KeepsBut fun _ _ => False

namespace KeepsBut

variable {free free' : Nat → String → Prop} {g g' g'' : Graph}

theorem refl (free : Nat → String → Prop) (g : Graph) : KeepsBut free g g where
  origin := rfl
  size := Nat.le_refl _
  settled _ _ h _ _ := h
  form _ _ := rfl
  name _ _ := rfl
  field _ _ _ _ := rfl
  has _ _ h := h

theorem trans (h : KeepsBut free g g') (h' : KeepsBut free' g' g'')
    (hFree : ∀ id < g.entries.size, ∀ name, free' id name → free id name) :
    KeepsBut free g g'' where
  origin := h'.origin.trans h.origin
  size := Nat.le_trans h.size h'.size
  settled id e he hSettled hid :=
    h'.settled id e (h.settled id e he hSettled hid) hSettled fun name hname =>
      hid name (hFree id (g.lt_size_of_get? he) name hname)
  form id hid := (h'.form id (Nat.lt_of_lt_of_le hid h.size)).trans (h.form id hid)
  name id hid := (h'.name id (Nat.lt_of_lt_of_le hid h.size)).trans (h.name id hid)
  field id hid name hname :=
    (h'.field id (Nat.lt_of_lt_of_le hid h.size) name fun hf => hname (hFree id hid name hf)).trans
      (h.field id hid name hname)
  has id name hf := h'.has id name (h.has id name hf)

theorem weaken (h : KeepsBut free g g') (hFree : ∀ id name, free id name → free' id name) :
    KeepsBut free' g g' :=
  { h with
    settled := fun id e he hs hid => h.settled id e he hs fun name hf => hid name (hFree _ _ hf)
    field := fun id hid name hf => h.field id hid name fun hf' => hf (hFree _ _ hf') }

theorem add (free : Nat → String → Prop) (g : Graph) (e : Entry) : KeepsBut free g (g.add e).2 := by
  have hGet : ∀ id < g.entries.size, (g.add e).2.get? id = g.get? id := fun id hid =>
    Graph.get?_add_of_lt g e hid
  have hField : ∀ id < g.entries.size, ∀ name,
      (g.add e).2.field? (.link id) name = g.field? (.link id) name := by
    intro id hid name
    simp only [Graph.field?, hGet id hid]
  refine ⟨rfl, by simp, ?_, ?_, fun id hid => hField id hid _, fun id hid name _ =>
    hField id hid name, ?_⟩
  · intro id e' he _ _
    rw [hGet id (g.lt_size_of_get? he)]
    exact he
  · intro id hid
    simp only [Graph.form?, hGet id hid]
  · intro id name hSome
    obtain ⟨v, hv⟩ := Option.isSome_iff_exists.1 hSome
    rw [hField id (g.lt_size_of_field? hv)]
    exact hSome

theorem setField {id : Nat} (hid : id < g.entries.size) {name : String} (v : Value)
    (hname : name ≠ "name") (hFree : free id name) : KeepsBut free g (g.setField id name v) := by
  refine ⟨rfl, by simp, ?_, by simp, ?_, ?_, ?_⟩
  · intro id' e he _ hid'
    rw [Graph.get?_setField, if_neg fun (h : id = id') => hid' name (h ▸ hFree)]
    exact he
  · intro id' _
    rw [Graph.field?_setField g hid, if_neg fun e => hname e.2.symm]
  · intro id' _ name' hname'
    rw [Graph.field?_setField g hid, if_neg]
    rintro ⟨rfl, rfl⟩
    exact hname' hFree
  · intro id' name' hSome
    rw [Graph.field?_setField g hid]
    split
    · rfl
    · exact hSome

end KeepsBut

/-- No settled declaration from a number on has a free field. -/
def IsSteady (free : Nat → String → Prop) (g : Graph) (low : Nat) : Prop :=
  ∀ id e, low ≤ id → g.get? id = some e → isSettled e.form = true → ∀ name, ¬ free id name

theorem isSteady_none (g : Graph) (low : Nat) : IsSteady (fun _ _ => False) g low :=
  fun _ _ _ _ _ _ => id

theorem KeepsBut.steady {free : Nat → String → Prop} {g g' : Graph} {low : Nat} {e : Entry}
    (h : KeepsBut free g g') (hs : IsSteady free g low) (hl : low ≤ id) (he : g.get? id = some e)
    (hSettled : isSettled e.form = true) : g'.get? id = some e :=
  h.settled id e he hSettled (hs id e hl he hSettled)

/-- The free field is one field of one declaration. -/
def Only (owner : Nat) (field : String) : Nat → String → Prop :=
  fun id name => id = owner ∧ name = field

theorem isSteady_only (owner : Nat) (field : String) (g : Graph) : IsSteady (Only owner field) g
    (owner + 1) := by
  rintro id e hid _ _ name ⟨rfl, _⟩
  omega

theorem Keeps.get? {g g' : Graph} (h : Keeps g g') {id : Nat} {e : Entry} (he : g.get? id = some e)
    (hSettled : isSettled e.form = true) : g'.get? id = some e :=
  h.settled id e he hSettled fun _ => False.elim

theorem Keeps.trans {g g' g'' : Graph} (h : Keeps g g') (h' : Keeps g' g'') : Keeps g g'' :=
  KeepsBut.trans h h' fun _ _ _ => id

section

variable {free : Nat → String → Prop} {g g' : Graph} {low : Nat}

mutual

theorem Shows.keeps {v : Value} {type : UnitType} (h : Shows g low v type)
    (hk : KeepsBut free g g') (hs : IsSteady free g low) : Shows g' low v type := by
  cases h with
  | plain l1 l2 h1 h2 =>
    exact .plain l1 l2 (hk.steady hs l1 h1 rfl) (hk.steady hs l2 h2 rfl)
  | tagged h1 h2 h3 =>
    have hid := Graph.lt_size_of_form? g h1
    exact .tagged ((hk.form _ hid).trans h1) h2 ((hk.name _ hid).trans h3)
  | pointer l1 l2 h1 h2 h3 =>
    exact .pointer l1 l2 (hk.steady hs l1 h1 rfl) (hk.steady hs l2 h2 rfl) (h3.keeps hk hs)
  | array l1 h1 h2 => exact .array l1 (hk.steady hs l1 h1 rfl) (h2.keeps hk hs)
  | function l1 h1 h2 h3 =>
    exact .function l1 (hk.steady hs l1 h1 rfl) (h2.keeps hk hs) (h3.keeps hk hs)

theorem ShowsAll.keeps {vs : List Value} {types : UnitTypes} (h : ShowsAll g low vs types)
    (hk : KeepsBut free g g') (hs : IsSteady free g low) : ShowsAll g' low vs types := by
  cases h with
  | nil => exact .nil
  | cons l1 h1 h2 h3 =>
    exact .cons l1 (hk.steady hs l1 h1 rfl) (h2.keeps hk hs) (h3.keeps hk hs)

end

theorem Shows.keepsAll {type : UnitType} (h : Shows g low v type)
    (hk : Keeps g g') : Shows g' low v type :=
  h.keeps hk (isSteady_none g low)

mutual

theorem Shows.mono {low' : Nat} (hle : low' ≤ low) {v : Value} {type : UnitType}
    (h : Shows g low v type) : Shows g low' v type := by
  cases h with
  | plain l1 l2 h1 h2 => exact .plain (Nat.le_trans hle l1) (Nat.le_trans hle l2) h1 h2
  | tagged h1 h2 h3 => exact .tagged h1 h2 h3
  | pointer l1 l2 h1 h2 h3 =>
    exact .pointer (Nat.le_trans hle l1) (Nat.le_trans hle l2) h1 h2 (h3.mono hle)
  | array l1 h1 h2 => exact .array (Nat.le_trans hle l1) h1 (h2.mono hle)
  | function l1 h1 h2 h3 => exact .function (Nat.le_trans hle l1) h1 (h2.mono hle) (h3.mono hle)

theorem ShowsAll.mono {low' : Nat} (hle : low' ≤ low) {vs : List Value} {types : UnitTypes}
    (h : ShowsAll g low vs types) : ShowsAll g low' vs types := by
  cases h with
  | nil => exact .nil
  | cons l1 h1 h2 h3 => exact .cons (Nat.le_trans hle l1) h1 (h2.mono hle) (h3.mono hle)

end

end

/-! ### Mentions -/

/-- The node of a type that is known by its name. -/
def namedValue (name : String) (isConst isVolatile : Bool) : Value :=
  .node .typeName [("name", .node .name [("id", .text name), ("ctx", Pxd.single .param)]),
    ("const", .flag isConst), ("volatile", .flag isVolatile)]

mutual

def UnitType.value : UnitType → Value
  | .plain name c v => namedValue name c v
  | .tagged _ name => namedValue name false false
  | .pointer t c v => .node .pointer [("value", t.value), ("const", .flag c), ("volatile", .flag v)]
  | .array t count => .node .array [("value", t.value), ("dim", .int count)]
  | .function result args =>
    .node .cFunctionType [("args", Pxd.argumentsValue args.values), ("returns", result.value)]

/-- The nodes of arguments without a name. -/
def UnitTypes.values : UnitTypes → List Value
  | .nil => []
  | .cons t rest => Pxd.cNameValue t.value "" :: rest.values

end

mutual

/-- Everything that the type is tagged by has a name. -/
def UnitType.isNamed : UnitType → Bool
  | .plain _ _ _ => true
  | .tagged _ name => !name.isEmpty
  | .pointer t _ _ | .array t _ => t.isNamed
  | .function result args => result.isNamed && args.areNamed

def UnitTypes.areNamed : UnitTypes → Bool
  | .nil => true
  | .cons t rest => t.isNamed && rest.areNamed

end

theorem UnitType.value_isOf (t : UnitType) : t.value.isOf .ctype = true := by
  cases t <;> rfl

theorem UnitTypes.values_isOf (ts : UnitTypes) : ∀ v ∈ ts.values, v.isOf .expr = true := by
  cases ts with
  | nil => simp [UnitTypes.values]
  | cons t rest =>
    rw [UnitTypes.values]
    exact List.forall_mem_cons.2 ⟨rfl, rest.values_isOf⟩

section Mention

variable {s : Session}

theorem gives_build (h : Pxd.build kind args = .ok v) : Gives (build kind args) s v s := by
  rw [build, h]
  exact .pure v s

theorem gives_namedType (name : String) :
    Gives (namedType (.text name)) s (namedValue name false false) s := rfl

theorem gives_mention {fields : List (String × Value)}
    (h : Gives (mentionStep (mention n) v) s (.node kind fields) s) :
    Gives (mention (n + 1) v) s (.node kind fields) s := Gives.bind h (.pure _ s)

theorem gives_adoptTypedefName {name : Value}
    (ha : s.graph.get? id = some (argumentEntry "" w)) (hName : s.graph.field? w "name" = some name)
    (hOr : name.isTrue = true ∨ s.graph.field? w "typedef_name" = none) :
    Gives (adoptTypedefName (.link id)) s () s := by
  have hTyp : s.graph.field? (.link id) "typ" = some w := Graph.field?_of_get? _ ha "typ"
  refine Gives.bind (gives_field hTyp) (Gives.bind (gives_field hName) ?_)
  rcases hOr with ht | hNone
  · simp only [ht]
    exact .pure _ s
  · cases ht : name.isTrue with
    | true => exact .pure _ s
    | false =>
      exact Gives.bind (hNone ▸ gives_field?) (.pure _ s)

theorem Shows.gives_adoptTypedefName {id low : Nat} {w : Value} {type : UnitType}
    (ha : s.graph.get? id = some (argumentEntry "" w)) (h : Shows s.graph low w type)
    (hNamed : type.isNamed = true) : Gives (adoptTypedefName (.link id)) s () s := by
  have ofEntry : ∀ {id' : Nat} {e : Entry}, w = .link id' → s.graph.get? id' = some e →
      e.get? "name" = some (.text "") → e.get? "typedef_name" = none →
      Gives (adoptTypedefName (.link id)) s () s := by
    rintro id' e rfl he hName hNone
    exact Index.gives_adoptTypedefName ha ((Graph.field?_of_get? _ he _).trans hName)
      (.inr ((Graph.field?_of_get? _ he _).trans hNone))
  cases h with
  | plain _ _ h1 | pointer _ _ h1 | array _ h1 | function _ h1 => exact ofEntry rfl h1 rfl rfl
  | tagged _ _ h3 =>
    exact Index.gives_adoptTypedefName ha h3
      (.inl (by simpa [UnitType.isNamed, Value.isTrue] using hNamed))

theorem gives_mention_argument
    (h : s.graph.get? id = some (argumentEntry name w)) (hw : Gives (mention n w) s type s)
    (ht : type.isOf .ctype = true) :
    Gives (mention (n + 1) (.link id)) s (Pxd.cNameValue type name) s := by
  refine gives_mention (Gives.bind gives_origin (Gives.get ?_))
  rw [Graph.form?_of_get? _ h]
  refine Gives.bind (gives_field (Graph.field?_of_get? _ h "name")) ?_
  refine Gives.bind (gives_field (Graph.field?_of_get? _ h "typ")) (Gives.bind hw ?_)
  exact gives_build (Pxd.build_cName_eq ht name)

/-- A struct, union or enumeration with a name is mentioned by it. -/
theorem gives_mention_tagged (ho : s.graph.origin = .unit)
    {form : Form} (hform : s.graph.form? (.link id) = some form) (ht : isTagged form = true)
    (hname : s.graph.field? (.link id) "name" = some (.text name)) (hne : name.isEmpty = false) :
    Gives (mention (n + 1) (.link id)) s (namedValue name false false) s := by
  refine gives_mention (Gives.bind gives_origin (Gives.get ?_))
  have hStruct : Gives (structName (.link id)) s (.text name) s := by
    refine Gives.bind (gives_field hname) (Gives.bind gives_origin ?_)
    have hTrue : (Value.text name).isTrue = true := by simp [Value.isTrue, hne]
    simp only [ho, hTrue, if_true]
    exact .pure _ s
  rw [hform]
  cases form with
  | struct => exact Gives.bind hStruct (gives_namedType name)
  | union | enumeration => exact Gives.bind (gives_field hname) (gives_namedType name)
  | _ => cases ht

theorem gives_mention_qualified (ho : s.graph.origin = .unit) {first : String × Value} {c v : Bool}
    (h : s.graph.get? id = some (qualifiedEntry w c v))
    (hf : first.1 ≠ "const" ∧ first.1 ≠ "volatile")
    (hw : Gives (mention n w) s
      (.node kind [first, ("const", .flag false), ("volatile", .flag false)]) s) :
    Gives (mention (n + 1) (.link id)) s
      (.node kind [first, ("const", .flag c), ("volatile", .flag v)]) s := by
  refine gives_mention (Gives.bind gives_origin (Gives.get ?_))
  rw [Graph.form?_of_get? _ h, ho]
  refine Gives.bind (gives_field (Graph.field?_of_get? _ h "typ")) (Gives.bind hw ?_)
  refine Gives.bind (gives_field (Graph.field?_of_get? _ h "const")) ?_
  refine Gives.bind (gives_field (Graph.field?_of_get? _ h "volatile")) ?_
  have hPut : Value.putField "volatile" (.flag v) (Value.putField "const" (.flag c)
      [first, ("const", .flag false), ("volatile", .flag false)]) =
      [first, ("const", .flag c), ("volatile", .flag v)] := by
    simp [Value.putField, hf.1, hf.2]
  rw [qualify, hPut]
  exact .pure _ s

/-- A builtin type or a typedef is mentioned by its name. -/
theorem gives_mention_fundamental (h : s.graph.get? id = some (fundamentalEntry name)) :
    Gives (mention (n + 1) (.link id)) s (namedValue name false false) s := by
  refine gives_mention (Gives.bind gives_origin (Gives.get ?_))
  rw [Graph.form?_of_get? _ h]
  exact Gives.bind (gives_field (Graph.field?_of_get? _ h "name")) (gives_namedType name)

theorem gives_mention_pointer
    (h : s.graph.get? id = some (pointerEntry w)) (hw : Gives (mention n w) s type s)
    (ht : type.isOf .ctype = true) : Gives (mention (n + 1) (.link id)) s
      (.node .pointer [("value", type), ("const", .flag false), ("volatile", .flag false)]) s := by
  refine gives_mention (Gives.bind gives_origin (Gives.get ?_))
  rw [Graph.form?_of_get? _ h]
  refine Gives.bind (gives_field (Graph.field?_of_get? _ h "typ")) (Gives.bind hw ?_)
  exact gives_build (Pxd.build_pointer_eq ht false)

theorem gives_mention_array {count : Int}
    (h : s.graph.get? id = some (arrayEntry w count)) (hw : Gives (mention n w) s type s)
    (ht : type.isOf .ctype = true) :
    Gives (mention (n + 1) (.link id)) s (.node .array [("value", type), ("dim", .int count)])
        s := by
  refine gives_mention (Gives.bind gives_origin (Gives.get ?_))
  rw [Graph.form?_of_get? _ h]
  refine Gives.bind (gives_field (Graph.field?_of_get? _ h "min")) (Gives.bind (.pure 0 s) ?_)
  refine Gives.bind (gives_field (Graph.field?_of_get? _ h "max")) ?_
  refine Gives.bind (.pure (count - 1) s) ?_
  refine Gives.bind (gives_field (Graph.field?_of_get? _ h "typ")) (Gives.bind hw ?_)
  rw [show count - 1 - 0 + 1 = count by omega]
  exact gives_build (Pxd.build_array_eq ht count)

theorem gives_mention_function (ho : s.graph.origin = .unit)
    {vs : List Value} (h : s.graph.get? id = some (functionTypeEntry w vs))
    (hArgs : Gives (vs.mapM fun arg => do
      if Origin.unit == .unit then adoptTypedefName arg
      mention n arg) s args s) (ha : ∀ v ∈ args, v.isOf .expr = true)
    (hw : Gives (mention n w) s type s) (ht : type.isOf .ctype = true) :
    Gives (mention (n + 1) (.link id)) s
      (.node .cFunctionType [("args", Pxd.argumentsValue args), ("returns", type)]) s := by
  refine gives_mention (Gives.bind gives_origin (Gives.get ?_))
  rw [Graph.form?_of_get? _ h, ho]
  refine Gives.bind (a := (Pxd.argumentsValue args, type)) ?_
    (gives_build (Pxd.build_cFunctionType_eq ht args))
  refine Gives.bind (gives_fieldItems (Graph.field?_of_get? _ h "arguments")) (Gives.bind hArgs ?_)
  refine Gives.bind (gives_build (Pxd.buildArguments_eq ha)) ?_
  exact Gives.bind (gives_field (Graph.field?_of_get? _ h "returns")) (Gives.bind hw (.pure _ s))

mutual

/-- **A type is mentioned by its node.** -/
theorem Shows.gives_mention (ho : s.graph.origin = .unit) {n low : Nat} {v : Value}
    {type : UnitType} (h : Shows s.graph low v type) (hNamed : type.isNamed = true)
    (hn : type.height ≤ n) : Gives (mention n v) s type.value s := by
  cases h with
  | @plain id base name c v _ _ h1 h2 =>
    obtain ⟨n, rfl⟩ : ∃ m, n = m + 2 := ⟨n - 2, by simp only [UnitType.height] at hn; omega⟩
    exact gives_mention_qualified ho h1 (by simp) (gives_mention_fundamental h2)
  | @tagged id declaration name form h1 h2 h3 =>
    obtain ⟨n, rfl⟩ : ∃ m, n = m + 1 := ⟨n - 1, by simp only [UnitType.height] at hn; omega⟩
    exact gives_mention_tagged ho h1 h2 h3 (by simpa [UnitType.isNamed] using hNamed)
  | @pointer id base w target c v _ _ h1 h2 h3 =>
    obtain ⟨n, rfl⟩ : ∃ m, n = m + 2 := ⟨n - 2, by simp only [UnitType.height] at hn; omega⟩
    have hw := h3.gives_mention ho (n := n) (by simpa [UnitType.isNamed] using hNamed)
      (by simp only [UnitType.height] at hn; omega)
    exact gives_mention_qualified ho h1 (by simp) (gives_mention_pointer h2 hw target.value_isOf)
  | @array id w element count _ h1 h2 =>
    obtain ⟨n, rfl⟩ : ∃ m, n = m + 1 := ⟨n - 1, by simp only [UnitType.height] at hn; omega⟩
    have hw := h2.gives_mention ho (n := n) (by simpa [UnitType.isNamed] using hNamed)
      (by simp only [UnitType.height] at hn; omega)
    exact gives_mention_array h1 hw element.value_isOf
  | @function id w vs result args _ h1 h2 h3 =>
    obtain ⟨n, rfl⟩ : ∃ m, n = m + 1 := ⟨n - 1, by simp only [UnitType.height] at hn; omega⟩
    simp only [UnitType.height] at hn
    have hBoth : result.isNamed = true ∧ args.areNamed = true := by
      simpa [UnitType.isNamed] using hNamed
    have hResult := h2.gives_mention ho (n := n) hBoth.1 (by omega)
    have hArgs := h3.gives_mention ho (n := n) hBoth.2 (by omega)
    exact gives_mention_function ho h1 hArgs args.values_isOf hResult result.value_isOf

theorem ShowsAll.gives_mention (ho : s.graph.origin = .unit) {n low : Nat} {vs : List Value}
    {types : UnitTypes} (h : ShowsAll s.graph low vs types) (hNamed : types.areNamed = true)
    (hn : types.height ≤ n) :
    Gives (vs.mapM fun arg => do
      if Origin.unit == .unit then adoptTypedefName arg
      mention n arg) s types.values s := by
  cases h with
  | nil => exact gives_mapM_nil.2 ⟨rfl, rfl⟩
  | @cons id w vs type types _ h1 h2 h3 =>
    simp only [UnitTypes.height] at hn
    have hBoth : type.isNamed = true ∧ types.areNamed = true := by
      simpa [UnitTypes.areNamed] using hNamed
    obtain ⟨n, rfl⟩ : ∃ m, n = m + 1 := ⟨n - 1, by omega⟩
    have hType := h2.gives_mention ho (n := n) hBoth.1 (by omega)
    have hRest := h3.gives_mention ho (n := n + 1) hBoth.2 (by omega)
    refine gives_mapM_cons.2 ⟨_, s, _, ?_, hRest, rfl⟩
    exact Gives.bind (h2.gives_adoptTypedefName h1 hBoth.1)
      (gives_mention_argument h1 hType type.value_isOf)

end

end Mention

end PxdGen.Index
