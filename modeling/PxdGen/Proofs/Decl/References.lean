import PxdGen.Proofs.Decl.Drafted
/-! # Names of types where they are referred to

A struct, a union or an enumeration without a name may have the name of a typedef. A struct is then
referred to by that name wherever it is mentioned. A union or an enumeration is so only once it has
taken the name over, which it does when it is the type of an argument of a function type.
-/

namespace PxdGen.Decl

open Work
open Pxd (Kind fieldOf single)

/-! ### Names in C types -/

/-- The fields in which a pxd node has C types. -/
def typedFields : List String := ["value", "ctype", "args", "returns"]

def nameOfType (fields : List (String × Value)) : Value :=
  match fieldOf fields "name" with
  | .node .name named => fieldOf named "id"
  | v => v

mutual

/-- The names of the types in a value, in the order in which they stand there. -/
def typeNames : Value → List Value
  | .node kind fields => if kind = .typeName then [nameOfType fields] else typeNamesIn fields
  | .list vs => typeNamesAll vs
  | _ => []

def typeNamesAll : List Value → List Value
  | [] => []
  | v :: vs => typeNames v ++ typeNamesAll vs

def typeNamesIn : List (String × Value) → List Value
  | [] => []
  | (name, v) :: fields => (if name ∈ typedFields then typeNames v else []) ++ typeNamesIn fields

end

variable {name : String}

theorem typeNamesIn_putField (h : name ∉ typedFields) (v : Value) (fields : List (String × Value)) :
    typeNamesIn (Value.putField name v fields) = typeNamesIn fields := by
  induction fields with
  | nil => simp [Value.putField, typeNamesIn, h]
  | cons f fields ih =>
    obtain ⟨name', v'⟩ := f
    unfold Value.putField
    split
    · rename_i hName
      obtain rfl : name' = name := by simpa using hName
      simp [typeNamesIn, h]
    · simp [typeNamesIn, ih]

theorem typeNames_putField (h : name ∉ typedFields) (hn : "name" ≠ name) (kind : Kind) (v : Value)
    (fields : List (String × Value)) :
    typeNames (.node kind (Value.putField name v fields)) = typeNames (.node kind fields) := by
  rw [typeNames, typeNames, typeNamesIn_putField h, nameOfType, fieldOf_putField hn, nameOfType]

/-! ### Events -/

/-- What happens to a declaration while types are mentioned: it takes over the name of its typedef,
if it has none of its own, or it is referred to. -/
inductive Event where
  | adopt (id : Nat)
  | refer (id : Nat)
deriving DecidableEq

/-- The declarations that have taken over the names of their typedefs, the last first. -/
def adoptees : List Nat → List Event → List Nat
  | adopted, [] => adopted
  | adopted, .adopt id :: events => adoptees (id :: adopted) events
  | adopted, .refer _ :: events => adoptees adopted events

/-- What a declaration is called that may go by its typedef if its own name is empty. -/
def Graph.calledAs (g : Graph) (id : Nat) (own : Value) (byTypedef : Bool) : Value :=
  if !own.isTrue && byTypedef then (g.field? (.link id) "typedef_name").getD own else own

/-- The name of a declaration when some have taken over the names of their typedefs. -/
def Graph.nameAfter (g : Graph) (adopted : List Nat) (id : Nat) : Option Value :=
  (g.field? (.link id) "name").map fun own => g.calledAs id own (adopted.contains id)

/-- The name by which a declaration is referred to: a struct goes by its typedef anyway. -/
def Graph.referredName (g : Graph) (adopted : List Nat) (id : Nat) : Value :=
  let adopted := if g.hasForm (.link id) .struct then id :: adopted else adopted
  (g.nameAfter adopted id).getD .nothing

def Graph.referredNames (g : Graph) : List Nat → List Event → List Value
  | _, [] => []
  | adopted, .adopt id :: events => g.referredNames (id :: adopted) events
  | adopted, .refer id :: events => g.referredName adopted id :: g.referredNames adopted events

theorem adoptees_append (adopted : List Nat) (es fs : List Event) :
    adoptees adopted (es ++ fs) = adoptees (adoptees adopted es) fs := by
  induction es generalizing adopted with
  | nil => rfl
  | cons e es ih => cases e <;> exact ih _

theorem Graph.referredNames_append (g : Graph) (adopted : List Nat) (es fs : List Event) :
    g.referredNames adopted (es ++ fs) =
      g.referredNames adopted es ++ g.referredNames (adoptees adopted es) fs := by
  induction es generalizing adopted with
  | nil => rfl
  | cons e es ih =>
    cases e with
    | adopt id => exact ih _
    | refer id => exact congrArg _ (ih _)

/-- The argument of a function type makes its type take over the name of the typedef. -/
def Graph.adoptions (g : Graph) (arg : Value) : List Event :=
  match g.field? arg "typ" with
  | some (.link id) => [.adopt id]
  | _ => []

/-- What happens while a declaration of a unit is mentioned, in this order. -/
def Graph.events (g : Graph) : Nat → Value → List Event
  | 0, _ => []
  | n + 1, v =>
    let next := fun name => ((g.field? v name).map (g.events n)).getD []
    let args := ((g.field? v "arguments").bind Value.items?).getD []
    match g.form? v, v with
    | some .struct, .link id | some .union, .link id | some .enumeration, .link id => [.refer id]
    | some .typedef, .link id | some .fundamentalType, .link id | some .cppClass, .link id =>
      [.refer id]
    | some .field, _ | some .argument, _ | some .pointerType, _ | some .arrayType, _ => next "typ"
    | some .cvQualifiedType, _ | some .refType, _ => next "typ"
    | some .functionType, _ =>
      (args.flatMap fun arg => g.adoptions arg ++ g.events n arg) ++ next "returns"
    | some .function, _ => args.flatMap (g.events n) ++ next "returns"
    | _, _ => []

/-! ### Work on types -/

/-- The graph `h` is `g` after the declarations `adopted` have taken over the names of their
typedefs. -/
structure Adopted (g : Graph) (adopted : List Nat) (h : Graph) : Prop where
  keeps : g.KeepsAllButNames h
  name : ∀ id, h.field? (.link id) "name" = g.nameAfter adopted id

theorem Adopted.refl (g : Graph) : Adopted g [] g where
  keeps := .refl g
  name := fun id => by cases h : g.field? (.link id) "name" <;>
    simp [Graph.nameAfter, Graph.calledAs, h]

variable {α β : Type}

/-- Whatever has been taken over, the work changes nothing and what it gives has the property. -/
def Silent (g : Graph) (x : Work α) (P : α → Prop) : Prop :=
  ∀ adopted s a s', Adopted g adopted s.graph → Gives x s a s' → s'.graph = s.graph ∧ P a

/-- The events happen during the work, and what it gives goes with the names that are referred
to. -/
def Speaks (g : Graph) (x : Work α) (events : List Event) (P : α → List Value → Prop) : Prop :=
  ∀ adopted s a s', Adopted g adopted s.graph → Gives x s a s' →
    Adopted g (adoptees adopted events) s'.graph ∧ P a (g.referredNames adopted events)

section Rules

variable {g : Graph} {x : Work α} {f : α → Work β} {es fs : List Event}

theorem Silent.of_gives {P : α → Prop}
    (h : ∀ s a s', g.KeepsAllButNames s.graph → Gives x s a s' → s' = s ∧ P a) : Silent g x P := by
  intro adopted s a s' hs hGives
  obtain ⟨rfl, ha⟩ := h s a s' hs.keeps hGives
  exact ⟨rfl, ha⟩

theorem Silent.pure {P : α → Prop} {a : α} (h : P a) : Silent g (Pure.pure a) P := by
  refine .of_gives fun s b s' _ hGives => ?_
  obtain ⟨rfl, rfl⟩ := gives_pure.1 hGives
  exact ⟨rfl, h⟩

theorem Silent.throw {P : α → Prop} (e : Fault) : Silent g (MonadExcept.throw e) P :=
  fun _ _ _ _ _ hGives => absurd hGives gives_throw

theorem Silent.mono {P Q : α → Prop} (hx : Silent g x P) (h : ∀ a, P a → Q a) : Silent g x Q := by
  intro adopted s a s' hs hGives
  obtain ⟨hGraph, ha⟩ := hx adopted s a s' hs hGives
  exact ⟨hGraph, h a ha⟩

theorem Silent.bind {P : α → Prop} {Q : β → Prop} (hx : Silent g x P)
    (hf : ∀ a, P a → Silent g (f a) Q) : Silent g (x >>= f) Q := by
  intro adopted s b s' hs hGives
  obtain ⟨a, t, hx', hf'⟩ := gives_bind.1 hGives
  obtain ⟨hGraph, ha⟩ := hx adopted s a t hs hx'
  obtain ⟨hGraph', hb⟩ := hf a ha adopted t b s' (hGraph ▸ hs) hf'
  exact ⟨hGraph'.trans hGraph, hb⟩

theorem Silent.speaks {P : α → Prop} {Q : β → List Value → Prop} (hx : Silent g x P)
    (hf : ∀ a, P a → Speaks g (f a) fs Q) : Speaks g (x >>= f) fs Q := by
  intro adopted s b s' hs hGives
  obtain ⟨a, t, hx', hf'⟩ := gives_bind.1 hGives
  obtain ⟨hGraph, ha⟩ := hx adopted s a t hs hx'
  exact hf a ha adopted t b s' (hGraph ▸ hs) hf'

theorem Speaks.of_silent {P : α → List Value → Prop} (hx : Silent g x (P · [])) :
    Speaks g x [] P := by
  intro adopted s a s' hs hGives
  obtain ⟨hGraph, ha⟩ := hx adopted s a s' hs hGives
  exact ⟨hGraph ▸ hs, ha⟩

theorem Speaks.bind {P : α → List Value → Prop} {Q : β → List Value → Prop} (hx : Speaks g x es P)
    (hf : ∀ a l, P a l → Speaks g (f a) fs fun b m => Q b (l ++ m)) :
    Speaks g (x >>= f) (es ++ fs) Q := by
  intro adopted s b s' hs hGives
  obtain ⟨a, t, hx', hf'⟩ := gives_bind.1 hGives
  obtain ⟨ht, ha⟩ := hx adopted s a t hs hx'
  rw [adoptees_append, g.referredNames_append]
  exact hf a _ ha _ t b s' ht hf'

theorem Speaks.silent {P : α → List Value → Prop} {Q : β → List Value → Prop} (hx : Speaks g x es P)
    (hf : ∀ a l, P a l → Silent g (f a) (Q · l)) : Speaks g (x >>= f) es Q := by
  have hBoth : Speaks g (x >>= f) (es ++ []) Q := hx.bind fun a l ha =>
    .of_silent ((hf a l ha).mono fun b hb => by rwa [List.append_nil])
  rwa [List.append_nil] at hBoth

theorem Speaks.mapM {f : α → Work Value} {e : α → List Event}
    (as : List α) (h : ∀ a ∈ as, Speaks g (f a) (e a) fun b l => typeNames b = l) :
    Speaks g (as.mapM f) (as.flatMap e) fun bs l => typeNamesAll bs = l := by
  induction as with
  | nil =>
    rw [List.mapM_nil]
    exact .of_silent (.pure rfl)
  | cons a as ih =>
    rw [List.mapM_cons, List.flatMap_cons]
    refine (h a (by simp)).bind fun b l hb => ?_
    refine (ih fun c hc => h c (by simp [hc])).silent fun bs m hbs => .pure ?_
    rw [typeNamesAll, hb, hbs]

theorem silent_field (v : Value) (name : String) : Silent g (field v name) fun w =>
    name ≠ "name" → g.field? v name = some w := by
  refine .of_gives fun s w s' hs hGives => ?_
  obtain ⟨hField, rfl⟩ := gives_field_iff.1 hGives
  exact ⟨rfl, fun hName => (hs.fields v name hName).symm.trans hField⟩

theorem silent_items (v : Value) : Silent g (items v) fun vs => v.items? = some vs := by
  unfold items
  split
  · rename_i vs hvs
    exact .pure hvs
  · exact .throw _

theorem silent_origin : Silent g origin (· = g.origin) := by
  refine .of_gives fun s o s' hs hGives => ?_
  obtain ⟨rfl, rfl⟩ := gives_origin.unique hGives
  exact ⟨rfl, hs.origin⟩

theorem silent_get : Silent g get fun s => ∀ v, s.graph.form? v = g.form? v := by
  refine .of_gives fun s t s' hs hGives => ?_
  obtain ⟨rfl, rfl⟩ := gives_get.1 hGives
  exact ⟨rfl, hs.forms⟩

theorem silent_build (kind : Kind) (args : List Value) (fields : List (String × Value))
    (hBind : kind.signature.bind? args = some fields) (hFields : fields ≠ []) :
    Silent g (build kind args) (· = .node kind fields) := by
  intro adopted s w s' hs hGives
  refine ⟨?_, brings_build kind args fields hBind hFields s w s' hGives⟩
  unfold build at hGives
  rw [build_eq_ok_of_gives hGives] at hGives
  exact congrArg _ (gives_pure.1 hGives).2

theorem silent_namedType (name : Value) :
    Silent g (namedType name) fun w => typeNames w = [name] := by
  refine (silent_build .name [name, single .param] [("id", name), ("ctx", single .param)] rfl
    (by simp)).bind ?_
  rintro _ rfl
  refine (silent_build .typeName _ [("name", _), ("const", .flag false), ("volatile", .flag false)]
    rfl (by simp)).mono fun w hw => ?_
  rw [hw, typeNames, if_pos rfl]
  rfl

theorem silent_built (kind : Kind) (args : List Value) (fields : List (String × Value))
    {l : List Value} (hBind : kind.signature.bind? args = some fields) (hFields : fields ≠ [])
    (hNames : typeNames (.node kind fields) = l) :
        Silent g (build kind args) fun w => typeNames w = l :=
  (silent_build kind args fields hBind hFields).mono fun _ hw => hw ▸ hNames

theorem silent_qualify (type constant volatile : Value) :
    Silent g (qualify type constant volatile) fun w => typeNames w = typeNames type := by
  unfold qualify
  split
  · refine .pure ?_
    rw [typeNames_putField (by decide) (by decide), typeNames_putField (by decide) (by decide)]
  · exact .throw _

theorem silent_asInteger (v : Value) : Silent g (asInteger v) fun _ => True := by
  unfold asInteger
  split
  · exact .pure trivial
  · exact .pure trivial
  · split
    · exact .pure trivial
    · exact .throw _
  · exact .throw _

end Rules

/-! ### Taking over names -/

theorem Graph.nameAfter_cons_of_ne (g : Graph) {id other : Nat} (h : id ≠ other)
    (adopted : List Nat) : g.nameAfter (other :: adopted) id = g.nameAfter adopted id := by
  simp [nameAfter, calledAs, h]

theorem Graph.nameAfter_cons_self (g : Graph) (id : Nat) (adopted : List Nat) {name : Value}
    (h : g.nameAfter adopted id = some name) : g.nameAfter (id :: adopted) id =
      some (if name.isTrue then name else (g.field? (.link id) "typedef_name").getD name) := by
  obtain ⟨own, hOwn, hName⟩ := Option.map_eq_some_iff.1 h
  rw [nameAfter, hOwn, Option.map_some]
  unfold calledAs at hName ⊢
  cases hTrue : own.isTrue with
  | true =>
    obtain rfl : own = name := by simpa [hTrue] using hName
    simp [hTrue]
  | false =>
    cases hTypedef : g.field? (.link id) "typedef_name" with
    | none =>
      obtain rfl : own = name := by simpa [hTrue, hTypedef] using hName
      simp [hTrue]
    | some name' =>
      rw [hTrue, hTypedef] at hName
      by_cases hMem : id ∈ adopted
      · obtain rfl : name' = name := by simpa [hMem] using hName
        simp
      · obtain rfl : own = name := by simpa [hMem] using hName
        simp [hTrue]

theorem speaks_adoptTypedefName (g : Graph) (arg : Value) :
    Speaks g (adoptTypedefName arg) (g.adoptions arg) fun _ l => l = [] := by
  intro adopted s u s' hs hGives
  obtain ⟨type, _, hField, h₁⟩ := gives_bind.1 hGives
  obtain ⟨hType, rfl⟩ := gives_field_iff.1 hField
  obtain ⟨name, _, hField, h₂⟩ := gives_bind.1 h₁
  obtain ⟨hName, rfl⟩ := gives_field_iff.1 hField
  obtain ⟨id, rfl⟩ : ∃ id, type = .link id := by
    cases type with
    | link id => exact ⟨id, rfl⟩
    | _ => cases hName
  have hAdoptions : g.adoptions arg = [.adopt id] := by
    rw [Graph.adoptions, ← hs.keeps.fields arg "typ" (by decide), hType]
  rw [hAdoptions]
  refine ⟨?_, rfl⟩
  have hAfter := g.nameAfter_cons_self id adopted ((hs.name id).symm.trans hName)
  have hSize := Graph.lt_size_of_field? _ hName
  show Adopted g (id :: adopted) s'.graph
  -- the name of the declaration is the one it should have, and the others stay
  have hDone : ∀ h : Graph, g.KeepsAllButNames h →
      (∀ other, other ≠ id → h.field? (.link other) "name" = s.graph.field? (.link other) "name") →
      h.field? (.link id) "name" = g.nameAfter (id :: adopted) id →
          Adopted g (id :: adopted) h := by
    intro h hKeeps hOther hSelf
    refine ⟨hKeeps, fun other => ?_⟩
    by_cases hne : other = id
    · rw [hne, hSelf]
    · rw [hOther other hne, hs.name, g.nameAfter_cons_of_ne hne]
  cases hTrue : name.isTrue with
  | true =>
    rw [hTrue] at h₂
    obtain ⟨-, rfl⟩ := gives_pure.1 h₂
    exact hDone _ hs.keeps (fun _ _ => rfl) (by rw [hName, hAfter, if_pos hTrue])
  | false =>
    rw [hTrue] at h₂
    have h₃ := gives_after gives_field? h₂
    rw [hs.keeps.fields _ _ (by decide)] at h₃
    rw [if_neg (by simp [hTrue])] at hAfter
    cases hTypedef' : g.field? (.link id) "typedef_name" with
    | none =>
      rw [hTypedef'] at h₃ hAfter
      obtain ⟨-, rfl⟩ := gives_pure.1 h₃
      exact hDone _ hs.keeps (fun _ _ => rfl) (hName.trans hAfter.symm)
    | some name' =>
      rw [hTypedef'] at h₃ hAfter
      obtain ⟨-, rfl⟩ := (gives_setField id "name" name').unique h₃
      refine hDone _ (hs.keeps.setName id name') (fun other hne => ?_) ?_
      · rw [Graph.field?_setField _ hSize, if_neg fun hBoth => hne hBoth.1]
      · rw [Graph.field?_setField _ hSize, if_pos ⟨rfl, rfl⟩, hAfter]
        rfl

/-! ### Mentions -/

theorem speaks_namedType (g : Graph) {id : Nat} (hForm : g.hasForm (.link id) .struct = false) :
    Speaks g (do namedType (← field (.link id) "name")) [.refer id] fun w l => typeNames w = l := by
  intro adopted s w s' hs hGives
  obtain ⟨name, _, hField, h⟩ := gives_bind.1 hGives
  obtain ⟨hName, rfl⟩ := gives_field_iff.1 hField
  obtain ⟨hGraph, hw⟩ := silent_namedType name adopted s w s' hs h
  refine ⟨hGraph ▸ hs, hw.trans ?_⟩
  rw [Graph.referredNames, Graph.referredName, hForm]
  simp only [Bool.false_eq_true, if_false, ← hs.name, hName]
  rfl

/-- A struct is referred to by its typedef, whether or not it has taken the name over. -/
theorem speaks_structName (g : Graph) (ho : g.origin = .unit) {id : Nat}
    (hForm : g.hasForm (.link id) .struct = true) :
    Speaks g (do namedType (← structName (.link id))) [.refer id] fun w l => typeNames w = l := by
  intro adopted s w s' hs hGives
  obtain ⟨name, t, hStruct, h⟩ := gives_bind.1 hGives
  obtain ⟨own, _, hField, h₁⟩ := gives_bind.1 hStruct
  obtain ⟨hOwn, rfl⟩ := gives_field_iff.1 hField
  have h₂ := gives_after gives_origin h₁
  rw [hs.keeps.origin, ho] at h₂
  have hAfter := g.nameAfter_cons_self id adopted ((hs.name id).symm.trans hOwn)
  have hName : t = s ∧ g.nameAfter (id :: adopted) id = some name := by
    rw [hAfter]
    dsimp only at h₂
    split at h₂
    · rename_i hTrue
      obtain ⟨rfl, rfl⟩ := gives_pure.1 h₂
      exact ⟨rfl, by rw [if_pos hTrue]⟩
    · rename_i hTrue
      have h₃ := gives_after gives_field? h₂
      obtain ⟨rfl, rfl⟩ := gives_pure.1 h₃
      exact ⟨rfl, by rw [if_neg hTrue, hs.keeps.fields _ _ (by decide)]⟩
  obtain ⟨rfl, hName⟩ := hName
  obtain ⟨hGraph, hw⟩ := silent_namedType name adopted _ w s' hs h
  refine ⟨hGraph ▸ hs, hw.trans ?_⟩
  rw [Graph.referredNames, Graph.referredName, hForm]
  simp only [if_true, hName]
  rfl

section Step

variable {g : Graph} {n : Nat} {sub : Value → Work Value}
  (hSub : ∀ v, Speaks g (sub v) (g.events n v) fun w l => typeNames w = l)

include hSub

theorem speaks_next {v : Value} (hName : name ≠ "name") {f : Value → Work Value}
    (hf : ∀ w, Silent g (f w) fun w' => typeNames w' = typeNames w) :
    Speaks g (do f (← sub (← field v name))) (((g.field? v name).map (g.events n)).getD [])
      fun w l => typeNames w = l := by
  refine (silent_field v name).speaks fun t ht => ?_
  rw [ht hName]
  exact (hSub t).silent fun w l hw => (hf w).mono fun w' hw' => hw'.trans hw

theorem speaks_mentionSignature {v : Value} {each : Value → Work Unit} {e : Value → List Event}
    (hEach : ∀ arg, Speaks g (each arg) (e arg) fun _ l => l = []) :
    Speaks g (mentionSignature sub v each)
      (((((g.field? v "arguments").bind Value.items?).getD []).flatMap fun arg => e arg ++
        g.events n arg) ++ ((g.field? v "returns").map (g.events n)).getD [])
      fun r l => typeNames r.1 ++ typeNames r.2 = l := by
  have hFieldItems : Silent g (fieldItems v "arguments") fun vs =>
      (g.field? v "arguments").bind Value.items? = some vs := by
    refine (silent_field v "arguments").bind fun t ht => (silent_items t).mono fun vs hvs => ?_
    rw [ht (by decide)]
    exact hvs
  refine hFieldItems.speaks fun args hArgs => ?_
  rw [hArgs]
  have hMentions : Speaks g (args.mapM fun arg => do each arg; sub arg)
      (args.flatMap fun arg => e arg ++ g.events n arg) fun bs l => typeNamesAll bs = l := by
    refine .mapM args fun arg _ => (hEach arg).bind fun _ l hl => ?_
    rw [hl]
    exact hSub arg
  refine hMentions.bind fun args' l hArgs' => ?_
  refine Silent.speaks (silent_build .arguments [.list args', .nothing, .nothing, .list []]
    [("args", .list args'), ("vararg", .nothing), ("kwarg", .nothing), ("defaults", .list [])] rfl
    (by simp)) ?_
  rintro _ rfl
  refine (silent_field v "returns").speaks fun t ht => ?_
  rw [ht (by decide)]
  refine (hSub t).silent fun returns m hm => .pure ?_
  rw [← hArgs', ← hm]
  simp [typeNames, typeNamesIn, typedFields]

theorem speaks_mentionFunction (v : Value) :
    Speaks g (mentionFunction sub v)
      (((((g.field? v "arguments").bind Value.items?).getD []).flatMap (g.events n)) ++
        ((g.field? v "returns").map (g.events n)).getD [])
      fun w l => typeNames w = l := by
  refine (silent_field v "name").speaks fun name _ => ?_
  have hSignature := speaks_mentionSignature hSub (v := v) (e := fun _ => []) fun arg =>
    .of_silent (.pure rfl : Silent g (Pure.pure ()) fun _ => ([] : List Value) = [])
  refine hSignature.silent fun r l hr => ?_
  refine silent_built .cFunctionDecl _
    [("name", name), ("args", r.1), ("returns", r.2), ("excepts", .nothing)] rfl (by simp) ?_
  rw [← hr]
  simp [typeNames, typeNamesIn, typedFields]

/-- **A step of a mention.** -/
theorem speaks_mentionStep (ho : g.origin = .unit) (v : Value) :
    Speaks g (mentionStep sub v) (g.events (n + 1) v) fun w l => typeNames w = l := by
  refine silent_origin.speaks ?_
  rintro _ rfl
  refine silent_get.speaks fun t ht => ?_
  rw [ht v, ho]
  cases hForm : g.form? v with
  | none =>
    simp only [Graph.events, hForm]
    exact .of_silent (.pure rfl)
  | some form =>
    obtain ⟨id, rfl⟩ : ∃ id, v = .link id := by
      cases v with
      | link id => exact ⟨id, rfl⟩
      | _ => cases hForm
    have hStruct : g.hasForm (.link id) .struct = (form == .struct) := by
      rw [Graph.hasForm, hForm]
      rfl
    cases form with
    | struct =>
      simp only [Graph.events, hForm]
      exact speaks_structName g ho hStruct
    | union | enumeration | typedef | fundamentalType | cppClass =>
      simp only [Graph.events, hForm]
      exact speaks_namedType g hStruct
    | field =>
      simp only [Graph.events, hForm]
      refine (silent_field _ "name").speaks fun name _ => speaks_next hSub (by decide) fun w => ?_
      refine (silent_build .cName [w, name] [("ctype", w), ("name", name)] rfl (by simp)).bind ?_
      rintro _ rfl
      exact silent_built .exprStmt _ [("value", _)] rfl (by simp)
        (by simp [typeNames, typeNamesIn, typedFields])
    | argument =>
      simp only [Graph.events, hForm]
      refine (silent_field _ "name").speaks fun name _ => speaks_next hSub (by decide) fun w => ?_
      exact silent_built .cName _ [("ctype", w), ("name", _)] rfl (by simp)
        (by simp [typeNames, typeNamesIn, typedFields])
    | pointerType =>
      simp only [Graph.events, hForm]
      refine speaks_next hSub (by decide) fun w => ?_
      exact silent_built .pointer _ [("value", w), ("const", .flag false),
        ("volatile", .flag false)] rfl (by simp) (by simp [typeNames, typeNamesIn, typedFields])
    | arrayType =>
      simp only [Graph.events, hForm]
      refine (silent_field _ "min").speaks fun _ _ => (silent_asInteger _).speaks fun first _ => ?_
      refine (silent_field _ "max").speaks fun _ _ => (silent_asInteger _).speaks fun last _ => ?_
      refine speaks_next hSub (by decide) fun w => ?_
      exact silent_built .array _ [("value", w), ("dim", _)] rfl (by simp)
        (by simp [typeNames, typeNamesIn, typedFields])
    | cvQualifiedType =>
      simp only [Graph.events, hForm]
      refine speaks_next hSub (by decide) fun w => ?_
      refine (silent_field _ "const").bind fun constant _ => (silent_field _ "volatile").bind
        fun volatile _ => ?_
      exact silent_qualify w constant volatile
    | refType =>
      simp only [Graph.events, hForm]
      refine speaks_next hSub (by decide) fun w => ?_
      exact silent_built .reference _ [("value", w)] rfl (by simp)
        (by simp [typeNames, typeNamesIn, typedFields])
    | functionType =>
      simp only [Graph.events, hForm]
      refine (speaks_mentionSignature hSub fun arg => speaks_adoptTypedefName g arg).silent fun r l
        hr => ?_
      refine silent_built .cFunctionType _ [("args", r.1), ("returns", r.2)] rfl (by simp) ?_
      rw [← hr]
      simp [typeNames, typeNamesIn, typedFields]
    | function =>
      simp only [Graph.events, hForm]
      exact speaks_mentionFunction hSub _
    | enumValue =>
      simp only [Graph.events, hForm]
      refine .of_silent ((silent_field _ "name").bind fun name _ => ?_)
      refine (silent_build .name [name, single .param] [("id", name), ("ctx", single .param)] rfl
        (by simp)).bind ?_
      rintro _ rfl
      exact silent_built .exprStmt _ [("value", _)] rfl (by simp)
        (by simp [typeNames, typeNamesIn, typedFields])
    | _ =>
      simp only [Graph.events, hForm]
      exact .of_silent (.pure rfl)

end Step

/-- **What is mentioned has the names that are referred to.** -/
theorem speaks_mention (g : Graph) (ho : g.origin = .unit) (n : Nat) :
    ∀ v, Speaks g (mention n v) (g.events n v) fun w l => typeNames w = l := by
  induction n with
  | zero => exact fun v => .of_silent (.throw _)
  | succ n ih =>
    intro v
    refine (speaks_mentionStep ih ho v).silent fun w l hw => ?_
    split
    · refine silent_origin.bind ?_
      rintro _ rfl
      rw [ho]
      exact .pure hw
    · exact .pure hw

end PxdGen.Decl
