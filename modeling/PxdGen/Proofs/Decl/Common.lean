import PxdGen.Proofs.Decl.Fuel
import PxdGen.Proofs.Decl.Graph
import PxdGen.Proofs.Render.Bare
/-! # What dumps and units have in common

Dumps and units have rules of their own for how declarations are mentioned and defined. Where both
have the same declarations, and these are of forms that both know, their rules agree: they stop at
the same faults, and otherwise give modules that differ in nothing that a text tells.
-/

namespace PxdGen

open Pxd Value

variable {kind : Kind} {fields : List (String × Value)} {args args' vs ws : List Value}
  {name : String} {α β : Type} {part : Form} {v w header : Value} {e e' : Entry}

/-! ### Building -/

namespace Pxd

/-- Fields without what their values do not tell. -/
def bareEach (fields : List (String × Value)) : List (String × Value) :=
  fields.map fun f => (f.1, f.2.bare)

theorem fieldOf_bareEach (fields : List (String × Value)) (name : String) :
    fieldOf (bareEach fields) name = (fieldOf fields name).bare := by
  induction fields with
  | nil => rfl
  | cons f fields ih =>
    obtain ⟨n, v⟩ := f
    simp only [fieldOf, bareEach, List.map_cons, List.lookup_cons] at ih ⊢
    split
    · rfl
    · exact ih

theorem admits_bare (want : Want) (v : Value) : want.admits v.bare = want.admits v := by
  cases v with
  | node kind fields =>
    rw [bare]
    split
    · cases want <;> rfl
    · rfl
  | _ => cases want <;> rfl

theorem meet_bare (d : Demand) (v : Value) (name : String) :
    d.meet v.bare name = d.meet v name := by
  cases d with
  | every want words =>
    rw [Demand.meet, Demand.meet, items?_bare]
    cases v.items? with
    | none => rfl
    | some vs =>
      have hall : (bareAll vs).all want.admits = vs.all want.admits := by
        rw [bareAll_eq_map, List.all_map]
        exact congrArg vs.all (funext (admits_bare want))
      simp only [Option.map_some, hall]
  | broken => rfl
  | _ => simp only [Demand.meet, admits_bare]

theorem run_bareEach (c : Check) (fields : List (String × Value)) :
    c.run (bareEach fields) = c.run fields := by
  cases c with
  | sameLength a b complaint =>
    simp only [Check.run, fieldOf_bareEach, items?_bare]
    cases (fieldOf fields a).items? <;> cases (fieldOf fields b).items? <;>
      simp [bareAll_eq_map]
  | _ => simp only [Check.run, fieldOf_bareEach, meet_bare, isTrue_bare]

theorem bareFields_congr {fields' : List (String × Value)}
    (h : bareEach fields' = bareEach fields) :
    bareFields kind fields' = bareFields kind fields := by
  induction fields generalizing fields' with
  | nil =>
    rw [bareEach, bareEach, List.map_nil, List.map_eq_nil_iff] at h
    rw [h]
  | cons f fields ih =>
    cases fields' with
    | nil => cases h
    | cons f' fields' =>
      rw [bareEach, bareEach, List.map_cons, List.map_cons, List.cons.injEq, Prod.mk.injEq] at h
      have htrue : f'.2.isTrue = f.2.isTrue := by rw [← isTrue_bare f'.2, h.1.2, isTrue_bare]
      rw [bareFields, bareFields, h.1.1, h.1.2, htrue, ih h.2]

theorem bind?_bare (hd : kind.holdsTypes = true) (args : List Value) :
    kind.signature.bind? (args.map bare) = (kind.signature.bind? args).map bareEach := by
  have hdefaults : bareEach kind.signature.defaults = kind.signature.defaults := by
    unfold Kind.holdsTypes at hd
    split at hd <;> first | rfl | cases hd
  simp only [Signature.bind?, List.length_map]
  split
  · rfl
  · have hdrop := congrArg (List.drop (args.length - kind.signature.required.length)) hdefaults
    rw [bareEach, ← List.map_drop] at hdrop
    rw [Option.map_some, bareEach, List.map_append, hdrop, List.zip_map_right]
    rfl

theorem build_of_holdsTypes (hd : kind.holdsTypes = true) (args : List Value) :
    (kind.signature.bind? args = none → build kind args = .error .wrongSort) ∧
      ∀ fields, kind.signature.bind? args = some fields →
        build kind args = kind.signature.checks.forM (·.run fields) >>= fun _ =>
          .ok (.node kind fields) := by
  have hsingle : kind.isSingle = false := by
    unfold Kind.holdsTypes at hd
    split at hd <;> first | rfl | cases hd
  unfold build
  split
  · cases hd
  · cases hd
  · rw [if_neg (by rw [hsingle]; decide)]
    exact ⟨fun h => by rw [h], fun fields h => by rw [h]⟩

/-- From values that are the same without qualifiers, nodes are built that are the same without
them, or none is, for the same reason. -/
theorem build_congr (hd : kind.holdsTypes = true) (h : args'.map bare = args.map bare) :
    (∃ e, build kind args = .error e ∧ build kind args' = .error e) ∨
      ∃ fields fields', kind.signature.bind? args' = some fields' ∧
        build kind args = .ok (.node kind fields) ∧ build kind args' = .ok (.node kind fields') ∧
        bareFields kind fields' = bareFields kind fields := by
  have hbuild := build_of_holdsTypes hd
  have hbind := (bind?_bare hd args').symm.trans ((congrArg _ h).trans (bind?_bare hd args))
  cases hf : kind.signature.bind? args with
  | none =>
    rw [hf, Option.map_none, Option.map_eq_none_iff] at hbind
    exact .inl ⟨_, (hbuild args).1 hf, (hbuild args').1 hbind⟩
  | some fields =>
    rw [hf, Option.map_some, Option.map_eq_some_iff] at hbind
    obtain ⟨fields', hf', hfields⟩ := hbind
    have hrun : ∀ c : Check, c.run fields' = c.run fields := fun c => by
      rw [← run_bareEach c fields', hfields, run_bareEach]
    rw [(hbuild args).2 fields hf, (hbuild args').2 fields' hf']
    simp only [hrun]
    cases kind.signature.checks.forM (·.run fields) with
    | error e => exact .inl ⟨e, rfl, rfl⟩
    | ok _ => exact .inr ⟨fields, fields', hf', rfl, rfl, bareFields_congr hfields⟩

/-! ### Qualifiers -/

theorem bareFields_putField_volatile (kind : Kind) (c : Value) (fields : List (String × Value)) :
    bareFields kind (putField "volatile" c fields) = bareFields kind fields := by
  have htells : kind.tells "volatile" = false := rfl
  induction fields with
  | nil => simp only [putField, bareFields, htells, Bool.false_eq_true, if_false]
  | cons f fields ih =>
    obtain ⟨n, v⟩ := f
    rw [putField]
    split
    · rename_i hn
      obtain rfl : n = "volatile" := by simpa using hn
      rw [bareFields, bareFields, htells, if_neg (by decide), if_neg (by decide)]
    · rw [bareFields, bareFields, ih]

theorem bareFields_putField_const {c : Value}
    (h : kind.tells "const" = true → ∃ c₀, fields.lookup "const" = some c₀ ∧ c₀.isTrue = c.isTrue) :
    bareFields kind (putField "const" c fields) = bareFields kind fields := by
  induction fields with
  | nil =>
    by_cases htells : kind.tells "const" = true
    · obtain ⟨_, hlookup, -⟩ := h htells
      cases hlookup
    · simp only [putField, bareFields, if_neg htells]
  | cons f fields ih =>
    obtain ⟨n, v⟩ := f
    rw [putField]
    by_cases hn : n = "const"
    · subst hn
      rw [if_pos (by decide), bareFields, bareFields]
      by_cases htells : kind.tells "const" = true
      · obtain ⟨c₀, hlookup, hc⟩ := h htells
        obtain rfl : v = c₀ := by simpa [List.lookup_cons] using hlookup
        rw [if_pos htells, if_pos htells, hc]
        rfl
      · rw [if_neg htells, if_neg htells]
    · rw [if_neg (by simpa using hn), bareFields, bareFields, ih]
      intro htells
      obtain ⟨c₀, hlookup, hc⟩ := h htells
      rw [List.lookup_cons, beq_false_of_ne (Ne.symm hn)] at hlookup
      exact ⟨c₀, hlookup, hc⟩

end Pxd

namespace Decl

open Work

/-! ### The common language -/

/-- The forms of types that both origins know. -/
def Form.isType : Form → Bool
  | .fundamentalType | .cvQualifiedType | .pointerType | .arrayType | .functionType | .typedef
  | .struct | .union | .enumeration => true
  | _ => false

/-- The forms of types that are not written by a name. -/
def Form.isNameless : Form → Bool
  | .cvQualifiedType | .pointerType | .arrayType | .functionType => true
  | _ => false

/-- The forms of toplevel declarations that both origins know. -/
def Form.isItem : Form → Bool
  | .struct | .union | .enumeration | .function | .globalVariable | .typedef => true
  | _ => false

/-- Which declarations of two graphs are counterparts, and their form. -/
abbrev Pairing := Form → Nat → Nat → Prop

variable (ρ : Pairing)

/-- Links to counterparts of one of the forms. -/
def Linked (P : Form → Bool) (v w : Value) : Prop :=
  ∃ form i j, ρ form i j ∧ P form = true ∧ v = .link i ∧ w = .link j

/-- Lists of links to counterparts of a form. -/
def LinkedItems (form : Form) (v w : Value) : Prop :=
  ∃ vs ws, v = .list vs ∧ w = .list ws ∧ List.Forall₂ (Linked ρ (· == form)) vs ws

/-- Both declarations have a field, and what is in it corresponds. -/
def FieldPair (R : Value → Value → Prop) (name : String) (e e' : Entry) : Prop :=
  ∃ v w, e.get? name = some v ∧ e'.get? name = some w ∧ R v w

/-- One and the same name, which is not empty. -/
def SameName (v w : Value) : Prop := v = w ∧ v.isTrue = true

/-- Qualifiers that are not set. -/
def BothUnset (v w : Value) : Prop := v.isTrue = false ∧ w.isTrue = false

/-- Declarations of a form that both origins know with the same names, ranges and shape. Structs and
unions hold fields only and have a name, as enumerations do, and nothing is qualified. -/
def Twins : Form → Entry → Entry → Prop
  | .fundamentalType, e, e' | .enumValue, e, e' => FieldPair Eq "name" e e'
  | .typedef, e, e' | .field, e, e' | .globalVariable, e, e' | .argument, e, e' =>
    FieldPair Eq "name" e e' ∧ FieldPair (Linked ρ Form.isType) "typ" e e'
  | .cvQualifiedType, e, e' =>
    FieldPair (Linked ρ Form.isType) "typ" e e' ∧ FieldPair BothUnset "const" e e' ∧
      FieldPair BothUnset "volatile" e e'
  | .pointerType, e, e' => FieldPair (Linked ρ Form.isType) "typ" e e'
  | .arrayType, e, e' =>
    FieldPair (Linked ρ Form.isType) "typ" e e' ∧ FieldPair Eq "min" e e' ∧ FieldPair Eq "max" e e'
  | .functionType, e, e' =>
    FieldPair (LinkedItems ρ .argument) "arguments" e e' ∧
      FieldPair (Linked ρ Form.isType) "returns" e e'
  | .function, e, e' =>
    FieldPair Eq "name" e e' ∧ FieldPair (LinkedItems ρ .argument) "arguments" e e' ∧
      FieldPair (Linked ρ Form.isType) "returns" e e'
  | .struct, e, e' | .union, e, e' =>
    FieldPair SameName "name" e e' ∧ FieldPair (LinkedItems ρ .field) "members" e e'
  | .enumeration, e, e' =>
    FieldPair SameName "name" e e' ∧ FieldPair (LinkedItems ρ .enumValue) "values" e e'
  | _, _, _ => False

/-- What every declaration of a unit has: a location and a name. What is written by its name does
not wait for that of a typedef. -/
def Settled (form : Form) (e : Entry) : Prop :=
  (e.get? "location").isSome = true ∧ ∃ name, e.get? "name" = some name ∧
    (name.isTrue = true ∨ e.get? "typedef_name" = none ∨ form.isNameless = true)

/-- A dump and a unit in which counterparts are the same. -/
structure Common (g h : Graph) : Prop where
  origins : g.origin = .dump ∧ h.origin = .unit
  twins : ∀ {form i j}, ρ form i j → ∃ e e', g.get? i = some e ∧ h.get? j = some e' ∧
    e.form = form ∧ e'.form = form ∧ Twins ρ form e e' ∧ Settled form e'

/-- The first session has the dump, which stays as it is. -/
def Both (g : Graph) (s t : Session) : Prop := s.graph = g ∧ Common ρ g t.graph

section Steps

variable {ρ} {g : Graph} {form : Form} {i j : Nat} {R : Value → Value → Prop}

/-! ### Reading fields -/

theorem inStep_field (hρ : ρ form i j) (h : ∀ e e', Twins ρ form e e' → FieldPair R name e e') :
    InStep (Both ρ g) R (field (.link i) name) (field (.link j) name) := by
  intro s t hs
  obtain ⟨e, e', he, he', -, -, htwins, -⟩ := hs.2.twins hρ
  obtain ⟨v, w, hv, hw, hR⟩ := h e e' htwins
  have hs' : outcome (field (.link i) name) s = (.ok v, s) :=
    gives_field (by rw [hs.1, Graph.field?_of_get? g he, hv])
  have ht' : outcome (field (.link j) name) t = (.ok w, t) :=
    gives_field (by rw [Graph.field?_of_get? t.graph he', hw])
  rw [hs', ht']
  exact .ok hR hs

theorem inStep_fieldRight (hρ : ρ form i j)
    (h : ∀ e e', Twins ρ form e e' → FieldPair R name e e') {P : α → β → Prop}
    {x : Work α} {k : Value → Work β} (hk : ∀ v w, R v w → InStep (Both ρ g) P x (k w)) :
    InStep (Both ρ g) P x (field (.link j) name >>= k) := by
  intro s t hs
  obtain ⟨e, e', -, he', -, -, htwins, -⟩ := hs.2.twins hρ
  obtain ⟨v, w, -, hw, hR⟩ := h e e' htwins
  have ht' : outcome (field (.link j) name) t = (.ok w, t) :=
    gives_field (by rw [Graph.field?_of_get? t.graph he', hw])
  rw [outcome_bind, ht']
  exact hk v w hR hs

theorem inStep_fieldItems (hρ : ρ form i j)
    (h : ∀ e e', Twins ρ form e e' → FieldPair (LinkedItems ρ part) name e e') :
    InStep (Both ρ g) (List.Forall₂ (Linked ρ (· == part))) (fieldItems (.link i) name)
      (fieldItems (.link j) name) := by
  refine .bind (inStep_field hρ h) ?_
  rintro _ _ ⟨vs, ws, rfl, rfl, hvw⟩
  exact .pure hvw

/-! ### Building -/

/-- Values that are the same without qualifiers. -/
abbrev BareEq (v w : Value) : Prop := w.bare = v.bare

/-- Nodes that are the same without qualifiers, the second of which has been built from `args`. -/
def NodePair (kind : Kind) (args : List Value) (v w : Value) : Prop :=
  w.bare = v.bare ∧ ∃ fields, kind.signature.bind? args = some fields ∧ w = .node kind fields

theorem inStep_build (hd : kind.holdsTypes = true) (h : args'.map bare = args.map bare) :
    InStep (Both ρ g) (NodePair kind args') (Work.build kind args) (Work.build kind args') := by
  rw [Work.build, Work.build]
  obtain ⟨e, he, he'⟩ | ⟨fields, fields', hbind, he, he', hfields⟩ := build_congr hd h
  · rw [he, he']
    exact .throw e
  · rw [he, he']
    exact .pure ⟨by rw [bare_node hd, bare_node hd, hfields], fields', hbind, rfl⟩

/-- A type that is not qualified. -/
def IsPlain (v : Value) : Prop :=
  ∃ kind fields, v = .node kind fields ∧ kind.holdsTypes = true ∧
    (kind.tells "const" = true → ∃ c, fields.lookup "const" = some c ∧ c.isTrue = false)

/-- Types that are the same without qualifiers, the second of which has none. -/
def TypePair (v w : Value) : Prop := w.bare = v.bare ∧ IsPlain w

theorem NodePair.typePair (h : NodePair kind args v w)
    (hk : (∃ a, args = [a] ∧ (kind = .typeName ∨ kind = .pointer)) ∨ kind = .array ∨
      kind = .cFunctionType) : TypePair v w := by
  obtain ⟨hbare, fields, hbind, rfl⟩ := h
  refine ⟨hbare, kind, fields, rfl, ?_⟩
  obtain ⟨a, rfl, rfl | rfl⟩ | rfl | rfl := hk
  iterate 2
    · cases hbind
      exact ⟨rfl, fun _ => ⟨.flag false, rfl, rfl⟩⟩
  iterate 2
    · exact ⟨rfl, fun h => absurd h (by decide)⟩

theorem inStep_buildEq (kind : Kind) (args : List Value) :
    InStep (Both ρ g) Eq (Work.build kind args) (Work.build kind args) := by
  rw [Work.build]
  cases Pxd.build kind args with
  | error e => exact .throw e
  | ok v => exact .pure rfl

theorem inStep_namedType (name : Value) :
    InStep (Both ρ g) TypePair (namedType name) (namedType name) :=
  .bindEq (inStep_buildEq .name _) fun _ =>
    (inStep_build rfl rfl).mono fun _ _ h => h.typePair (.inl ⟨_, rfl, .inl rfl⟩)

theorem TypePair.qualify {v w : Value} (h : TypePair v w) {c d : Value} (hc : c.isTrue = false) :
    InStep (Both ρ g) TypePair (Pure.pure v) (qualify w c d) := by
  obtain ⟨hbare, kind, fields, rfl, hd, hconst⟩ := h
  refine .pure ⟨?_, kind, _, rfl, hd, fun hk => ⟨c, ?_, hc⟩⟩
  · rw [bare_node hd, bareFields_putField_volatile, bareFields_putField_const, ← bare_node hd,
      hbare]
    intro hk
    obtain ⟨c₀, hlookup, hc₀⟩ := hconst hk
    exact ⟨c₀, hlookup, hc₀.trans hc.symm⟩
  · rw [lookup_putField, if_neg (by decide), lookup_putField, if_pos rfl]

theorem map_bare_of_forall₂ (h : List.Forall₂ BareEq vs ws) : ws.map bare = vs.map bare := by
  induction h with
  | nil => rfl
  | cons hv _ ih => rw [List.map_cons, List.map_cons, hv, ih]

/-! ### Mentions -/

/-- What stands for counterparts of a form where they are mentioned. -/
def Said (form : Form) (v w : Value) : Prop :=
  w.bare = v.bare ∧ w.kind?.isSome = true ∧ (form.isType = true → IsPlain w) ∧
    (form = .field → w.isOf .stmt = true)

theorem TypePair.said (h : TypePair v w) (hform : form ≠ .field) : Said form v w := by
  obtain ⟨kind, fields, rfl, -⟩ := h.2
  exact ⟨h.1, rfl, fun _ => h.2, fun h => absurd h hform⟩

theorem Said.ne_nothing (h : Said form v w) : v ≠ .nothing ∧ w ≠ .nothing := by
  have hw : w ≠ .nothing := by
    rintro rfl
    cases h.2.1
  refine ⟨?_, hw⟩
  rintro rfl
  have hk := kind?_bare w
  rw [h.1] at hk
  have hsome := h.2.1
  rw [← hk] at hsome
  cases hsome

def Form.isMentioned (form : Form) : Bool :=
  form.isType || form == .field || form == .enumValue || form == .argument

theorem inStep_origin :
    InStep (Both ρ g) (fun a b => a = .dump ∧ b = .unit) origin origin :=
  fun _ _ hs => .ok ⟨hs.1 ▸ hs.2.origins.1, hs.2.origins.2⟩ hs

theorem Both.form? {s t : Session} (hs : Both ρ g s t) (hρ : ρ form i j) :
    s.graph.form? (.link i) = some form ∧ t.graph.form? (.link j) = some form := by
  obtain ⟨e, e', he, he', rfl, hform, -⟩ := hs.2.twins hρ
  refine ⟨?_, ?_⟩
  · rw [hs.1, Graph.form?_of_get? g he]
  · rw [Graph.form?_of_get? t.graph he', hform]

theorem FieldPair.setName (h : FieldPair R name e e')
    (hname : name ≠ "name") (v : Value) : FieldPair R name e (e'.set "name" v) := by
  obtain ⟨a, b, ha, hb, hR⟩ := h
  exact ⟨a, b, ha, by rw [Entry.get?_set, if_neg hname, hb], hR⟩

/-- Nothing that counterparts have in common changes with the name of a type that is not written by
it. -/
theorem Common.setName {h : Graph} (hc : Common ρ g h) {id : Nat} (name : Value)
    (hform : ∀ form, h.form? (.link id) = some form → form.isNameless = true) :
    Common ρ g (h.setField id "name" name) := by
  refine ⟨hc.origins, fun {form i j} hρ => ?_⟩
  obtain ⟨e, e', he, he', heform, heform', htwins, hsettled⟩ := hc.twins hρ
  by_cases hid : id = j
  · subst hid
    refine ⟨e, e'.set "name" name, he, by rw [Graph.get?_setField, if_pos rfl, he']; rfl, heform,
      heform', ?_, ?_⟩
    · have hnameless := hform form (by rw [Graph.form?_of_get? h he', heform'])
      cases form
      case cvQualifiedType =>
        exact ⟨htwins.1.setName (by decide) _, htwins.2.1.setName (by decide) _,
          htwins.2.2.setName (by decide) _⟩
      case pointerType => exact FieldPair.setName htwins (by decide) _
      case arrayType =>
        exact ⟨htwins.1.setName (by decide) _, htwins.2.1.setName (by decide) _,
          htwins.2.2.setName (by decide) _⟩
      case functionType => exact ⟨htwins.1.setName (by decide) _, htwins.2.setName (by decide) _⟩
      all_goals cases hnameless
    · have hnameless := hform form (by rw [Graph.form?_of_get? h he', heform'])
      refine ⟨by rw [Entry.get?_set, if_neg (by decide)]; exact hsettled.1, name, ?_,
        .inr (.inr hnameless)⟩
      rw [Entry.get?_set, if_pos rfl]
  · exact ⟨e, e', he, by rw [Graph.get?_setField, if_neg hid, he'], heform, heform', htwins,
      hsettled⟩

theorem inStep_adoptTypedefName {arg arg' : Value} (h : Linked ρ (· == .argument) arg arg') :
    InStep (Both ρ g) Eq (Pure.pure ()) (adoptTypedefName arg') := by
  obtain ⟨_, i, j, hρ, hform, rfl, rfl⟩ := h
  obtain rfl := beq_iff_eq.1 hform
  intro s t hs
  obtain ⟨e, e', -, he', -, -, htwins, -⟩ := hs.2.twins hρ
  obtain ⟨_, _, -, htyp, form, i', j', hρ', htype, rfl, rfl⟩ := htwins.2
  obtain ⟨f, f', -, hf', -, hfform, -, -, name, hname, hown⟩ := hs.2.twins hρ'
  have hgives : ∃ t', Gives (adoptTypedefName (.link j)) t () t' ∧ Both ρ g s t' := by
    have htyp' : Gives (field (.link j) "typ") t (.link j') t :=
      gives_field (by rw [Graph.field?_of_get? _ he', htyp])
    have hname' : Gives (field (.link j') "name") t name t :=
      gives_field (by rw [Graph.field?_of_get? _ hf', hname])
    have hother : Gives (Work.field? (.link j') "typedef_name") t (f'.get? "typedef_name") t :=
      Graph.field?_of_get? _ hf' _ ▸ gives_field?
    by_cases htrue : name.isTrue = true
    · refine ⟨t, htyp'.bind (hname'.bind ?_), hs⟩
      simp only [htrue]
      exact .pure () t
    · cases hadopt : f'.get? "typedef_name" with
      | none =>
        refine ⟨t, htyp'.bind (hname'.bind ?_), hs⟩
        rw [if_pos (by simpa using htrue)]
        refine hother.bind ?_
        rw [hadopt]
        exact .pure () t
      | some x =>
        have hnameless : form.isNameless = true :=
          (hown.resolve_left htrue).resolve_left (by rw [hadopt]; simp)
        refine ⟨{ t with graph := t.graph.setField j' "name" x }, htyp'.bind (hname'.bind ?_), hs.1,
          hs.2.setName x fun form' hform' => ?_⟩
        · rw [if_pos (by simpa using htrue)]
          refine hother.bind ?_
          rw [hadopt]
          exact gives_setField j' "name" x
        · rw [Graph.form?_of_get? _ hf', hfform] at hform'
          rw [← Option.some.inj hform']
          exact hnameless
  obtain ⟨t', hgives, hs'⟩ := hgives
  rw [gives_iff_outcome.1 hgives]
  exact .ok rfl hs'

section Sub

variable {sub sub' : Value → Work Value}
variable (hsub : ∀ {form i j}, ρ form i j → form.isMentioned = true →
  InStep (Both ρ g) (Said form) (sub (.link i)) (sub' (.link j)))
include hsub

theorem inStep_typ (hρ : ρ form i j)
    (h : ∀ e e', Twins ρ form e e' → FieldPair (Linked ρ Form.isType) name e e')
    {Q : α → β → Prop} {k : Value → Work α} {k' : Value → Work β}
    (hk : ∀ v w, TypePair v w → InStep (Both ρ g) Q (k v) (k' w)) :
    InStep (Both ρ g) Q (field (.link i) name >>= fun v => sub v >>= k)
      (field (.link j) name >>= fun w => sub' w >>= k') := by
  refine .bind (inStep_field hρ h) ?_
  rintro _ _ ⟨form, i, j, hρ, htype, rfl, rfl⟩
  refine .bind (hsub hρ (by rw [Form.isMentioned, htype]; rfl)) fun v w hsaid => ?_
  exact hk v w ⟨hsaid.1, hsaid.2.2.1 htype⟩

theorem inStep_mentionSignature (hρ : ρ form i j)
    (hargs : ∀ e e', Twins ρ form e e' → FieldPair (LinkedItems ρ .argument) "arguments" e e')
    (hreturns : ∀ e e', Twins ρ form e e' → FieldPair (Linked ρ Form.isType) "returns" e e')
    {each each' : Value → Work Unit}
    (heach : ∀ v w, Linked ρ (· == .argument) v w → InStep (Both ρ g) Eq (each v) (each' w)) :
    InStep (Both ρ g) (fun p q => q.1.bare = p.1.bare ∧ q.2.bare = p.2.bare)
      (mentionSignature sub (.link i) each) (mentionSignature sub' (.link j) each') := by
  refine .bind (inStep_fieldItems hρ hargs) fun vs ws hvw => ?_
  refine .bind (R := List.Forall₂ BareEq) (.mapM (fun v w hlink => ?_) hvw) fun args args' hsame =>
    ?_
  · refine .bindEq (heach v w hlink) fun _ => ?_
    obtain ⟨_, i, j, hρ, hform, rfl, rfl⟩ := hlink
    obtain rfl := beq_iff_eq.1 hform
    exact (hsub hρ rfl).mono fun _ _ h => h.1
  · have hmap := map_bare_of_forall₂ hsame
    refine .bind (inStep_build rfl ?_) fun list list' hlist => ?_
    · simp only [List.map_cons, bare, bareAll_eq_map, hmap]
    · exact inStep_typ hsub hρ hreturns fun v w htype => .pure ⟨hlist.1, htype.1⟩

omit hsub in
theorem inStep_typedName (h : w.bare = v.bare) (name : Value) :
    InStep (Both ρ g) (NodePair .cName [w, name]) (typedName v name) (typedName w name) :=
  inStep_build rfl (by simp [h])

omit hsub in
theorem inStep_declaration (h : w.bare = v.bare) (name : Value) :
    InStep (Both ρ g) (fun a b => b.bare = a.bare ∧ b.kind? = some .exprStmt) (declaration v name)
      (declaration w name) := by
  refine .bind (inStep_typedName h name) fun a b hab => ?_
  refine (inStep_build rfl (by simp [hab.1])).mono ?_
  rintro a b ⟨hbare, fields, -, rfl⟩
  exact ⟨hbare, rfl⟩

omit hsub in
theorem inStep_named (hρ : ρ form i j)
    (h : ∀ e e', Twins ρ form e e' → FieldPair Eq "name" e e') (hform : form ≠ .field) :
    InStep (Both ρ g) (Said form) (field (.link i) "name" >>= namedType)
      (field (.link j) "name" >>= namedType) :=
  .bindEq (inStep_field hρ h) fun name => (inStep_namedType name).mono fun _ _ htype =>
    htype.said hform

omit hsub in
theorem FieldPair.eq_of_sameName (h : FieldPair SameName "name" e e') :
    FieldPair Eq "name" e e' := by
  obtain ⟨v, w, hv, hw, heq, -⟩ := h
  exact ⟨v, w, hv, hw, heq⟩

omit hsub in
theorem isOf_stmt (h : v.kind? = some .exprStmt) : v.isOf .stmt = true := by
  cases v with
  | node kind fields =>
    obtain rfl : kind = .exprStmt := Option.some.inj h
    rfl
  | _ => cases h

omit hsub in
theorem inStep_asInteger (v : Value) : InStep (Both ρ g) Eq (asInteger v) (asInteger v) := by
  unfold asInteger
  repeat' split
  all_goals first | exact .pure rfl | exact .throw _

omit hsub in
theorem inStep_structName (hρ : ρ .struct i j) :
    InStep (Both ρ g) Eq (structName (.link i)) (structName (.link j)) := by
  refine .bind (inStep_field hρ fun e e' h => h.1) ?_
  rintro name _ ⟨rfl, htrue⟩
  refine .bind inStep_origin ?_
  rintro _ _ ⟨rfl, rfl⟩
  simp only [htrue, if_true]
  exact .pure rfl

theorem inStep_mentionStep (hρ : ρ form i j) (hm : form.isMentioned = true) :
    InStep (Both ρ g) (Said form) (mentionStep sub (.link i)) (mentionStep sub' (.link j)) := by
  refine .bind inStep_origin ?_
  rintro _ _ ⟨rfl, rfl⟩
  refine .get fun s t hs => ?_
  rw [(hs.form? hρ).1, (hs.form? hρ).2]
  cases form
  case field =>
    refine .bindEq (inStep_field hρ fun e e' h => h.1) fun name => ?_
    refine inStep_typ hsub hρ (fun e e' h => h.2) fun v w htype => ?_
    refine (inStep_declaration htype.1 name).mono fun a b ⟨hbare, hkind⟩ => ?_
    exact ⟨hbare, by rw [hkind]; rfl, fun h => absurd h (by decide), fun _ => isOf_stmt hkind⟩
  case enumValue =>
    refine .bindEq (inStep_field hρ fun e e' h => h) fun name => ?_
    refine .bindEq (inStep_buildEq .name _) fun v => (inStep_build rfl rfl).mono ?_
    rintro a b ⟨hbare, fields, -, rfl⟩
    exact ⟨hbare, rfl, fun h => absurd h (by decide), fun h => absurd h (by decide)⟩
  case struct =>
    refine .bindEq (inStep_structName hρ) fun name => ?_
    exact (inStep_namedType name).mono fun _ _ htype => htype.said (by decide)
  case enumeration | union => exact inStep_named hρ (fun e e' h => h.1.eq_of_sameName) (by decide)
  case typedef => exact inStep_named hρ (fun e e' h => h.1) (by decide)
  case fundamentalType => exact inStep_named hρ (fun e e' h => h) (by decide)
  case argument =>
    refine .bindEq (inStep_field hρ fun e e' h => h.1) fun name => ?_
    refine inStep_typ hsub hρ (fun e e' h => h.2) fun v w htype => ?_
    refine (inStep_typedName htype.1 _).mono ?_
    rintro a b ⟨hbare, fields, -, rfl⟩
    exact ⟨hbare, rfl, fun h => absurd h (by decide), fun h => absurd h (by decide)⟩
  case pointerType =>
    refine inStep_typ hsub hρ (fun e e' h => h) fun v w htype => ?_
    refine (inStep_build rfl (by simp [htype.1])).mono fun a b h => ?_
    exact (h.typePair (.inl ⟨_, rfl, .inr rfl⟩)).said (by decide)
  case arrayType =>
    refine .bindEq (inStep_field hρ fun e e' h => h.2.1) fun first => ?_
    refine .bindEq (inStep_asInteger first) fun first => ?_
    refine .bindEq (inStep_field hρ fun e e' h => h.2.2) fun last => ?_
    refine .bindEq (inStep_asInteger last) fun last => ?_
    refine inStep_typ hsub hρ (fun e e' h => h.1) fun v w htype => ?_
    refine (inStep_build rfl (by simp [htype.1])).mono fun a b h => ?_
    exact (h.typePair (.inr (.inl rfl))).said (by decide)
  case cvQualifiedType =>
    -- only the unit reads the qualifiers
    show InStep (Both ρ g) _ (field (.link i) "typ" >>= sub) _
    rw [← bind_pure (field (.link i) "typ" >>= sub), bind_assoc]
    refine inStep_typ hsub hρ (fun e e' h => h.1) fun v w htype => ?_
    refine inStep_fieldRight hρ (fun e e' h => h.2.1) fun _ c hconst => ?_
    refine inStep_fieldRight hρ (fun e e' h => h.2.2) fun _ d _ => ?_
    exact (htype.qualify hconst.2).mono fun _ _ h => h.said (by decide)
  case functionType =>
    refine .bind (inStep_mentionSignature hsub hρ (fun e e' h => h.1) (fun e e' h => h.2) ?_) ?_
    · intro v w hlink
      exact inStep_adoptTypedefName hlink
    · rintro ⟨args, returns⟩ ⟨args', returns'⟩ ⟨hargs, hreturns⟩
      refine (inStep_build rfl (by simp_all)).mono fun a b h => ?_
      exact (h.typePair (.inr (.inr rfl))).said (by decide)
  all_goals cases hm

end Sub

/-- Mentions of counterparts are in step, with fuel `n` in the dump and `m` in the unit. -/
def MentionInStep (ρ : Pairing) (g : Graph) (n m : Nat) : Prop :=
  ∀ ⦃form i j⦄, ρ form i j → form.isMentioned = true →
    InStep (Both ρ g) (Said form) (mention n (.link i)) (mention m (.link j))

theorem MentionInStep.succ {n m : Nat} (h : MentionInStep ρ g n m) :
    MentionInStep ρ g (n + 1) (m + 1) := by
  intro form i j hρ hm
  refine .bind (inStep_mentionStep (fun hρ => h hρ) hρ hm) fun v w hsaid => ?_
  obtain ⟨hv, hw⟩ := hsaid.ne_nothing
  split
  · exact absurd rfl hv
  · exact .pure hsaid

theorem mentionInStep_self (n : Nat) : MentionInStep ρ g n n := by
  induction n with
  | zero => exact fun _ _ _ _ _ => .throw _
  | succ n ih => exact ih.succ

/-! ### Enough fuel -/

variable {s s' t t' : Session} {n m : Nat}

/-- Work that runs out of fuel on both sides agrees, as what it leaves behind on one side has
nothing to do with the other. -/
theorem agree_of_runsOut {x x' : Work α} {y y' : Work β} {R : α → β → Prop} (hs : Both ρ g s t)
    (hx : InStep (Both ρ g) R x y') (hy : InStep (Both ρ g) R x' y) (hxs : RunsOut x s)
    (hyt : RunsOut y t) : Agree (Both ρ g) R (outcome x s) (outcome y t) := by
  have hx := hx hs
  have hy := hy hs
  rw [RunsOut] at hxs hyt
  generalize outcome x s = p, outcome y' t = q at hx hxs
  generalize outcome x' s = p', outcome y t = q' at hy hyt
  cases hx with
  | ok => cases hxs
  | error e hS =>
    cases hy with
    | ok => cases hyt
    | error e' hS' =>
      cases hxs
      cases hyt
      exact .error _ ⟨hS.1, hS'.2⟩

/-- Whether mentions run out of fuel is the same for counterparts, and in all states. -/
theorem MentionInStep.runsOut_iff (h : MentionInStep ρ g n m) (hρ : ρ form i j)
    (hm : form.isMentioned = true) (hs : s.graph = g) (ht : Common ρ g t.graph) :
    RunsOut (mention n (.link i)) s ↔ RunsOut (mention m (.link j)) t := by
  have h := h hρ hm (s := s) (t := t) ⟨hs, ht⟩
  rw [RunsOut, RunsOut]
  generalize outcome (mention n (.link i)) s = p, outcome (mention m (.link j)) t = q at h
  cases h with
  | ok => exact iff_of_false (by simp) (by simp)
  | error e => exact Iff.rfl

theorem runsOut_of_le (h : RunsOut (mention m v) s) (hnm : n ≤ m) : RunsOut (mention n v) s := by
  rcases extends_mention hnm v s with hs | hs
  · exact hs
  · rwa [RunsOut, ← hs]

/-- What runs out of the fuel `n` in the dump runs out of `m` too. -/
def NoneLasts (ρ : Pairing) (s : Session) (n m : Nat) : Prop :=
  ∀ ⦃form i j⦄, ρ form i j → form.isMentioned = true → RunsOut (mention n (.link i)) s →
    RunsOut (mention m (.link i)) s

section

variable (hs : Both ρ g s t)

include hs

/-- **Where no mention lasts longer for it, more fuel makes no difference**, in the dump or the
unit. -/
theorem mentionInStep_of_noneLasts (hnm : n ≤ m) (h : NoneLasts ρ s n m) :
    MentionInStep ρ g n m ∧ MentionInStep ρ g m n := by
  have hOut : ∀ {form i j}, ρ form i j → form.isMentioned = true → ∀ {s' t'}, Both ρ g s' t' →
      RunsOut (mention n (.link i)) s' →
      RunsOut (mention m (.link i)) s' ∧ RunsOut (mention m (.link j)) t' := by
    intro form i j hρ hm s' t' hs' hn
    have hself := fun n => mentionInStep_self (ρ := ρ) (g := g) n
    have hlast := h hρ hm (((hself n).runsOut_iff hρ hm hs.1 hs'.2).2
      (((hself n).runsOut_iff hρ hm hs'.1 hs'.2).1 hn))
    have hunit := ((hself m).runsOut_iff hρ hm hs.1 hs'.2).1 hlast
    exact ⟨((hself m).runsOut_iff hρ hm hs'.1 hs'.2).2 hunit, hunit⟩
  constructor <;> intro form i j hρ hm s' t' hs'
  · by_cases hn : RunsOut (mention n (.link i)) s'
    · exact agree_of_runsOut hs' (mentionInStep_self n hρ hm) (mentionInStep_self m hρ hm) hn
        (hOut hρ hm hs' hn).2
    · rw [← (extends_mention hnm _ s').resolve_left hn]
      exact mentionInStep_self m hρ hm hs'
  · by_cases hn : RunsOut (mention n (.link j)) t'
    · have hn' := ((mentionInStep_self n).runsOut_iff hρ hm hs'.1 hs'.2).2 hn
      exact agree_of_runsOut hs' (mentionInStep_self m hρ hm) (mentionInStep_self n hρ hm)
        (hOut hρ hm hs' hn').1 hn
    · rw [← (extends_mention hnm _ t').resolve_left hn]
      exact mentionInStep_self m hρ hm hs'

theorem noneLasts_of_next (h : NoneLasts ρ s n (n + 1)) (hnm : n ≤ m) : NoneLasts ρ s n m := by
  -- the induction carries that the next step makes no difference either
  have hNext : NoneLasts ρ s n m ∧ NoneLasts ρ s m (m + 1) := by
    induction hnm with
    | refl => exact ⟨fun _ _ _ _ _ h => h, h⟩
    | @step m hnm ih =>
      refine ⟨fun _ _ _ hρ hm hn => ih.2 hρ hm (ih.1 hρ hm hn), fun _ _ _ hρ hm hn => ?_⟩
      have hstep := (mentionInStep_of_noneLasts hs (Nat.le_succ m) ih.2).1.succ
      exact ((mentionInStep_self (m + 2)).runsOut_iff hρ hm hs.1 hs.2).2
        ((hstep.runsOut_iff hρ hm hs.1 hs.2).1 hn)
  exact hNext.1

/-- Fuel makes no difference any more once there is as much as the dump has declarations. -/
theorem noneLasts_dump (hn : g.entries.size ≤ n) (hnm : n ≤ m) : NoneLasts ρ s n m := by
  obtain ⟨k, hk, hStays⟩ := exists_no_growth (n := g.entries.size)
    (D := fun k i => ∃ form j, ρ form i j ∧ form.isMentioned = true ∧
    ¬ RunsOut (mention k (.link i)) s)
    (fun k i ⟨form, j, hρ, hm, hNot⟩ =>
      ⟨form, j, hρ, hm, fun h => hNot (runsOut_of_le h (Nat.le_succ k))⟩)
    (fun k i ⟨form, j, hρ, _⟩ => by
      obtain ⟨e, _, he, -⟩ := hs.2.twins hρ
      exact Graph.lt_size_of_get? g he)
  intro form i j hρ hm hOut
  refine noneLasts_of_next hs (n := k) ?_ (by omega) hρ hm (runsOut_of_le hOut (by omega))
  intro form i j hρ hm hk
  by_contra hNot
  obtain ⟨_, _, -, -, hNot'⟩ := hStays i ⟨form, j, hρ, hm, hNot⟩
  exact hNot' hk

theorem noneLasts_unit (hn : t.graph.entries.size ≤ n) (hnm : n ≤ m) : NoneLasts ρ s n m := by
  have hiff := fun k {form i j} (hρ : ρ form i j) hm =>
    (mentionInStep_self k).runsOut_iff hρ hm hs.1 hs.2
  obtain ⟨k, hk, hStays⟩ := exists_no_growth (n := t.graph.entries.size)
    (D := fun k j => ∃ form i, ρ form i j ∧ form.isMentioned = true ∧
    ¬ RunsOut (mention k (.link j)) t)
    (fun k j ⟨form, i, hρ, hm, hNot⟩ =>
      ⟨form, i, hρ, hm, fun h => hNot (runsOut_of_le h (Nat.le_succ k))⟩)
    (fun k j ⟨form, i, hρ, _⟩ => by
      obtain ⟨_, e', -, he', -⟩ := hs.2.twins hρ
      exact Graph.lt_size_of_get? _ he')
  intro form i j hρ hm hOut
  refine noneLasts_of_next hs (n := k) ?_ (by omega) hρ hm (runsOut_of_le hOut (by omega))
  intro form i j hρ hm hk
  by_contra hNot
  obtain ⟨_, _, -, -, hNot'⟩ := hStays j ⟨form, i, hρ, hm, fun h => hNot ((hiff _ hρ hm).2 h)⟩
  exact hNot' ((hiff _ hρ hm).1 hk)

/-- **Mentions are in step with the fuel that either side has**, however many declarations there are
on the other. -/
theorem inStep_mention :
    MentionInStep ρ g (s.graph.entries.size + 1) (t.graph.entries.size + 1) := by
  rcases Nat.le_total s.graph.entries.size t.graph.entries.size with h | h
  · exact (mentionInStep_of_noneLasts hs (by omega) (noneLasts_dump hs (by rw [← hs.1]; omega)
      (by omega))).1
  · exact (mentionInStep_of_noneLasts hs (by omega) (noneLasts_unit hs (by omega) (by omega))).2

end

/-! ### Definitions -/

section Define

variable {sub sub' : Value → Work Value}
variable (hsub : ∀ {form i j}, ρ form i j → form.isMentioned = true →
  InStep (Both ρ g) (Said form) (sub (.link i)) (sub' (.link j)))

theorem bare_bodyOf (h : List.Forall₂ BareEq vs ws) : (bodyOf ws).bare = (bodyOf vs).bare := by
  have hmap := map_bare_of_forall₂ h
  rw [bodyOf, bodyOf, bare, bare, bareAll_eq_map, bareAll_eq_map]
  cases h with
  | nil => rfl
  | cons hv hvs => exact congrArg Value.list hmap

theorem inStep_cdef (h : w.bare = v.bare) : InStep (Both ρ g) BareEq (cdef v) (cdef w) :=
  (inStep_build rfl (by simp [h])).mono fun _ _ h => h.1

include hsub

/-- Definitions with a body of counterparts of one form, all of which the unit keeps. -/
theorem inStep_defineAs (hd : kind.holdsTypes = true) (hρ : ρ form i j) {held : String}
    (hm : part.isMentioned = true) (hname : ∀ e e', Twins ρ form e e' →
    FieldPair SameName "name" e e')
    (hheld : ∀ e e', Twins ρ form e e' → FieldPair (LinkedItems ρ part) held e e')
    {keep keep' : Value → Bool} (hkeep : ∀ v, keep v = true)
    (hkeep' : ∀ v w, Said part v w → keep' w = true) : InStep (Both ρ g) (List.Forall₂ BareEq)
      (defineAs sub kind (.link i) held keep) (defineAs sub' kind (.link j) held keep') := by
  refine .bindEq (inStep_field hρ fun e e' h => (hname e e' h).eq_of_sameName) fun name => ?_
  refine .bind (inStep_fieldItems hρ hheld) fun vs ws hvw => ?_
  refine .bind (R := List.Forall₂ (Said part)) (.mapM (fun v w hlink => ?_) hvw)
    fun stmts stmts' hstmts => ?_
  · obtain ⟨_, i, j, hρ, hform, rfl, rfl⟩ := hlink
    obtain rfl := beq_iff_eq.1 hform
    exact hsub hρ hm
  · have hall : stmts.filter keep = stmts := List.filter_eq_self.2 fun v _ => hkeep v
    have hall' : stmts'.filter keep' = stmts' := by
      refine List.filter_eq_self.2 fun w hw => ?_
      obtain ⟨v, -, hvw⟩ := exists_of_forall₂_right hstmts hw
      exact hkeep' v w hvw
    rw [hall, hall']
    have hbody := bare_bodyOf (hstmts.imp fun _ _ h => h.1)
    refine .bind (inStep_build hd (by simp [hbody])) fun v w hvw => ?_
    exact .bind (inStep_cdef hvw.1) fun v w hvw => .pure (.cons hvw .nil)

theorem inStep_mentionFunction (hρ : ρ .function i j) :
    InStep (Both ρ g) BareEq (mentionFunction sub (.link i)) (mentionFunction sub' (.link j)) := by
  refine .bindEq (inStep_field hρ fun e e' h => h.1) fun name => ?_
  refine .bind (inStep_mentionSignature hsub hρ (fun e e' h => h.2.1) (fun e e' h => h.2.2)
    fun _ _ _ => .pure rfl) ?_
  rintro ⟨args, returns⟩ ⟨args', returns'⟩ ⟨hargs, hreturns⟩
  exact (inStep_build rfl (by simp_all)).mono fun _ _ h => h.1

omit hsub in
theorem Twins.sameName {body : Kind × String} (hbody : bodyKind? form = some body)
    (h : Twins ρ form e e') : FieldPair SameName "name" e e' := by
  cases form
  case struct => exact h.1
  case union => exact h.1
  case enumeration => exact h.1
  all_goals cases hbody

theorem inStep_defineTypedef (hρ : ρ .typedef i j) :
    InStep (Both ρ g) (List.Forall₂ BareEq) (defineTypedef sub (.link i))
      (defineTypedef sub' (.link j)) := by
  refine .bindEq (inStep_field hρ fun e e' h => h.1) fun name => ?_
  have hplain : InStep (Both ρ g) (List.Forall₂ BareEq)
      (do pure [← Work.build .cTypedefDecl [← declaration (← sub (← field (.link i) "typ")) name]])
      (do
        pure [← Work.build .cTypedefDecl
          [← declaration (← sub' (← field (.link j) "typ")) name]]) := by
    refine inStep_typ hsub hρ (fun e e' h => h.2) fun v w htype => ?_
    refine .bind (inStep_declaration htype.1 name) fun v w h => ?_
    exact .bind (inStep_build rfl (by simp [h.1])) fun v w h => .pure (.cons h.1 .nil)
  refine .bind (inStep_field hρ fun e e' h => h.2) ?_
  rintro _ _ ⟨form, i', j', hρ', htype, rfl, rfl⟩
  refine .bind inStep_origin ?_
  rintro _ _ ⟨rfl, rfl⟩
  refine .get fun s t hs => ?_
  rw [(hs.form? hρ').1, (hs.form? hρ').2]
  cases hbody : bodyKind? form with
  | none =>
    simp only [Option.bind_some, hbody, bind_assoc]
    exact hplain
  | some body =>
    simp only [Option.bind_some, hbody, bind_assoc]
    refine inStep_fieldRight hρ' (fun e e' h => h.sameName hbody) fun v w hname => ?_
    obtain ⟨rfl, htrue⟩ := hname
    simp only [htrue, if_true]
    exact hplain

theorem inStep_defineStep (hρ : ρ form i j) (hi : form.isItem = true)
    (visit visit' : Value → Work (List Value)) :
    InStep (Both ρ g) (List.Forall₂ BareEq) (defineStep sub visit (.link i))
      (defineStep sub' visit' (.link j)) := by
  refine .bind inStep_origin ?_
  rintro _ _ ⟨rfl, rfl⟩
  refine .get fun s t hs => ?_
  rw [(hs.form? hρ).1, (hs.form? hρ).2]
  cases form
  case struct =>
    exact inStep_defineAs hsub rfl hρ rfl (fun e e' h => h.1) (fun e e' h => h.2) (fun _ => rfl)
      fun v w hsaid => hsaid.2.2.2 rfl
  case union | enumeration =>
    exact inStep_defineAs hsub rfl hρ rfl (fun e e' h => h.1) (fun e e' h => h.2) (fun _ => rfl)
      fun v w hsaid => rfl
  case function =>
    exact .bind (inStep_mentionFunction hsub hρ) fun v w h => .pure (.cons h .nil)
  case globalVariable =>
    refine .bindEq (inStep_field hρ fun e e' h => h.1) fun name => ?_
    refine inStep_typ hsub hρ (fun e e' h => h.2) fun v w htype => ?_
    exact .bind (inStep_declaration htype.1 name) fun v w h => .pure (.cons h.1 .nil)
  case typedef => exact inStep_defineTypedef hsub hρ
  all_goals cases hi

end Define

/-! ### Modules -/

/-- A declaration of a dump that is located in the header. -/
def IsHere (g : Graph) (header v : Value) : Prop :=
  ∃ location path rest name, g.field? v "location" = some location ∧
    location.items? = some (.text path :: rest) ∧ header = .text name ∧ path.endsWith name = true

theorem inStep_isElsewhere (hρ : ρ form i j) (h : IsHere g header (.link i)) :
    InStep (Both ρ g) (fun a b => a = false ∧ b = false) (isElsewhere header (.link i))
      (isElsewhere header (.link j)) := by
  intro s t hs
  obtain ⟨e, e', -, he', -, -, -, hsettled⟩ := hs.2.twins hρ
  obtain ⟨location, path, rest, name, hlocation, hitems, rfl, hends⟩ := h
  have hdump : Gives (isElsewhere (.text name) (.link i)) s false s := by
    refine (gives_field (by rw [hs.1, hlocation])).bind (gives_origin.bind ?_)
    rw [hs.1, hs.2.origins.1]
    have hfile : Gives (fileOf location) s (.text path) s :=
      (gives_items hitems).bind (.pure _ s)
    cases location with
    | nothing => cases hitems
    | _ =>
      refine hfile.bind ?_
      simp only [hends]
      exact .pure false s
  have hunit : Gives (isElsewhere (.text name) (.link j)) t false t := by
    obtain ⟨location', hlocation'⟩ := Option.isSome_iff_exists.1 hsettled.1
    refine (gives_field (by rw [Graph.field?_of_get? _ he', hlocation'])).bind
      (gives_origin.bind ?_)
    rw [hs.2.origins.2]
    exact .pure false t
  rw [gives_iff_outcome.1 hdump, gives_iff_outcome.1 hunit]
  exact .ok ⟨rfl, rfl⟩ hs

theorem inStep_moduleOf
    (h : List.Forall₂ (fun v w => Linked ρ Form.isItem v w ∧ IsHere g header v) vs ws) :
    InStep (Both ρ g) BareEq (moduleOf (.list vs) header) (moduleOf (.list ws) header) := by
  have hsteps : InStep (Both ρ g) (fun n m => 0 < n ∧ 0 < m ∧ MentionInStep ρ g n m) steps steps :=
    fun s t hs => .ok ⟨Nat.succ_pos _, Nat.succ_pos _, inStep_mention hs⟩ hs
  refine .bind hsteps fun n m ⟨hn, hm, hmention⟩ => ?_
  obtain ⟨n, rfl⟩ := Nat.exists_eq_add_one_of_ne_zero (Nat.ne_of_gt hn)
  obtain ⟨m, rfl⟩ := Nat.exists_eq_add_one_of_ne_zero (Nat.ne_of_gt hm)
  refine .bind (R := List.Forall₂ (fun v w => Linked ρ Form.isItem v w ∧ IsHere g header v))
    (.pure h) fun vs ws hvw => ?_
  refine .bind (R := List.Forall₂ (List.Forall₂ BareEq)) (.mapM ?_ hvw) fun stmts stmts' hstmts =>
    ?_
  · rintro _ _ ⟨⟨form, i, j, hρ, hitem, rfl, rfl⟩, hhere⟩
    refine .bind (inStep_isElsewhere hρ hhere) ?_
    rintro _ _ ⟨rfl, rfl⟩
    simp only [Bool.false_eq_true, if_false]
    exact inStep_defineStep (fun hρ => hmention hρ) hρ hitem _ _
  · have hflat : stmts'.flatten.map bare = stmts.flatten.map bare := by
      induction hstmts with
      | nil => rfl
      | cons hs _ ih =>
        rw [List.flatten_cons, List.flatten_cons, List.map_append, List.map_append, ih,
          map_bare_of_forall₂ hs]
    refine .bind (inStep_build rfl ?_) fun v w hvw => ?_
    · simp only [List.map_cons, List.map_nil, bare, bareAll_eq_map, hflat]
    · refine .bind (inStep_cdef hvw.1) fun v w hvw => ?_
      refine (inStep_build rfl ?_).mono fun _ _ h => h.1
      simp only [List.map_cons, List.map_nil, bare, bareAll, hvw]

end Steps

/-- **Dumps and units that have the same declarations are translated alike.** Both translations
stop, at the same fault, or both give files with the same name and the same text. -/
theorem agree_draft_of_twins {ρ : Pairing} {s t : Session} (h : Common ρ s.graph t.graph)
    {header : Value} {vs ws : List Value}
    (hitems : List.Forall₂ (fun v w => Linked ρ Form.isItem v w ∧ IsHere s.graph header v) vs ws)
    (stem : Value) :
    Agree (fun _ _ => True) (fun d d' => d'.filename = d.filename ∧ d'.code = d.code)
      (outcome (draft (.list vs) header stem) s) (outcome (draft (.list ws) header stem) t) := by
  have hdraft : InStep (Both ρ s.graph) (fun d d' => d'.filename = d.filename ∧ d'.code = d.code)
      (draft (.list vs) header stem) (draft (.list ws) header stem) := by
    refine .bind (inStep_moduleOf hitems) fun v w hvw => ?_
    cases stem with
    | text name => exact .pure ⟨rfl, by rw [Draft.code, Draft.code, renderModule_congr hvw]⟩
    | _ => exact .throw _
  exact (hdraft ⟨rfl, h⟩).mono (fun _ _ _ => trivial) fun _ _ h => h

/-- Nodes of a list, and a typedef for them. -/
def listGraph (origin : Origin) : Graph where
  origin := origin
  entries :=
    #[declared .fundamentalType [("name", .text "int")],
      declared .pointerType [("typ", .link 2)],
      declared .struct [("name", .text "node"), ("members", .list [.link 3, .link 4])],
      declared .field [("name", .text "next"), ("typ", .link 1)],
      declared .field [("name", .text "visit"), ("typ", .link 6)],
      declared .argument [("typ", .link 1), ("name", .nothing)],
      declared .functionType [("arguments", .list [.link 5]), ("returns", .link 0)],
      declared .typedef [("name", .text "node_t"), ("typ", .link 2)]]
where
  /-- A declaration with some of its fields. -/
  declared (form : Form) (fields : List (String × Value)) : Entry :=
    ⟨form, ("location", .tuple [.text "/usr/include/list.h", .int 1]) :: fields ++
      [("name", .text "")]⟩

/-- In the unit the callback has an `int` of its own, which makes one declaration more than in the
dump, and pointers to nodes wait for the name of a typedef. -/
def listUnit : Graph :=
  (((listGraph .unit).setField 1 "typedef_name" (.text "node_p")).setField 6 "returns"
    (.link 8)).add (listGraph.declared .fundamentalType [("name", .text "int")]) |>.2

def listPairs : List (Form × Nat × Nat) :=
  [(.fundamentalType, 0, 8), (.pointerType, 1, 1), (.struct, 2, 2), (.field, 3, 3), (.field, 4, 4),
    (.argument, 5, 5), (.functionType, 6, 6), (.typedef, 7, 7)]

def listPairing : Pairing := fun form i j => (form, i, j) ∈ listPairs

theorem common_list : Common listPairing (listGraph .dump) listUnit := by
  have hlink : ∀ {P : Form → Bool} form i j, (form, i, j) ∈ listPairs → P form = true →
      Linked listPairing P (.link i) (.link j) :=
    fun form i j hij hP => ⟨form, i, j, hij, hP, rfl, rfl⟩
  refine ⟨⟨rfl, rfl⟩, fun {form i j} h => ?_⟩
  simp only [listPairing, listPairs, List.mem_cons, Prod.mk.injEq, List.not_mem_nil, or_false] at h
  rcases h with ⟨rfl, rfl, rfl⟩ | ⟨rfl, rfl, rfl⟩ | ⟨rfl, rfl, rfl⟩ | ⟨rfl, rfl, rfl⟩ |
    ⟨rfl, rfl, rfl⟩ | ⟨rfl, rfl, rfl⟩ | ⟨rfl, rfl, rfl⟩ | ⟨rfl, rfl, rfl⟩
  · exact ⟨_, _, rfl, rfl, rfl, rfl, ⟨_, _, rfl, rfl, rfl⟩, rfl, _, rfl, .inl rfl⟩
  · exact ⟨_, _, rfl, rfl, rfl, rfl, ⟨_, _, rfl, rfl, hlink .struct 2 2 (by decide) rfl⟩, rfl, _,
      rfl, .inr (.inr rfl)⟩
  · refine ⟨_, _, rfl, rfl, rfl, rfl, ⟨⟨_, _, rfl, rfl, rfl, rfl⟩, _, _, rfl, rfl, _, _, rfl, rfl,
      ?_⟩, rfl, _, rfl, .inl rfl⟩
    exact .cons (hlink .field 3 3 (by decide) rfl) (.cons (hlink .field 4 4 (by decide) rfl) .nil)
  · exact ⟨_, _, rfl, rfl, rfl, rfl, ⟨⟨_, _, rfl, rfl, rfl⟩, _, _, rfl, rfl,
      hlink .pointerType 1 1 (by decide) rfl⟩, rfl, _, rfl, .inl rfl⟩
  · exact ⟨_, _, rfl, rfl, rfl, rfl, ⟨⟨_, _, rfl, rfl, rfl⟩, _, _, rfl, rfl,
      hlink .functionType 6 6 (by decide) rfl⟩, rfl, _, rfl, .inl rfl⟩
  · exact ⟨_, _, rfl, rfl, rfl, rfl, ⟨⟨_, _, rfl, rfl, rfl⟩, _, _, rfl, rfl,
      hlink .pointerType 1 1 (by decide) rfl⟩, rfl, _, rfl, .inr (.inl rfl)⟩
  · exact ⟨_, _, rfl, rfl, rfl, rfl, ⟨⟨_, _, rfl, rfl, _, _, rfl, rfl,
      .cons (hlink .argument 5 5 (by decide) rfl) .nil⟩, _, _, rfl, rfl,
      hlink .fundamentalType 0 8 (by decide) rfl⟩, rfl, _, rfl, .inr (.inl rfl)⟩
  · exact ⟨_, _, rfl, rfl, rfl, rfl, ⟨⟨_, _, rfl, rfl, rfl⟩, _, _, rfl, rfl,
      hlink .struct 2 2 (by decide) rfl⟩, rfl, _, rfl, .inl rfl⟩

theorem agree_draft_list :
    (outcome (draft (.list [.link 2, .link 7]) (.text "list.h") (.text "_list"))
      { graph := listGraph .dump }).1.toBool = true ∧
    (listGraph .dump).entries.size < listUnit.entries.size ∧
    Agree (fun _ _ => True) (fun d d' => d'.filename = d.filename ∧ d'.code = d.code)
      (outcome (draft (.list [.link 2, .link 7]) (.text "list.h") (.text "_list"))
        { graph := listGraph .dump })
      (outcome (draft (.list [.link 2, .link 7]) (.text "list.h") (.text "_list"))
        { graph := listUnit }) := by
  have hpair : ∀ form i, (form, i, i) ∈ listPairs → listPairing form i i := fun _ _ h => h
  have hhere : ∀ i ∈ [2, 7], IsHere (listGraph .dump) (.text "list.h") (.link i) := by
    intro i hi
    have hends : "/usr/include/list.h".endsWith "list.h" = true := by decide +kernel
    rcases List.mem_pair.1 hi with rfl | rfl <;> exact ⟨_, _, _, _, rfl, rfl, rfl, hends⟩
  refine ⟨by decide +kernel, by decide, agree_draft_of_twins
    (s := ⟨listGraph .dump, _, _, _, _, _, _, _, _, _, _, _⟩) common_list ?_ _⟩
  exact .cons ⟨⟨.struct, 2, 2, hpair _ _ (by decide), rfl, rfl, rfl⟩, hhere 2 (by decide)⟩
    (.cons ⟨⟨.typedef, 7, 7, hpair _ _ (by decide), rfl, rfl, rfl⟩, hhere 7 (by decide)⟩ .nil)

end Decl

end PxdGen
