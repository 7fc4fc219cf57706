import PxdGen.Proofs.Decl.References
import PxdGen.Proofs.Declarator.CType
/-! # Typedefs in place of missing names

`Graph.isComplete` asks of a declaration that it has all that a mention needs, and so has everything
that it leads to. Then it can be mentioned (`answers_mention`).
-/

namespace PxdGen.Decl

open Work
open Pxd (Kind Family single)

variable {v w own : Value} {name : String} {ok : Value → Bool} {id : Nat}

/-! ### Complete declarations -/

/-- The family of what stands for a declaration where it is mentioned. -/
def Form.family? : Form → Option Family
  | .struct | .union | .enumeration | .typedef | .fundamentalType | .cppClass => some .ctype
  | .pointerType | .arrayType | .cvQualifiedType | .refType | .functionType => some .ctype
  | .argument => some .expr
  | .field | .enumValue | .function => some .stmt
  | _ => none

def isText (v : Value) : Bool := v.asText?.isSome

/-- The name of an argument, which may be missing. -/
def isParamName : Value → Bool
  | .nothing => true
  | v => isText v

def isBound : Value → Bool
  | .int _ | .flag _ => true
  | .text s => (Text.integer? s).isSome
  | _ => false

/-- The name of a declaration is as it should be, and so is that of its typedef if it has one. -/
def Graph.hasName (g : Graph) (ok : Value → Bool) (v : Value) : Bool :=
  (g.field? v "name").any ok && (g.field? v "typedef_name").all ok

/-- A field of a declaration holds a type that passes the check. -/
def Graph.leads (g : Graph) (check : Value → Bool) (v : Value) (name : String) : Bool :=
  (g.field? v name).any fun w => (g.form? w).bind Form.family? == some .ctype && check w

/-- The arguments of a declaration pass both checks. -/
def Graph.takes (g : Graph) (check each : Value → Bool) (v : Value) : Bool :=
  ((g.field? v "arguments").bind Value.items?).any fun args =>
    args.all fun arg => each arg && (g.form? arg == some .argument && check arg)

/-- A declaration has all that it takes to mention it, and so has all that it leads to in fewer
steps. -/
def Graph.isComplete (g : Graph) : Nat → Value → Bool
  | 0, _ => false
  | n + 1, v =>
    let leads := g.leads (g.isComplete n) v
    let takes := fun each => g.takes (g.isComplete n) each v
    match g.form? v with
    | some .struct | some .union | some .enumeration | some .typedef | some .fundamentalType
    | some .cppClass | some .enumValue => g.hasName isText v
    | some .pointerType | some .refType => leads "typ"
    | some .cvQualifiedType =>
      leads "typ" && ((g.field? v "const").isSome && (g.field? v "volatile").isSome)
    | some .arrayType => leads "typ" && ((g.field? v "min").any isBound && (g.field? v "max").any
      isBound)
    | some .field => leads "typ" && g.hasName isText v
    | some .argument => leads "typ" && g.hasName isParamName v
    | some .function => leads "returns" && (takes (fun _ => true) && g.hasName isText v)
    | some .functionType => leads "returns" && takes fun arg => (g.field? arg "typ").any
      (g.hasName isText)
    | _ => false

/-! ### Work that ends -/

variable {α β : Type}

/-- Whatever has been taken over, the work gives something, and it has the property. -/
def Answers (g : Graph) (x : Work α) (P : α → Prop) : Prop :=
  ∀ adopted s, Adopted g adopted s.graph →
    ∃ adopted' a s', Gives x s a s' ∧ P a ∧ Adopted g adopted' s'.graph

variable {Q : β → Prop} {P : α → Prop}

section Rules

variable {g : Graph} {x : Work α} {f : α → Work β}

theorem Answers.of_gives (h : ∀ adopted s, Adopted g adopted s.graph → ∃ a, Gives x s a s ∧ P a) :
    Answers g x P := by
  intro adopted s hs
  obtain ⟨a, hGives, ha⟩ := h adopted s hs
  exact ⟨adopted, a, s, hGives, ha, hs⟩

theorem Answers.pure {a : α} (h : P a) : Answers g (Pure.pure a) P :=
  .of_gives fun _ s _ => ⟨a, .pure a s, h⟩

theorem Answers.bind (hx : Answers g x P) (hf : ∀ a, P a → Answers g (f a) Q) :
    Answers g (x >>= f) Q := by
  intro adopted s hs
  obtain ⟨adopted₁, a, t, hx', ha, ht⟩ := hx adopted s hs
  obtain ⟨adopted₂, b, u, hf', hb, hu⟩ := hf a ha adopted₁ t ht
  exact ⟨adopted₂, b, u, Gives.bind hx' hf', hb, hu⟩

theorem Answers.mono {Q : α → Prop} (hx : Answers g x P) (h : ∀ a, P a → Q a) : Answers g x Q := by
  intro adopted s hs
  obtain ⟨adopted', a, s', hGives, ha, hs'⟩ := hx adopted s hs
  exact ⟨adopted', a, s', hGives, h a ha, hs'⟩

theorem Answers.mapM {f : α → Work β} {P : β → Prop} (as : List α)
    (h : ∀ a ∈ as, Answers g (f a) P) : Answers g (as.mapM f) fun bs => ∀ b ∈ bs, P b := by
  induction as with
  | nil =>
    rw [List.mapM_nil]
    exact .pure (by simp)
  | cons a as ih =>
    rw [List.mapM_cons]
    refine (h a (by simp)).bind fun b hb => ?_
    refine (ih fun c hc => h c (by simp [hc])).bind fun bs hbs => .pure ?_
    exact List.forall_mem_cons.2 ⟨hb, hbs⟩

theorem answers_field (hName : name ≠ "name")
    (h : g.field? v name = some w) : Answers g (field v name) (· = w) :=
  .of_gives fun _ _ hs => ⟨w, gives_field ((hs.keeps.fields v name hName).trans h), rfl⟩

theorem answers_origin : Answers g origin (· = g.origin) :=
  .of_gives fun _ _ hs => ⟨_, gives_origin, hs.keeps.origin⟩

theorem answers_get : Answers g get fun s => ∀ v, s.graph.form? v = g.form? v :=
  .of_gives fun _ s hs => ⟨s, gives_get.2 ⟨rfl, rfl⟩, hs.keeps.forms⟩

theorem answers_build {kind : Kind} {args : List Value} (h : Pxd.build kind args = .ok w) :
    Answers g (build kind args) (· = w) :=
  .of_gives fun _ s _ => ⟨w, by rw [build, h]; exact .pure w s, rfl⟩

theorem answers_namedType {name : Value} (h : isText name = true) :
    Answers g (namedType name) (·.isOf .ctype = true) := by
  cases name with
  | text name => exact .of_gives fun _ s _ => ⟨_, rfl, rfl⟩
  | _ => cases h

theorem Graph.calledAs_of_hasName (h : g.hasName ok (.link id) = true)
    (hOwn : ok own = true) (byTypedef : Bool) : ok (g.calledAs id own byTypedef) = true := by
  unfold calledAs
  split
  · simp only [hasName, Bool.and_eq_true] at h
    cases hTypedef : g.field? (.link id) "typedef_name" with
    | none => exact hOwn
    | some name => simpa [hTypedef] using h.2
  · exact hOwn

theorem Graph.exists_of_hasName (h : g.hasName ok v = true) :
    ∃ id own, v = .link id ∧ g.field? v "name" = some own ∧ ok own = true := by
  simp only [hasName, Bool.and_eq_true, Option.any_eq_true] at h
  obtain ⟨⟨own, hOwn, hOk⟩, -⟩ := h
  cases v with
  | link id => exact ⟨id, own, rfl, hOwn, hOk⟩
  | _ => cases hOwn

theorem answers_name (h : g.hasName ok v = true) : Answers g (field v "name") (ok · = true) := by
  obtain ⟨id, own, rfl, hOwn, hOk⟩ := g.exists_of_hasName h
  refine .of_gives fun adopted s hs => ⟨g.calledAs id own (adopted.contains id), gives_field ?_, ?_⟩
  · rw [hs.name, Graph.nameAfter, hOwn]
    rfl
  · exact g.calledAs_of_hasName h hOk _

theorem answers_typedefName (v : Value) :
    Answers g (field? v "typedef_name") (· = g.field? v "typedef_name") :=
  .of_gives fun _ s hs => ⟨s.graph.field? v "typedef_name", rfl, hs.keeps.fields v _ (by decide)⟩

theorem answers_structName (ho : g.origin = .unit) (h : g.hasName isText v = true) :
    Answers g (structName v) (isText · = true) := by
  refine (answers_name h).bind fun name hName => answers_origin.bind ?_
  rintro _ rfl
  rw [ho]
  dsimp only
  split
  · exact .pure hName
  · refine (answers_typedefName v).bind ?_
    rintro _ rfl
    simp only [Graph.hasName, Bool.and_eq_true] at h
    refine .pure ?_
    cases hTypedef : g.field? v "typedef_name" with
    | none => exact hName
    | some name => simpa [hTypedef] using h.2

theorem answers_adoptTypedefName {arg : Value}
    (h : (g.field? arg "typ").any (g.hasName isText) = true) :
    Answers g (adoptTypedefName arg) fun _ => True := by
  obtain ⟨type, hType, hName⟩ := (Option.any_eq_true _ _).1 h
  obtain ⟨id, -, rfl, -⟩ := g.exists_of_hasName hName
  intro adopted s hs
  have hTyp := gives_field ((hs.keeps.fields arg "typ" (by decide)).trans hType)
  obtain ⟨_, name, t, hField, -⟩ := answers_name hName adopted s hs
  obtain rfl := (gives_field_iff.1 hField).2
  -- the work ends, and what it leaves is known then
  obtain ⟨s', hGives⟩ : ∃ s', Gives (adoptTypedefName arg) s () s' := by
    cases hTrue : name.isTrue with
    | true => exact ⟨s, Gives.bind hTyp (Gives.bind hField (by simp only [hTrue]; exact .pure _ _))⟩
    | false =>
      have hTypedef : Gives (field? (.link id) "typedef_name") s
        (s.graph.field? (.link id) "typedef_name") s := rfl
      cases hValue : s.graph.field? (.link id) "typedef_name" with
      | none =>
        rw [hValue] at hTypedef
        refine ⟨s, Gives.bind hTyp (Gives.bind hField ?_)⟩
        rw [hTrue]
        exact Gives.bind hTypedef (.pure _ _)
      | some other =>
        rw [hValue] at hTypedef
        refine ⟨{ s with graph := s.graph.setField id "name" other },
          Gives.bind hTyp (Gives.bind hField ?_)⟩
        rw [hTrue]
        exact Gives.bind hTypedef (gives_setField id "name" other)
  exact ⟨_, (), s', hGives, trivial, (speaks_adoptTypedefName g arg adopted s () s' hs hGives).1⟩

theorem answers_asInteger (h : isBound v = true) : Answers g (asInteger v) fun _ => True := by
  unfold asInteger
  cases v with
  | int n | flag b => exact .pure trivial
  | text s =>
    obtain ⟨n, hn⟩ := Option.isSome_iff_exists.1 h
    simp only [hn]
    exact .pure trivial
  | _ => cases h

end Rules

/-! ### Complete declarations can be mentioned -/

section Step

variable {g : Graph} {n : Nat} {sub : Value → Work Value}
  (hSub : ∀ v family, g.isComplete n v = true → (g.form? v).bind Form.family? = some family →
    Answers g (sub v) (·.isOf family = true))

include hSub

theorem answers_next (hName : name ≠ "name") (h : g.leads (g.isComplete n) v name = true)
    {f : Value → Work β} (hf : ∀ w, w.isOf .ctype = true → Answers g (f w) Q) :
    Answers g (do f (← sub (← field v name))) Q := by
  obtain ⟨w, hw, hBoth⟩ := (Option.any_eq_true _ _).1 h
  simp only [Bool.and_eq_true, beq_iff_eq] at hBoth
  refine (answers_field hName hw).bind ?_
  rintro _ rfl
  exact (hSub _ _ hBoth.2 hBoth.1).bind hf

theorem answers_mentionSignature {each : Value → Work Unit} {e : Value → Bool}
    (hEach : ∀ arg, e arg = true → Answers g (each arg) fun _ => True)
    (hReturns : g.leads (g.isComplete n) v "returns" = true)
      (hArgs : g.takes (g.isComplete n) e v = true) :
    Answers g (mentionSignature sub v each) fun r =>
      ∃ args, r.1 = Pxd.argumentsValue args ∧ r.2.isOf .ctype = true := by
  obtain ⟨args, hItems, hAll⟩ := (Option.any_eq_true _ _).1 hArgs
  obtain ⟨list, hList, hItems⟩ := Option.bind_eq_some_iff.1 hItems
  have hFieldItems : Answers g (fieldItems v "arguments") (· = args) := by
    refine (answers_field (by decide) hList).bind ?_
    rintro _ rfl
    exact .of_gives fun _ s _ => ⟨args, gives_items hItems, rfl⟩
  have hMentions : Answers g (args.mapM fun arg => do each arg; sub arg)
      fun bs => ∀ b ∈ bs, b.isOf .expr = true := by
    refine .mapM args fun arg hArg => ?_
    have hOne := List.all_eq_true.1 hAll arg hArg
    simp only [Bool.and_eq_true, beq_iff_eq] at hOne
    refine (hEach arg hOne.1).bind fun _ _ => hSub arg _ hOne.2.2 ?_
    rw [hOne.2.1]
    rfl
  refine hFieldItems.bind ?_
  rintro _ rfl
  refine hMentions.bind fun args' hArgs' => ?_
  refine (answers_build (Pxd.buildArguments_eq hArgs')).bind ?_
  rintro _ rfl
  exact answers_next hSub (by decide) hReturns fun returns hOf => .pure ⟨args', rfl, hOf⟩

theorem answers_mentionStep (ho : g.origin = .unit) {family : Family}
    (h : g.isComplete (n + 1) v = true) (hFamily : (g.form? v).bind Form.family? = some family) :
    Answers g (mentionStep sub v) (·.isOf family = true) := by
  refine answers_origin.bind ?_
  rintro _ rfl
  refine answers_get.bind fun t ht => ?_
  rw [ht v, ho]
  obtain ⟨form, hForm, hFamily⟩ := Option.bind_eq_some_iff.1 hFamily
  rw [hForm]
  simp only [Graph.isComplete, hForm] at h
  cases form with
  | struct =>
    cases hFamily
    exact (answers_structName ho h).bind fun _ => answers_namedType
  | union | enumeration | typedef | fundamentalType | cppClass =>
    cases hFamily
    exact (answers_name h).bind fun _ => answers_namedType
  | enumValue =>
    cases hFamily
    refine (answers_name h).bind fun name hName => ?_
    cases name with
    | text name => exact .of_gives fun _ s _ => ⟨_, rfl, rfl⟩
    | _ => cases hName
  | pointerType =>
    cases hFamily
    refine answers_next hSub (by decide) h fun w hw => ?_
    exact (answers_build (Pxd.build_pointer_eq hw false)).mono (by rintro _ rfl; rfl)
  | refType =>
    cases hFamily
    refine answers_next hSub (by decide) h fun w hw => ?_
    exact (answers_build (Pxd.build_reference_eq hw)).mono (by rintro _ rfl; rfl)
  | cvQualifiedType =>
    cases hFamily
    simp only [Bool.and_eq_true, Option.isSome_iff_exists] at h
    obtain ⟨hTyp, ⟨constant, hConst⟩, ⟨volatile, hVolatile⟩⟩ := h
    refine answers_next hSub (by decide) hTyp fun w hw => ?_
    refine (answers_field (by decide) hConst).bind fun _ _ =>
      (answers_field (by decide) hVolatile).bind fun _ _ => ?_
    cases w with
    | node kind fields => exact .pure hw
    | _ => cases hw
  | arrayType =>
    cases hFamily
    obtain ⟨hTyp, hBounds⟩ := Bool.and_eq_true_iff.1 h
    simp only [Bool.and_eq_true, Option.any_eq_true] at hBounds
    obtain ⟨⟨first, hMin, hFirst⟩, ⟨last, hMax, hLast⟩⟩ := hBounds
    refine (answers_field (by decide) hMin).bind ?_
    rintro _ rfl
    refine (answers_asInteger hFirst).bind fun _ _ => (answers_field (by decide) hMax).bind ?_
    rintro _ rfl
    refine (answers_asInteger hLast).bind fun _ _ => ?_
    refine answers_next hSub (by decide) hTyp fun w hw => ?_
    exact (answers_build (Pxd.build_array_eq hw _)).mono (by rintro _ rfl; rfl)
  | field =>
    cases hFamily
    obtain ⟨hTyp, hName⟩ := Bool.and_eq_true_iff.1 h
    refine (answers_name hName).bind fun name hText => answers_next hSub (by decide) hTyp fun w
      hw => ?_
    cases name with
    | text name =>
      refine (answers_build (Pxd.build_cName_eq hw name)).bind ?_
      rintro _ rfl
      exact .of_gives fun _ s _ => ⟨_, rfl, rfl⟩
    | _ => cases hText
  | argument =>
    cases hFamily
    obtain ⟨hTyp, hName⟩ := Bool.and_eq_true_iff.1 h
    refine (answers_name hName).bind fun name hText => answers_next hSub (by decide) hTyp fun w
      hw => ?_
    cases name with
    | nothing => exact (answers_build (Pxd.build_cName_eq hw "")).mono (by rintro _ rfl; rfl)
    | text name => exact (answers_build (Pxd.build_cName_eq hw name)).mono (by rintro _ rfl; rfl)
    | _ => cases hText
  | functionType =>
    cases hFamily
    obtain ⟨hReturns, hArgs⟩ := Bool.and_eq_true_iff.1 h
    refine (answers_mentionSignature hSub (fun _ => answers_adoptTypedefName) hReturns hArgs).bind
      ?_
    rintro ⟨_, returns⟩ ⟨args, rfl, hOf⟩
    exact (answers_build (Pxd.build_cFunctionType_eq hOf args)).mono (by rintro _ rfl; rfl)
  | function =>
    cases hFamily
    obtain ⟨hReturns, hBoth⟩ := Bool.and_eq_true_iff.1 h
    obtain ⟨hArgs, hName⟩ := Bool.and_eq_true_iff.1 hBoth
    refine (answers_name hName).bind fun name hText => ?_
    refine (answers_mentionSignature hSub (fun _ _ => .pure trivial) hReturns hArgs).bind ?_
    rintro ⟨_, returns⟩ ⟨args, rfl, hOf⟩
    cases name with
    | text name =>
      exact (answers_build (Pxd.build_cFunctionDecl_eq hOf name args)).mono (by rintro _ rfl; rfl)
    | _ => cases hText
  | _ => cases hFamily

end Step

theorem Graph.exists_family_of_isComplete (g : Graph) {n : Nat} (h : g.isComplete n v = true) :
    ∃ family, (g.form? v).bind Form.family? = some family := by
  cases n with
  | zero => cases h
  | succ n =>
    rw [Graph.isComplete] at h
    cases hForm : g.form? v with
    | none => simp [hForm] at h
    | some form =>
      cases hFamily : form.family? with
      | none => cases form <;> simp [Form.family?, hForm] at hFamily h
      | some family => exact ⟨family, hFamily⟩

/-- **A complete declaration can be mentioned.** -/
theorem answers_mention (g : Graph) (ho : g.origin = .unit) (n : Nat) :
    ∀ v family, g.isComplete n v = true → (g.form? v).bind Form.family? = some family →
      Answers g (mention n v) (·.isOf family = true) := by
  induction n with
  | zero =>
    intro v family h
    cases h
  | succ n ih =>
    intro v family h hFamily
    refine (answers_mentionStep ih ho h hFamily).bind fun w hw => ?_
    cases w with
    | node kind fields => exact .pure hw
    | _ => cases hw

/-! ### Names read off the events -/

def Event.isRefer : Event → Bool
  | .refer _ => true
  | .adopt _ => false

theorem mem_adoptees (adopted : List Nat) (es : List Event) :
    id ∈ adoptees adopted es ↔ id ∈ adopted ∨ .adopt id ∈ es := by
  induction es generalizing adopted with
  | nil => simp [adoptees]
  | cons e es ih =>
    cases e with
    | adopt other =>
      rw [adoptees, ih]
      simp only [List.mem_cons, Event.adopt.injEq]
      tauto
    | refer other => simp [adoptees, ih]

namespace Graph

variable (g : Graph)

theorem length_referredNames (adopted : List Nat) (es : List Event) :
    (g.referredNames adopted es).length = es.countP Event.isRefer := by
  induction es generalizing adopted with
  | nil => rfl
  | cons e es ih => cases e <;> simp [referredNames, List.countP_cons, Event.isRefer, ih]

theorem getElem?_referredNames (adopted : List Nat) (before after : List Event) (id : Nat) :
    (g.referredNames adopted (before ++ .refer id :: after))[before.countP Event.isRefer]? =
      some (g.referredName (adoptees adopted before) id) := by
  rw [referredNames_append, ← g.length_referredNames adopted before, List.getElem?_append_right
    (Nat.le_refl _)]
  simp [referredNames]

theorem mem_referredNames {name : Value} {adopted : List Nat} {es : List Event}
    (h : name ∈ g.referredNames adopted es) : ∃ before id after,
      es = before ++ .refer id :: after ∧ name = g.referredName (adoptees adopted before) id := by
  induction es generalizing adopted with
  | nil => cases h
  | cons e es ih =>
    cases e with
    | adopt other =>
      obtain ⟨before, id, after, rfl, hName⟩ := ih h
      exact ⟨.adopt other :: before, id, after, rfl, hName⟩
    | refer other =>
      rcases List.mem_cons.1 h with rfl | h
      · exact ⟨[], other, es, rfl, rfl⟩
      · obtain ⟨before, id, after, rfl, hName⟩ := ih h
        exact ⟨.refer other :: before, id, after, rfl, hName⟩

theorem nameAfter_adoptees (h : g.field? (.link id) "name" = some own)
    (es : List Event) :
    g.nameAfter (adoptees [] es) id = some (g.calledAs id own (decide (.adopt id ∈ es))) := by
  have hMem : (adoptees [] es).contains id = decide (.adopt id ∈ es) := by
    simp [mem_adoptees]
  rw [nameAfter, h, Option.map_some, hMem]

theorem referredName_adoptees (h : g.field? (.link id) "name" = some own)
    (before : List Event) : g.referredName (adoptees [] before) id =
      g.calledAs id own (g.hasForm (.link id) .struct || decide (.adopt id ∈ before)) := by
  unfold referredName
  cases hForm : g.hasForm (.link id) .struct with
  | true => simp [nameAfter, h]
  | false => simp [nameAfter_adoptees g h]

theorem isTrue_calledAs_iff {byTypedef : Bool}
    (h : own.isTrue = false → ∃ name, g.field? (.link id) "typedef_name" = some name ∧
    name.isTrue = true) :
    (g.calledAs id own byTypedef).isTrue = true ↔ own.isTrue = true ∨ byTypedef = true := by
  unfold calledAs
  cases hOwn : own.isTrue with
  | true => simp [hOwn]
  | false =>
    obtain ⟨name, hName, hTrue⟩ := h hOwn
    cases byTypedef <;> simp [hName, hTrue, hOwn]

end Graph

/-- **References go by typedefs.** A complete declaration can be mentioned. In what stands for it,
there is one name for each time a declaration is referred to: the declaration's own name, or that of
its typedef if its own is empty and it is a struct or has been the type of an argument of a function
type before. So, if everything without a name has a typedef, no name is empty exactly if each union
or enumeration without a name that is referred to has been such a type before. Nothing changes but
the names that are taken over. -/
theorem references_by_typedef {s : Session} (ho : s.graph.origin = .unit) (n : Nat) (v : Value) :
    (s.graph.isComplete n v = true → ∃ w s', Gives (mention n v) s w s') ∧
    ∀ w s', Gives (mention n v) s w s' →
      (typeNames w).length = (s.graph.events n v).countP Event.isRefer ∧
      (∀ before id after own, s.graph.events n v = before ++ .refer id :: after →
        s.graph.field? (.link id) "name" = some own →
          (typeNames w)[before.countP Event.isRefer]? = some (s.graph.calledAs id own
            (s.graph.hasForm (.link id) .struct || decide (.adopt id ∈ before)))) ∧
      ((∀ id, .refer id ∈ s.graph.events n v → ∃ own, s.graph.field? (.link id) "name" = some own ∧
          (own.isTrue = false → ∃ name, s.graph.field? (.link id) "typedef_name" = some name ∧
          name.isTrue = true)) →
        ((∀ name ∈ typeNames w, name.isTrue = true) ↔
          ∀ before id after own, s.graph.events n v = before ++ .refer id :: after →
            s.graph.field? (.link id) "name" = some own → own.isTrue = false →
              s.graph.hasForm (.link id) .struct = true ∨ .adopt id ∈ before)) ∧
      s.graph.KeepsAllButNames s'.graph ∧
      ∀ id own, s.graph.field? (.link id) "name" = some own → s'.graph.field? (.link id) "name" =
        some (s.graph.calledAs id own (decide (.adopt id ∈ s.graph.events n v))) := by
  refine ⟨fun hComplete => ?_, fun w s' hGives => ?_⟩
  · obtain ⟨family, hFamily⟩ := s.graph.exists_family_of_isComplete hComplete
    obtain ⟨_, w, s', hGives, -⟩ := answers_mention s.graph ho n v family hComplete hFamily [] s
      (.refl _)
    exact ⟨w, s', hGives⟩
  obtain ⟨hAdopted, hNames⟩ := speaks_mention s.graph ho n v [] s w s' (.refl _) hGives
  rw [hNames]
  refine ⟨s.graph.length_referredNames _ _, fun before id after own hEvents hOwn => ?_,
    fun hTypedefs => ⟨?_, ?_⟩, hAdopted.keeps, fun id own hOwn => ?_⟩
  · rw [hEvents, s.graph.getElem?_referredNames, s.graph.referredName_adoptees hOwn]
  · intro hTrue before id after own hEvents hOwn hEmpty
    have hName :
        s.graph.referredName (adoptees [] before) id ∈ s.graph.referredNames []
        (s.graph.events n v) :=
      List.mem_of_getElem? (hEvents ▸ s.graph.getElem?_referredNames [] before after id)
    have hTrue := hTrue _ hName
    obtain ⟨own', hOwn', hTypedef⟩ := hTypedefs id (by simp [hEvents])
    obtain rfl : own = own' := Option.some.inj (hOwn.symm.trans hOwn')
    rw [s.graph.referredName_adoptees hOwn, s.graph.isTrue_calledAs_iff hTypedef] at hTrue
    simpa [hEmpty] using hTrue
  · intro hAll name hName
    obtain ⟨before, id, after, hEvents, rfl⟩ := s.graph.mem_referredNames hName
    obtain ⟨own, hOwn, hTypedef⟩ := hTypedefs id (by simp [hEvents])
    rw [s.graph.referredName_adoptees hOwn, s.graph.isTrue_calledAs_iff hTypedef]
    cases hEmpty : own.isTrue with
    | true => exact .inl rfl
    | false => exact .inr (by simpa using hAll before id after own hEvents hOwn hEmpty)
  · rw [hAdopted.name, s.graph.nameAfter_adoptees hOwn]

/-- A function type that takes an enumeration and a pointer to a struct and returns a union, none of
which has a name. -/
def callback : Graph where
  origin := .unit
  entries := #[
    ⟨.functionType,
    [("name", .text ""), ("returns", .link 5), ("arguments", .list [.link 1, .link 2])]⟩,
    ⟨.argument, [("name", .nothing), ("typ", .link 3)]⟩,
    ⟨.argument, [("name", .nothing), ("typ", .link 6)]⟩,
    ⟨.enumeration, [("name", .text ""), ("typedef_name", .text "E")]⟩,
    ⟨.struct, [("name", .text ""), ("typedef_name", .text "S")]⟩,
    ⟨.union, [("name", .text ""), ("typedef_name", .text "U")]⟩,
    ⟨.pointerType, [("name", .text ""), ("typ", .link 4)]⟩]

theorem mention_callback : callback.isComplete 4 (.link 0) = true ∧
    ∃ w s', Gives (mention 4 (.link 0)) { graph := callback } w s' ∧
      (typeNames w)[0]? = some (.text "E") ∧ (typeNames w)[1]? = some (.text "S") ∧
      (typeNames w)[2]? = some (.text "") ∧ (¬ ∀ name ∈ typeNames w, name.isTrue = true) ∧
      s'.graph.field? (.link 3) "name" = some (.text "E") := by
  have hComplete : callback.isComplete 4 (.link 0) = true := by decide
  have hEvents :
    callback.events 4 (.link 0) = [.adopt 3, .refer 3, .adopt 6, .refer 4, .refer 5] := by decide
  obtain ⟨hEnds, hAll⟩ := references_by_typedef (s := { graph := callback }) rfl 4 (.link 0)
  obtain ⟨w, s', hGives⟩ := hEnds hComplete
  obtain ⟨-, hNames, hEmpty, -, hAfter⟩ := hAll w s' hGives
  refine ⟨hComplete, w, s', hGives, ?_, ?_, ?_, fun hTrue => ?_, ?_⟩
  · exact hNames [.adopt 3] 3 _ (.text "") hEvents rfl
  · exact hNames [.adopt 3, .refer 3, .adopt 6] 4 _ (.text "") hEvents rfl
  · exact hNames [.adopt 3, .refer 3, .adopt 6, .refer 4] 5 _ (.text "") hEvents rfl
  · have hTypedefs : ∀ id, .refer id ∈ callback.events 4 (.link 0) → ∃ own,
        callback.field? (.link id) "name" = some own ∧ (own.isTrue = false → ∃ name,
          callback.field? (.link id) "typedef_name" = some name ∧ name.isTrue = true) := by
      intro id hid
      rw [hEvents] at hid
      simp only [List.mem_cons, reduceCtorEq, Event.refer.injEq, List.not_mem_nil, or_false,
        false_or] at hid
      rcases hid with rfl | rfl | rfl
      all_goals exact ⟨_, rfl, fun _ => ⟨_, rfl, by decide⟩⟩
    have hUnion := (hEmpty hTypedefs).1 hTrue [.adopt 3, .refer 3, .adopt 6, .refer 4] 5 []
      (.text "") hEvents rfl rfl
    revert hUnion
    decide
  · exact hAfter 3 (.text "") rfl

end PxdGen.Decl
