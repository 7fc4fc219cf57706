import PxdGen.Proofs.Decl.Alike
import PxdGen.Proofs.Dump.Renaming
/-! # What an element makes

Reading the start of an element looks at its attributes, then makes a declaration or stops. Neither
the session nor the keys that the attributes hold have a say in which of the two happens, and when
the keys are renamed the declaration that is made has the new keys where it would have had the old
ones.
-/

namespace PxdGen.Decl

open Work

variable {name : String} {form : Form} {v : Value} {ρ : String → String} {e' : Entry}

/-! ### New declarations -/

/-- What corresponds in two new declarations that were read under other keys. -/
def Fresh (ρ : String → String) (name : String) (v w : Value) : Prop :=
  match name with
  | "typ" | "returns" | "context" => ∃ k, v = .text k ∧ w = .text (ρ k)
  | "members" | "bases" => ∃ ks, v = Dump.textList ks ∧ w = Dump.textList (ks.map ρ)
  | "arguments" | "values" => v = .list [] ∧ w = .list []
  | "location" => (v = .nothing ∧ w = .nothing) ∨ ∃ l l', v = .text l ∧ w = .text l' ∧
      ∀ file line, Text.pieces ':' l = [file, line] → Text.pieces ':' l' = [ρ file, line]
  | "name" => w = v ∧ (v = .nothing ∨ ∃ a, v = .text a)
  | _ => w = v

/-- The fields that hold a key until it is resolved. -/
def singleFields : List String := ["typ", "returns", "context"]

def listFields : List String := ["members", "bases"]

def keyFields : List String := singleFields ++ listFields

theorem mem_keyFields :
    name ∈ keyFields ↔ name ∈ singleFields ∨ name ∈ listFields := List.mem_append

theorem ne_location_of_mem (h : name ∈ keyFields) : name ≠ "location" :=
  (by decide : ∀ n ∈ keyFields, n ≠ "location") name h

/-- The field in which keys stand, if they stand in one. -/
def KeyPlace.field? : KeyPlace → Option String
  | .one name | .many name | .each name => some name
  | .arguments => none

/-- The fields of a form that hold keys. -/
def keysOf : Form → List String
  | .argument => ["typ"]
  | form => ((keyPlaces? .dump form).getD []).filterMap KeyPlace.field?

/-- The fields that a declaration of a form has from the start. -/
def neededOf (form : Form) : List String :=
  if takesArguments form then "arguments" :: "name" :: keysOf form else "name" :: keysOf form

/-- Declarations that stand for themselves, and not as a part of another one. -/
def isStanding (form : Form) : Bool :=
  match form with
  | .argument | .enumValue => false
  | _ => true

/-- Whether a field of a declaration can hold a value. Keys and arguments stand where the form says,
and parts have no location. -/
def mayHold (form : Form) (name : String) (v : Value) : Bool :=
  if name == "arguments" then takesArguments form
  else if name == "location" then isStanding form || v matches .nothing
  else !keyFields.contains name || (keysOf form).contains name

theorem mayHold_location (h : isStanding form = true) (v : Value) :
    mayHold form "location" v = true := by
  show (isStanding form || _) = true
  rw [h]
  rfl

/-- A declaration of a form that can be resolved, or an argument, which holds what its form says. -/
def Entry.isShaped (e : Entry) : Bool :=
  (e.form == .argument || (keyPlaces? .dump e.form).isSome) &&
    (e.fields.all (fun f => mayHold e.form f.1 f.2) &&
      (neededOf e.form).all fun name => (e.get? name).isSome)

variable {e : Entry} {args args' : List Value} {fields : List (String × Value)}

theorem mem_of_lookup (h : fields.lookup name = some v) : (name, v) ∈ fields := by
  induction fields with
  | nil => cases h
  | cons g fields ih =>
    obtain ⟨n, w⟩ := g
    rw [List.lookup_cons] at h
    split at h
    · rename_i hn
      obtain rfl := Option.some.inj h
      rw [beq_iff_eq.1 hn]
      exact List.mem_cons_self
    · exact List.mem_cons_of_mem _ (ih h)

namespace Entry.isShaped

variable {e : Entry} (h : e.isShaped = true)

include h

theorem resolvable (hform : e.form ≠ .argument) :
    ∃ places, keyPlaces? .dump e.form = some places := by
  rw [Entry.isShaped, Bool.and_eq_true, Bool.or_eq_true, beq_iff_eq] at h
  exact Option.isSome_iff_exists.1 (h.1.resolve_left hform)

theorem mayHold {name : String} {v : Value} (hv : e.get? name = some v) :
    Decl.mayHold e.form name v = true := by
  rw [Entry.isShaped, Bool.and_eq_true, Bool.and_eq_true, List.all_eq_true] at h
  exact h.2.1 (name, v) (mem_of_lookup hv)

theorem needed (hname : name ∈ neededOf e.form) : ∃ v, e.get? name = some v := by
  rw [Entry.isShaped, Bool.and_eq_true, Bool.and_eq_true,
    List.all_eq_true (p := fun name => (e.get? name).isSome)] at h
  exact Option.isSome_iff_exists.1 (h.2.2 name hname)

end Entry.isShaped

/-- Two new declarations of a form that were read under other keys. -/
structure NewPair (ρ : String → String) (form : Form) (e e' : Entry) : Prop where
  pairs : e.Pairs (Fresh ρ) e'
  form : e.form = form
  shaped : e.isShaped = true

theorem NewPair.parts (h : NewPair ρ form e e') {slot : String}
    (hslot : slot = "arguments" ∨ slot = "values") (v : Value) (hv : e.get? slot = some v) :
    v = .list [] := by
  obtain ⟨w, -, hvw⟩ := h.pairs.get? hv
  rcases hslot with rfl | rfl <;> exact hvw.1

/-- What a field can hold before keys are resolved, lists of parts apart. -/
def Unread (name : String) (v : Value) : Prop :=
  name ≠ "arguments" → name ≠ "values" → ∃ ρ w, Fresh ρ name v w

theorem NewPair.unread (h : NewPair ρ form e e') (hv : e.get? name = some v) : Unread name v := by
  intro _ _
  obtain ⟨w, -, hvw⟩ := h.pairs.get? hv
  exact ⟨ρ, w, hvw⟩

/-! ### Work that looks at attributes only -/

variable {α β γ δ : Type}

/-- Whatever `x` gives, it changes nothing, and `y` gives something related from every session. -/
def Quiet (R : α → β → Prop) (x : Work α) (y : Work β) : Prop :=
  ∀ ⦃s a s'⦄, Gives x s a s' → s' = s ∧ ∃ b, R a b ∧ ∀ t, Gives y t b t

namespace Quiet

variable {R : α → β → Prop} {Q : γ → δ → Prop} {x : Work α} {y : Work β}

theorem pure {a : α} {b : β} (h : R a b) : Quiet R (Pure.pure a) (Pure.pure b) := by
  intro s a' s' hx
  obtain ⟨rfl, rfl⟩ := gives_pure.1 hx
  exact ⟨rfl, b, h, fun t => .pure b t⟩

theorem throw (e : Fault) : Quiet R (MonadExcept.throw e) y := fun _ _ _ hx => absurd hx gives_throw

end Quiet

/-- Whatever `x` gives, it has made a declaration, and so does `y` in every session of a dump. -/
def Makes (K : Entry → Entry → Prop) (x y : Work Value) : Prop :=
  ∀ ⦃s v s'⦄, s.graph.origin = .dump → Gives x s v s' →
    ∃ e e', K e e' ∧ v = .link s.graph.entries.size ∧ s' = { s with graph := (s.graph.add e).2 } ∧
      ∀ t : Session, t.graph.origin = .dump →
        Gives y t (.link t.graph.entries.size) { t with graph := (t.graph.add e').2 }

variable {K : Entry → Entry → Prop}

theorem Quiet.makes {R : α → β → Prop} {x : Work α} {y : Work β} {f : α → Work Value}
    {g : β → Work Value} (hx : Quiet R x y) (hf : ∀ a b, R a b → Makes K (f a) (g b)) :
    Makes K (x >>= f) (y >>= g) := by
  intro s v s'' ho h
  obtain ⟨a, s', ha, h₁⟩ := gives_bind.1 h
  obtain ⟨rfl, b, hab, hb⟩ := hx ha
  obtain ⟨e, e', hK, rfl, rfl, hy⟩ := hf a b hab ho h₁
  exact ⟨e, e', hK, rfl, rfl, fun t ht => (hb t).bind (hy t ht)⟩

theorem Makes.mono {K' : Entry → Entry → Prop} {x y : Work Value} (h : Makes K x y)
    (hK : ∀ e e', K e e' → K' e e') : Makes K' x y := by
  intro s v s' ho hx
  obtain ⟨e, e', he, hrest⟩ := h ho hx
  exact ⟨e, e', hK e e' he, hrest⟩

theorem makes_make (he : Entry.make? .dump form args = some e)
    (he' : Entry.make? .dump form args' = some e') (hK : K e e') :
    Makes K (make form args) (make form args') := by
  intro s v s' ho h
  obtain ⟨rfl, rfl⟩ := (gives_make (s := s) (by rw [ho, he])).unique h
  exact ⟨e, e', hK, rfl, rfl, fun t ht => gives_make (by rw [ht, he'])⟩

/-- New declarations have no location yet. -/
theorem makes_new {fields' : List (String × Value)}
    (he : Entry.make? .dump form args = some ⟨form, ("location", .nothing) :: fields⟩)
    (he' : Entry.make? .dump form args' = some ⟨form, ("location", .nothing) :: fields'⟩)
    (hShaped : Entry.isShaped ⟨form, ("location", .nothing) :: fields⟩ = true)
    (h : List.Forall₂ (fun f g => g.1 = f.1 ∧ Fresh ρ f.1 f.2 g.2) fields fields') :
    Makes (NewPair ρ form) (make form args) (make form args') :=
  makes_make he he' ⟨⟨rfl, .cons ⟨rfl, .inl ⟨rfl, rfl⟩⟩ h⟩, rfl, hShaped⟩

end PxdGen.Decl

namespace PxdGen.Dump

open Decl Decl.Work

/-- Attributes as they are handed to readers. -/
def attrsValue (attrs : List (String × String)) : Value :=
  .record (attrs.map fun (n, s) => (n, .text s))

theorem lookup_attrs (attrs : List (String × String)) (name : String) :
    (attrs.map fun (n, s) => (n, Value.text s)).lookup name = (attrs.lookup name).map .text :=
  lookup_map_value (fun _ => Value.text) attrs name

def IsKeyPair (ρ : String → String) (v w : Value) : Prop := ∃ k, v = .text k ∧ w = .text (ρ k)

/-- Equal values that are nothing or a text. -/
def IsName (v w : Value) : Prop := w = v ∧ (v = .nothing ∨ ∃ a, v = .text a)

variable {form : Form} {v w : Value}

theorem quiet_demangled (h : IsName v w) : Quiet IsName (demangled v) (demangled w) := by
  obtain ⟨rfl, rfl | ⟨a, rfl⟩⟩ := h
  · exact .throw _
  · simp only [demangled]
    cases Text.identifier? a with
    | none => exact .throw _
    | some n => exact .pure ⟨rfl, .inr ⟨n, rfl⟩⟩

theorem quiet_wordName (h : IsName v w) : Quiet IsName (wordName v) (wordName w) := by
  obtain ⟨rfl, rfl | ⟨a, rfl⟩⟩ := h
  · exact .throw _
  · simp only [wordName]
    cases Text.word? a with
    | none => exact .pure ⟨rfl, .inl rfl⟩
    | some n => exact .pure ⟨rfl, .inr ⟨n, rfl⟩⟩

theorem quiet_readIndex (v : Value) : Quiet (fun a b => b = a) (readIndex v) (readIndex v) := by
  unfold readIndex
  split
  · split
    · exact .pure rfl
    · exact .throw _
  · exact .throw _

/-- A reader makes declarations of a form of attributes whose keys have been renamed. -/
abbrev MakesNew (ρ : String → String) (form : Form) (read : Value → Work Value)
    (attrs attrs' : List (String × String)) : Prop :=
  Makes (NewPair ρ form) (read (attrsValue attrs)) (read (attrsValue attrs'))

section

variable {ρ : String → String} {tag name : String} {attrs attrs' : List (String × String)}
variable (hr : Renamed ρ tag attrs attrs')

include hr

theorem Renamed.quiet_need_key (hname : name ∈ keyNames) :
    Quiet (IsKeyPair ρ) (need (attrsValue attrs) name) (need (attrsValue attrs') name) := by
  simp only [need, attrsValue, lookup_attrs, hr.key name hname]
  cases attrs.lookup name with
  | none => exact .throw _
  | some k => exact .pure ⟨k, rfl, rfl⟩

theorem Renamed.quiet_need (hname : name ∈ plainNames) :
    Quiet IsName (need (attrsValue attrs) name) (need (attrsValue attrs') name) := by
  simp only [need, attrsValue, lookup_attrs, hr.plain name hname]
  cases attrs.lookup name with
  | none => exact .throw _
  | some k => exact .pure ⟨rfl, .inr ⟨k, rfl⟩⟩

theorem Renamed.quiet_given (hname : name ∈ plainNames) :
    Quiet IsName (given (attrsValue attrs) name) (given (attrsValue attrs') name) := by
  simp only [given, given?, attrsValue, lookup_attrs, hr.plain name hname, pure_bind]
  cases attrs.lookup name with
  | none => exact .pure ⟨rfl, .inl rfl⟩
  | some k => exact .pure ⟨rfl, .inr ⟨k, rfl⟩⟩

theorem Renamed.quiet_givenWords (hname : name ∈ plainNames) :
    Quiet Eq (givenWords (attrsValue attrs) name) (givenWords (attrsValue attrs') name) := by
  simp only [givenWords, given?, attrsValue, lookup_attrs, hr.plain name hname, pure_bind]
  cases attrs.lookup name <;> exact .pure rfl

theorem Renamed.quiet_members :
    Quiet (fun ks ks' => ks' = ks.map ρ) (givenWords (attrsValue attrs) "members")
      (givenWords (attrsValue attrs') "members") := by
  have hm := hr.members
  simp only [givenWords, given?, attrsValue, lookup_attrs, pure_bind]
  cases h : attrs.lookup "members" with
  | none =>
    rw [h] at hm
    rw [Option.map_eq_none_iff.1 hm]
    exact .pure rfl
  | some v =>
    rw [h] at hm
    obtain ⟨v', hv', hwords⟩ := Option.map_eq_some_iff.1 hm
    rw [hv']
    exact .pure hwords

theorem Renamed.quiet_need_members :
    Quiet (fun a b => ∃ v v', a = .text v ∧ b = .text v' ∧ Text.words v' = (Text.words v).map ρ)
      (need (attrsValue attrs) "members") (need (attrsValue attrs') "members") := by
  have hm := hr.members
  simp only [need, attrsValue, lookup_attrs]
  cases h : attrs.lookup "members" with
  | none => exact .throw _
  | some v =>
    rw [h] at hm
    obtain ⟨v', hv', hwords⟩ := Option.map_eq_some_iff.1 hm
    rw [hv']
    exact .pure ⟨v, v', rfl, rfl, hwords⟩

theorem Renamed.quiet_bases :
    Quiet (fun ks ks' => ks'.map (baseOf tag) = (ks.map (baseOf tag)).map ρ)
      (givenWords (attrsValue attrs) "bases") (givenWords (attrsValue attrs') "bases") := by
  have hb := hr.bases
  simp only [givenWords, given?, attrsValue, lookup_attrs, pure_bind]
  cases h : attrs.lookup "bases" with
  | none =>
    rw [h] at hb
    rw [Option.map_eq_none_iff.1 hb]
    exact .pure rfl
  | some v =>
    rw [h] at hb
    obtain ⟨v', hv', hwords⟩ := Option.map_eq_some_iff.1 hb
    rw [hv']
    exact .pure hwords

/-! ### The readers -/

theorem Renamed.makes_ignored : MakesNew ρ .ignored readIgnored attrs attrs' := by
  have hmake : ∀ name name', IsName name name' →
      Makes (NewPair ρ .ignored) (make .ignored [name]) (make .ignored [name']) :=
      fun name name' hname =>
    makes_new rfl rfl rfl (.cons ⟨rfl, hname⟩ (.cons ⟨rfl, rfl, rfl⟩ .nil))
  refine (hr.quiet_given (by decide)).makes fun name name' hname => ?_
  obtain ⟨rfl, rfl | ⟨a, rfl⟩⟩ := hname
  · refine (hr.quiet_given (by decide)).makes fun mangled mangled' hmangled => ?_
    obtain ⟨rfl, rfl | ⟨a, rfl⟩⟩ := hmangled
    · exact hmake _ _ ⟨rfl, .inr ⟨_, rfl⟩⟩
    · exact (quiet_demangled ⟨rfl, .inr ⟨a, rfl⟩⟩).makes hmake
  · exact hmake _ _ ⟨rfl, .inr ⟨a, rfl⟩⟩

theorem Renamed.makes_namespace :
    Makes (fun e e' => NewPair ρ .nameSpace e e' ∧ e.get? "name" = (attrs.lookup "name").map .text)
      (readNamespace (attrsValue attrs)) (readNamespace (attrsValue attrs')) := by
  have hneed : Quiet (fun a b => IsName a b ∧ (attrs.lookup "name").map .text = some a)
      (need (attrsValue attrs) "name") (need (attrsValue attrs') "name") := by
    simp only [need, attrsValue, lookup_attrs, hr.plain "name" (by decide)]
    cases attrs.lookup "name" with
    | none => exact .throw _
    | some k => exact .pure ⟨⟨rfl, .inr ⟨k, rfl⟩⟩, rfl⟩
  refine hneed.makes fun name _ hname => ?_
  refine hr.quiet_need_members.makes fun _ _ hm => ?_
  obtain ⟨v, v', rfl, rfl, hwords⟩ := hm
  refine makes_make rfl rfl ⟨⟨⟨rfl, ?_⟩, rfl, rfl⟩, hname.2.symm⟩
  exact .cons ⟨rfl, .inl ⟨rfl, rfl⟩⟩ (.cons ⟨rfl, hname.1⟩
    (.cons ⟨rfl, Text.words v, rfl, congrArg textList hwords⟩ .nil))

theorem Renamed.makes_file : MakesNew ρ .file readFile attrs attrs' := by
  refine (hr.quiet_need (by decide)).makes fun name _ hname => ?_
  exact makes_new rfl rfl rfl (.cons ⟨rfl, hname⟩ .nil)

theorem Renamed.makes_variable : MakesNew ρ .globalVariable readVariable attrs attrs' := by
  refine (hr.quiet_need (by decide)).makes fun name _ hname => ?_
  refine (hr.quiet_need_key (by decide)).makes fun typ _ htyp => ?_
  refine (hr.quiet_need_key (by decide)).makes fun context _ hcontext => ?_
  refine (hr.quiet_given (by decide)).makes fun init _ hinit => ?_
  exact makes_new rfl rfl rfl (.cons ⟨rfl, hname⟩ (.cons ⟨rfl, htyp⟩ (.cons ⟨rfl, hcontext⟩
    (.cons ⟨rfl, hinit.1⟩ .nil))))

theorem Renamed.makes_typedef : MakesNew ρ .typedef readTypedef attrs attrs' := by
  refine (hr.quiet_need (by decide)).makes fun name _ hname => ?_
  refine (hr.quiet_need_key (by decide)).makes fun typ _ htyp => ?_
  refine (hr.quiet_need_key (by decide)).makes fun context _ hcontext => ?_
  exact makes_new rfl rfl rfl (.cons ⟨rfl, hname⟩ (.cons ⟨rfl, htyp⟩ (.cons ⟨rfl, hcontext⟩ .nil)))

theorem Renamed.makes_fundamentalType :
    MakesNew ρ .fundamentalType readFundamentalType attrs attrs' := by
  have hmake : ∀ name name' size size', IsName name name' → IsName size size' →
      Makes (NewPair ρ .fundamentalType)
        (need (attrsValue attrs) "align" >>= fun align => make .fundamentalType [name, size, align])
        (need (attrsValue attrs') "align" >>= fun align =>
          make .fundamentalType [name', size', align]) := by
    intro name name' size size' hname hsize
    refine (hr.quiet_need (by decide)).makes fun align _ halign => ?_
    exact makes_new rfl rfl rfl
      (.cons ⟨rfl, hname⟩ (.cons ⟨rfl, hsize.1⟩ (.cons ⟨rfl, halign.1⟩ .nil)))
  refine (hr.quiet_need (by decide)).makes fun name name' hname => ?_
  rw [hname.1]
  split
  · exact hmake _ _ _ _ ⟨rfl, hname.2⟩ ⟨rfl, .inr ⟨_, rfl⟩⟩
  · exact (hr.quiet_need (by decide)).makes fun size _ hsize => hmake _ _ _ _ ⟨rfl, hname.2⟩ hsize

theorem Renamed.makes_pointerType : MakesNew ρ .pointerType readPointerType attrs attrs' := by
  refine (hr.quiet_need_key (by decide)).makes fun typ _ htyp => ?_
  refine (hr.quiet_need (by decide)).makes fun size _ hsize => ?_
  refine (hr.quiet_need (by decide)).makes fun align _ halign => ?_
  exact makes_new rfl rfl rfl (.cons ⟨rfl, rfl, .inr ⟨"", rfl⟩⟩ (.cons ⟨rfl, htyp⟩
    (.cons ⟨rfl, hsize.1⟩ (.cons ⟨rfl, halign.1⟩ .nil))))

theorem Renamed.makes_qualifiedType :
    MakesNew ρ .cvQualifiedType readQualifiedType attrs attrs' := by
  refine (hr.quiet_need_key (by decide)).makes fun typ _ htyp => ?_
  refine (hr.quiet_given (by decide)).makes fun constant _ hconstant => ?_
  refine (hr.quiet_given (by decide)).makes fun volatile _ hvolatile => ?_
  exact makes_new rfl rfl rfl (.cons ⟨rfl, rfl, .inr ⟨"", rfl⟩⟩ (.cons ⟨rfl, htyp⟩
    (.cons ⟨rfl, hconstant.1⟩ (.cons ⟨rfl, hvolatile.1⟩ .nil))))

theorem Renamed.makes_arrayType : MakesNew ρ .arrayType readArrayType attrs attrs' := by
  refine (hr.quiet_need_key (by decide)).makes fun typ _ htyp => ?_
  refine (hr.quiet_need (by decide)).makes fun first _ hfirst => ?_
  refine (hr.quiet_need (by decide)).makes fun last _ hlast => ?_
  rw [hfirst.1, hlast.1]
  refine (quiet_readIndex first).makes fun first _ hfirst => ?_
  refine (quiet_readIndex (lastIndex last)).makes fun last _ hlast => ?_
  exact makes_new rfl rfl rfl (.cons ⟨rfl, rfl, .inr ⟨"", rfl⟩⟩ (.cons ⟨rfl, htyp⟩
    (.cons ⟨rfl, hfirst⟩ (.cons ⟨rfl, hlast⟩ .nil))))

theorem Renamed.makes_function (hform : form = .function ∨ form = .operatorFunction) :
    MakesNew ρ form (readFunction form) attrs attrs' := by
  refine (hr.quiet_need (by decide)).makes fun name _ hname => ?_
  refine (hr.quiet_need_key (by decide)).makes fun returns _ hreturns => ?_
  refine (hr.quiet_need_key (by decide)).makes fun context _ hcontext => ?_
  refine (hr.quiet_givenWords (by decide)).makes fun attributes _ hattributes => ?_
  refine (hr.quiet_given (by decide)).makes fun external _ hexternal => ?_
  subst hattributes
  rcases hform with rfl | rfl <;>
    exact makes_new rfl rfl rfl (.cons ⟨rfl, hname⟩ (.cons ⟨rfl, hreturns⟩
      (.cons ⟨rfl, hcontext⟩
      (.cons ⟨rfl, rfl⟩ (.cons ⟨rfl, hexternal.1⟩ (.cons ⟨rfl, rfl, rfl⟩ .nil))))))

theorem Renamed.makes_functionType : MakesNew ρ .functionType readFunctionType attrs attrs' := by
  refine (hr.quiet_need_key (by decide)).makes fun returns _ hreturns => ?_
  refine (hr.quiet_givenWords (by decide)).makes fun attributes _ hattributes => ?_
  subst hattributes
  exact makes_new rfl rfl rfl (.cons ⟨rfl, rfl, .inr ⟨"", rfl⟩⟩ (.cons ⟨rfl, hreturns⟩
    (.cons ⟨rfl, rfl⟩ (.cons ⟨rfl, rfl, rfl⟩ .nil))))

theorem Renamed.makes_enumeration :
    Makes (fun e e' => NewPair ρ .enumeration e e' ∧ e.get? "values" = some (.list []))
      (readEnumeration (attrsValue attrs)) (readEnumeration (attrsValue attrs')) := by
  refine (hr.quiet_need (by decide)).makes fun name name' hname => ?_
  refine (quiet_wordName hname).makes fun name _ hname => ?_
  refine (hr.quiet_need (by decide)).makes fun size _ hsize => ?_
  refine (hr.quiet_need (by decide)).makes fun align _ halign => ?_
  exact makes_make rfl rfl
    ⟨⟨⟨rfl, .cons ⟨rfl, .inl ⟨rfl, rfl⟩⟩
    (.cons ⟨rfl, hname⟩
      (.cons ⟨rfl, hsize.1⟩ (.cons ⟨rfl, halign.1⟩ (.cons ⟨rfl, rfl, rfl⟩ .nil))))⟩, rfl, rfl⟩, rfl⟩

/-- A struct, a class or a union, whose bases are read as its tag says. -/
theorem Renamed.makes_container (hform : form = .struct ∨ form = .union) {base : String → String}
    (hbase : baseOf tag = base) : MakesNew ρ form (readContainer form base) attrs attrs' := by
  have hmake : ∀ name name', IsName name name' → Makes (NewPair ρ form) (do
        let bases ← givenWords (attrsValue attrs) "bases"
        let members ← givenWords (attrsValue attrs) "members"
        let context ← need (attrsValue attrs) "context"
        let align ← need (attrsValue attrs) "align"
        make form [name, align, textList members, context, textList (bases.map base),
          ← given (attrsValue attrs) "size"])
      (do
        let bases ← givenWords (attrsValue attrs') "bases"
        let members ← givenWords (attrsValue attrs') "members"
        let context ← need (attrsValue attrs') "context"
        let align ← need (attrsValue attrs') "align"
        make form [name', align, textList members, context, textList (bases.map base),
          ← given (attrsValue attrs') "size"]) := by
    intro name name' hname
    refine hr.quiet_bases.makes fun bases bases' hbases => ?_
    refine hr.quiet_members.makes fun members members' hmembers => ?_
    refine (hr.quiet_need_key (by decide)).makes fun context _ hcontext => ?_
    refine (hr.quiet_need (by decide)).makes fun align _ halign => ?_
    refine (hr.quiet_given (by decide)).makes fun size _ hsize => ?_
    subst hmembers
    rw [hbase] at hbases
    rcases hform with rfl | rfl <;>
      exact makes_new rfl rfl rfl (.cons ⟨rfl, hname⟩ (.cons ⟨rfl, halign.1⟩
        (.cons ⟨rfl, members, rfl, rfl⟩ (.cons ⟨rfl, hcontext⟩
          (.cons ⟨rfl, _, rfl, congrArg textList hbases⟩ (.cons ⟨rfl, hsize.1⟩ .nil))))))
  refine (hr.quiet_given (by decide)).makes fun name name' hname => ?_
  obtain ⟨rfl, rfl | ⟨a, rfl⟩⟩ := hname
  · refine (hr.quiet_need (by decide)).makes fun mangled mangled' hmangled => ?_
    exact (quiet_demangled hmangled).makes hmake
  · exact hmake _ _ ⟨rfl, .inr ⟨a, rfl⟩⟩

theorem Renamed.makes_field : MakesNew ρ .field readField attrs attrs' := by
  refine (hr.quiet_need (by decide)).makes fun name _ hname => ?_
  refine (hr.quiet_need_key (by decide)).makes fun typ _ htyp => ?_
  refine (hr.quiet_need_key (by decide)).makes fun context _ hcontext => ?_
  refine (hr.quiet_given (by decide)).makes fun bits _ hbits => ?_
  refine (hr.quiet_given (by decide)).makes fun offset _ hoffset => ?_
  exact makes_new rfl rfl rfl (.cons ⟨rfl, hname⟩ (.cons ⟨rfl, htyp⟩ (.cons ⟨rfl, hcontext⟩
    (.cons ⟨rfl, hbits.1⟩ (.cons ⟨rfl, hoffset.1⟩ .nil)))))

theorem Renamed.makes_argument :
    Makes (NewPair ρ .argument)
      (need (attrsValue attrs) "type" >>= fun typ => given (attrsValue attrs) "name" >>= fun name =>
        make .argument [typ, name])
      (need (attrsValue attrs') "type" >>= fun typ => given (attrsValue attrs') "name" >>=
          fun name =>
        make .argument [typ, name]) := by
  refine (hr.quiet_need_key (by decide)).makes fun typ _ htyp => ?_
  refine (hr.quiet_given (by decide)).makes fun name _ hname => ?_
  exact makes_new rfl rfl rfl (.cons ⟨rfl, hname⟩ (.cons ⟨rfl, htyp⟩ .nil))

theorem Renamed.makes_enumValue :
    Makes (NewPair ρ .enumValue)
      (need (attrsValue attrs) "name" >>= fun name => need (attrsValue attrs) "init" >>= fun init =>
        make .enumValue [name, init])
      (need (attrsValue attrs') "name" >>= fun name => need (attrsValue attrs') "init" >>=
          fun init =>
        make .enumValue [name, init]) := by
  refine (hr.quiet_need (by decide)).makes fun name _ hname => ?_
  refine (hr.quiet_need (by decide)).makes fun init _ hinit => ?_
  exact makes_new rfl rfl rfl (.cons ⟨rfl, hname⟩ (.cons ⟨rfl, hinit.1⟩ .nil))

end

end PxdGen.Dump
