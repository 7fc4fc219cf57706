import PxdGen.Proofs.Dump.Making
/-! # What the start of an element does

The start of an element can leave the session as it is, set the revision, enter a new declaration in
the table, or make a new part and add it to the declaration that is being filled. `startElement`
does nothing else, and with renamed keys it does the same under the new keys.
-/

namespace PxdGen.Dump

open Decl Decl.Work

variable {name operation slot : String} {v a : Value} {e : Entry} {form : Form} {s s' : Session}
  {p id : Nat} {g : Graph} {read : Value → Work Value}

/-- What the start of an element does. -/
inductive Effect where
  | none
  | revision (r : List Int)
  | declaration (e : Entry) (key : Option String)
  /-- a part that is added to a list of the innermost declaration -/
  | part (slot : String) (e : Entry)

/-- The key of a new declaration. -/
def keyFor (s : Session) : Option String → Key
  | some k => .named (.text k)
  | none => .serial s.graph.entries.size

/-- Enters a new declaration, which is filled next if elements of that tag have children. -/
def declare (tag : String) (key : Option String) (e : Entry) (s : Session) : Session :=
  { s with
    graph := (s.graph.add e).2
    table := s.table.insert (keyFor s key) (.link s.graph.entries.size)
    context := if hasChildren tag then .link s.graph.entries.size :: s.context else s.context }

/-- Adds a new part to a list of a declaration. -/
def attach (p : Nat) (slot : String) (items : List Value) (e : Entry) (s : Session) : Session :=
  { s with graph :=
      (s.graph.add e).2.setField p slot (.list (items ++ [.link s.graph.entries.size])) }

/-- The forms whose declarations have a list for parts. -/
def takes (form : Form) (slot : String) : Bool :=
  match slot with
  | "arguments" => takesArguments form
  | "values" => form == .enumeration
  | _ => false

/-- `E` leads from one session to another. -/
inductive Leads (tag : String) : Effect → Session → Session → Prop
  | none (s : Session) : Leads tag .none s s
  | revision (r : List Int) (s : Session) : Leads tag (.revision r) s { s with revision := some r }
  | declaration (e : Entry) (key : Option String) (s : Session) :
    Leads tag (.declaration e key) s (declare tag key e s)
  | part {s : Session} {p : Nat} {rest : List Value} {form : Form} {slot : String}
    {items : List Value} (e : Entry) (hcontext : s.context = .link p :: rest)
    (hform : s.graph.form? (.link p) = some form)
    (htakes : takes form slot = true)
      (hitems : s.graph.field? (.link p) slot = some (.list items)) :
    Leads tag (.part slot e) s (attach p slot items e s)

/-- What the starts of two elements do that differ in their keys. -/
inductive EffectPair (ρ : String → String) (tag : String) (attrs attrs' : List (String × String)) :
    Effect → Effect → Prop
  | none (hchildren : hasChildren tag = false) : EffectPair ρ tag attrs attrs' .none .none
  | revision {r : List Int} {text : String} (htag : tag = "GCC_XML")
    (htext : attrs.lookup "cvs_revision" = some text)
    (hr : (Text.pieces '.' text).mapM Text.integer? = some r) :
    EffectPair ρ tag attrs attrs' (.revision r) (.revision r)
  | declaration {form : Form} {e e' : Entry} (hnew : NewPair ρ form e e')
    (hform : isStanding form = true)
    (hname : form = .nameSpace →
      tag = "Namespace" ∧ e.get? "name" = (attrs.lookup "name").map .text) :
    EffectPair ρ tag attrs attrs' (.declaration e (attrs.lookup "id"))
      (.declaration e' (attrs'.lookup "id"))
  | argument {e e' : Entry} (hnew : NewPair ρ .argument e e') (htag : tag = "Argument") :
    EffectPair ρ tag attrs attrs' (.part "arguments" e) (.part "arguments" e')
  | value {e e' : Entry} (hnew : NewPair ρ .enumValue e e') (htag : tag = "EnumValue") :
    EffectPair ρ tag attrs attrs' (.part "values" e) (.part "values" e')

/-- What is being filled after the start of an element. -/
theorem EffectPair.context {ρ : String → String} {tag : String}
    {attrs attrs' : List (String × String)} {E E' : Effect}
    (hE : EffectPair ρ tag attrs attrs' E E') (h : Leads tag E s s') :
    s'.context = if hasChildren tag then .link s.graph.entries.size ::
        s.context else s.context := by
  cases hE with
  | none hchildren =>
    cases h
    rw [hchildren]
    rfl
  | revision htag | argument _ htag | value _ htag =>
    subst htag
    cases h
    rfl
  | declaration =>
    cases h
    rfl

/-! ### Entering a declaration -/

theorem add_setField (g : Graph) (e : Entry) (name : String) (v : Value) :
    (g.add e).2.setField g.entries.size name v = (g.add (e.set name v)).2 := by
  simp only [Graph.add, Graph.setField]
  congr 1
  apply Array.ext
  · simp
  · intro i h₁ h₂
    simp only [Array.size_modify, Array.size_push] at h₁
    by_cases hi : i = g.entries.size
    · subst hi
      simp [Array.getElem_modify]
    · have : i < g.entries.size := by omega
      simp [Array.getElem_modify, Array.getElem_push, this, Ne.symm hi]

theorem mem_putField {l : List (String × Value)} {f : String × Value}
    (h : f ∈ Value.putField name v l) : f = (name, v) ∨ f ∈ l := by
  induction l with
  | nil => exact .inl (by simpa [Value.putField] using h)
  | cons g l ih =>
    rw [Value.putField] at h
    split at h
    · rename_i hn
      obtain rfl : g.1 = name := by simpa using hn
      rcases List.mem_cons.1 h with rfl | h
      · exact .inl rfl
      · exact .inr (by simp [h])
    · rcases List.mem_cons.1 h with rfl | h
      · exact .inr (by simp)
      · exact (ih h).imp_right fun h => by simp [h]

theorem isShaped_set (h : e.isShaped = true)
    (hv : mayHold e.form name v = true) : (e.set name v).isShaped = true := by
  rw [Entry.isShaped, Bool.and_eq_true, Bool.and_eq_true, List.all_eq_true, List.all_eq_true] at h ⊢
  refine ⟨h.1, fun f hf => ?_, fun needed hneeded => ?_⟩
  · rcases mem_putField hf with rfl | hf
    · exact hv
    · exact h.2.1 f hf
  · rw [Entry.get?_set]
    split
    · rfl
    · exact h.2.2 needed hneeded

/-- A new declaration with the location that its attributes give. -/
def locate (attrs : List (String × String)) (e : Entry) : Entry :=
  match attrs.lookup "location" with
  | some l => e.set "location" (.text l)
  | none => e

theorem get?_locate (attrs : List (String × String)) (e : Entry) (h : name ≠ "location") :
    (locate attrs e).get? name = e.get? name := by
  rw [locate]
  split
  · rw [Entry.get?_set, if_neg h]
  · rfl

theorem gives_given (attrs : List (String × String)) (name : String) (s : Session) :
    Gives (given (attrsValue attrs) name) s (((attrs.lookup name).map .text).getD .nothing) s := by
  simp only [given, given?, attrsValue, lookup_attrs, pure_bind]
  exact .pure _ s

theorem gives_enter (attrs : List (String × String)) (e : Entry) (s : Session) :
    Gives (enter (attrsValue attrs) (.link s.graph.entries.size))
      { s with graph := (s.graph.add e).2 } () { s with
        graph := (s.graph.add (locate attrs e)).2
        table := s.table.insert (keyFor s (attrs.lookup "id")) (.link s.graph.entries.size) } := by
  refine Gives.bind (gives_given attrs "location" _) ?_
  rw [locate]
  cases attrs.lookup "location" with
  | none =>
    refine Gives.bind (gives_given attrs "id" _) ?_
    cases attrs.lookup "id" <;> exact rfl
  | some l =>
    rw [← add_setField]
    refine Gives.bind (gives_setField _ _ _) (Gives.bind (gives_given attrs "id" _) ?_)
    cases attrs.lookup "id" <;> exact rfl

theorem Renamed.newPair_locate {ρ : String → String} {tag : String}
    {attrs attrs' : List (String × String)} (hr : Renamed ρ tag attrs attrs')
    (hform : isStanding form = true) {e' : Entry} (h : NewPair ρ form e e') :
    NewPair ρ form (locate attrs e) (locate attrs' e') := by
  obtain ⟨hl, hl'⟩ | ⟨v, v', hl, hl', hpieces⟩ := hr.location
  · rw [locate, locate, hl, hl']
    exact h
  · rw [locate, locate, hl, hl']
    exact ⟨h.pairs.set (.inr ⟨v, v', rfl, rfl, hpieces⟩), h.form,
      isShaped_set h.shaped (h.form ▸ mayHold_location hform _)⟩

/-! ### All starts -/

section

variable {ρ : String → String} {tag : String} {attrs attrs' : List (String × String)}

/-- How an element is read: not at all, as a declaration, or in one of five other ways. -/
theorem Renamed.reader?_cases (hr : Renamed ρ tag attrs attrs') (htag : tag ≠ "CPP_DUMP") :
    reader? .dump tag = none ∨
    (∃ read form, reader? .dump tag = some read ∧ isStanding form = true ∧
      Makes (fun e e' => NewPair ρ form e e' ∧ (form = .nameSpace →
          tag = "Namespace" ∧ e.get? "name" = (attrs.lookup "name").map .text))
        (read (attrsValue attrs)) (read (attrsValue attrs'))) ∨
    tag = "Ellipsis" ∨ tag = "GCC_XML" ∨ tag = "Characters" ∨ tag = "Argument" ∨
        tag = "EnumValue" := by
  have standing : ∀ {form : Form} {read : Value → Work Value}, isStanding form = true →
      form ≠ .nameSpace → Makes (NewPair ρ form) (read (attrsValue attrs))
      (read (attrsValue attrs')) →
      ∃ read' form', some read = some read' ∧ isStanding form' = true ∧
        Makes (fun e e' => NewPair ρ form' e e' ∧ (form' = .nameSpace →
            tag = "Namespace" ∧ e.get? "name" = (attrs.lookup "name").map .text))
          (read' (attrsValue attrs)) (read' (attrsValue attrs')) :=
    fun hform hne hm => ⟨_, _, rfl, hform, hm.mono fun _ _ h => ⟨h, fun he => absurd he hne⟩⟩
  unfold reader?
  split
  case h_1 | h_2 | h_3 | h_4 | h_5 | h_6 | h_7 | h_8 | h_9 =>
    exact .inr (.inl (standing rfl (by decide) hr.makes_ignored))
  case h_10 => exact .inr (.inr (.inl rfl))
  case h_11 =>
    exact .inr (.inl ⟨_, .nameSpace, rfl, rfl,
      hr.makes_namespace.mono fun _ _ h => ⟨h.1, fun _ => ⟨rfl, h.2⟩⟩⟩)
  case h_12 => exact .inr (.inl (standing rfl (by decide) hr.makes_file))
  case h_13 => exact .inr (.inl (standing rfl (by decide) hr.makes_variable))
  case h_14 | h_15 => exact .inr (.inl (standing rfl (by decide) hr.makes_pointerType))
  case h_16 => exact .inr (.inl (standing rfl (by decide) hr.makes_arrayType))
  case h_17 => exact .inr (.inl (standing rfl (by decide) hr.makes_qualifiedType))
  case h_18 => exact .inr (.inl (standing rfl (by decide) (hr.makes_function (.inl rfl))))
  case h_19 => exact .inr (.inl (standing rfl (by decide) hr.makes_functionType))
  case h_20 => exact .inr (.inl (standing rfl (by decide) (hr.makes_function (.inr rfl))))
  case h_21 => exact .inr (.inr (.inr (.inr (.inr (.inl rfl)))))
  case h_22 =>
    exact .inr (.inl (standing rfl (by decide) (hr.makes_enumeration.mono fun _ _ h => h.1)))
  case h_23 => exact .inr (.inr (.inr (.inr (.inr (.inr rfl)))))
  case h_24 => exact .inr (.inl (standing rfl (by decide) (hr.makes_container (.inl rfl) rfl)))
  case h_25 => exact .inr (.inl (standing rfl (by decide) (hr.makes_container (.inl rfl) rfl)))
  case h_26 => exact .inr (.inl (standing rfl (by decide) (hr.makes_container (.inr rfl) rfl)))
  case h_27 => exact .inr (.inl (standing rfl (by decide) hr.makes_field))
  case h_28 =>
    split
    case h_1 => exact .inr (.inr (.inr (.inl rfl)))
    case h_2 => exact absurd rfl htag
    case h_3 => exact .inr (.inr (.inr (.inr (.inl rfl))))
    case h_4 => exact .inr (.inl (standing rfl (by decide) hr.makes_typedef))
    case h_5 => exact .inr (.inl (standing rfl (by decide) hr.makes_fundamentalType))
    case h_6 => exact .inl rfl
    case h_7 => contradiction

theorem hasChildren_of_reader?_none (h : reader? .dump tag = none) : hasChildren tag = false := by
  cases hc : hasChildren tag with
  | false => rfl
  | true =>
    simp only [hasChildren, List.contains_eq_mem, List.mem_cons, List.not_mem_nil, or_false,
      decide_eq_true_eq] at hc
    rcases hc with rfl | rfl | rfl | rfl | rfl | rfl | rfl | rfl <;> cases h

theorem gives_add (hop : ∀ form, takes form slot = true →
      slot? .dump form operation = some ⟨slot, false⟩) (ho : s.graph.origin = .dump)
    {items : List Value} (hform : s.graph.form? (.link p) = some form)
    (htakes : takes form slot = true)
      (hitems : s.graph.field? (.link p) slot = some (.list items)) :
    Gives (add operation (.link p) (.link id)) s ()
        { s with graph := s.graph.setField p slot (.list (items ++ [.link id])) } := by
  refine Gives.get ?_
  simp only [hform, ho, Option.bind_some, hop form htakes]
  exact Gives.bind (gives_field hitems) (gives_setField p slot _)

theorem takes_of_slot? {sl : Slot} (h : slot? .dump form operation = some sl)
    (hop : (operation = "add_argument" ∧ slot = "arguments") ∨
      (operation = "add_value" ∧ slot = "values")) : sl = ⟨slot, false⟩ ∧
      takes form slot = true := by
  rcases hop with ⟨rfl, rfl⟩ | ⟨rfl, rfl⟩ <;> cases form <;>
    simp only [slot?, slot?.argument, slot?.value, Option.some.injEq, reduceCtorEq] at h <;>
    subst h <;> exact ⟨rfl, rfl⟩

/-- Only a declaration that takes the part is given it. -/
theorem gives_add_cases (hop : (operation = "add_argument" ∧ slot = "arguments") ∨
      (operation = "add_value" ∧ slot = "values")) (ho : s.graph.origin = .dump)
    {u : Unit} (h : Gives (add operation (.link p) (.link id)) s u s') :
    ∃ form items, s.graph.form? (.link p) = some form ∧ takes form slot = true ∧
      s.graph.field? (.link p) slot = some (.list items) ∧
      s' = { s with graph := s.graph.setField p slot (.list (items ++ [.link id])) } := by
  have h₁ := gives_after (gives_get.2 ⟨rfl, rfl⟩) h
  cases hform : s.graph.form? (.link p) with
  | none => simp only [hform, Option.bind_none, gives_throw] at h₁
  | some form =>
    cases hsl : slot? .dump form operation with
    | none => simp only [hform, ho, Option.bind_some, hsl, gives_throw] at h₁
    | some sl =>
      obtain ⟨rfl, htakes⟩ := takes_of_slot? hsl hop
      simp only [hform, ho, Option.bind_some, hsl] at h₁
      obtain ⟨w, _, hfield, h₂⟩ := gives_bind.1 h₁
      obtain ⟨hw, rfl⟩ := gives_field_iff.1 hfield
      split at h₂
      · rename_i items
        obtain rfl := gives_modify.1 h₂
        exact ⟨form, items, rfl, htakes, hw, rfl⟩
      · exact absurd h₂ gives_throw

/-- Adds what is made to the innermost declaration. -/
def fillTop (operation : String) (x : Work Value) : Work Value := do
  match ← top with
  | .nothing => pure .nothing
  | parent => do
    let part ← x
    add operation parent part
    pure .nothing

theorem gives_top {rest : List Value} (h : s.context = v :: rest) : Gives top s v s := by
  refine Gives.get ?_
  rw [h]
  exact .pure v s

theorem form?_add (hp : p < g.entries.size) (e : Entry) :
    (g.add e).2.form? (.link p) = g.form? (.link p) := by
  simp only [Graph.form?, Graph.get?_add_of_lt _ _ hp]

theorem field?_add (hp : p < g.entries.size) (e : Entry) (name : String) :
    (g.add e).2.field? (.link p) name = g.field? (.link p) name := by
  simp only [Graph.field?, Graph.get?_add_of_lt _ _ hp]

theorem fillTop_cases (hop : (operation = "add_argument" ∧ slot = "arguments") ∨
      (operation = "add_value" ∧ slot = "values"))
    {x x' : Work Value} (hx : Makes (NewPair ρ form) x x') (ho : s.graph.origin = .dump)
    (hlinks : ∀ v ∈ s.context, ∃ i, i < s.graph.entries.size ∧ v = .link i)
    (h : Gives (fillTop operation x) s v s') :
    v = .nothing ∧ ∃ e e', NewPair ρ form e e' ∧ Leads tag (.part slot e) s s' ∧
      ∀ t t', t.graph.origin = .dump → Leads tag (.part slot e') t t' →
        Gives (fillTop operation x') t .nothing t' := by
  have hslot :
      ∀ form, takes form slot = true → slot? .dump form operation = some ⟨slot, false⟩ := by
    rcases hop with ⟨rfl, rfl⟩ | ⟨rfl, rfl⟩ <;> intro form hform <;> cases form <;>
      first | rfl | cases hform
  obtain ⟨a, s₁, htop, h₁⟩ := gives_bind.1 h
  cases hc : s.context with
  | nil =>
    have htop := gives_after (gives_get.2 ⟨rfl, rfl⟩) htop
    simp only [hc, gives_throw] at htop
  | cons c rest =>
    obtain ⟨p, hp, rfl⟩ := hlinks c (by simp [hc])
    obtain ⟨rfl, rfl⟩ := (gives_top hc).unique htop
    obtain ⟨w, s₂, hmake, h₂⟩ := gives_bind.1 h₁
    obtain ⟨e, e', hnew, rfl, rfl, hx'⟩ := hx ho hmake
    obtain ⟨_, s₃, hadd, h₃⟩ := gives_bind.1 h₂
    obtain ⟨rfl, rfl⟩ := gives_pure.1 h₃
    obtain ⟨form', items, hform, htakes, hitems, rfl⟩ := gives_add_cases hop (by exact ho) hadd
    rw [form?_add hp] at hform
    rw [field?_add hp] at hitems
    refine ⟨rfl, e, e', hnew, .part e hc hform htakes hitems, ?_⟩
    intro t t' hot hleads
    cases hleads with
    | part _ hc' hform' htakes' hitems' =>
      have hq := Graph.lt_size_of_form? _ hform'
      refine Gives.bind (gives_top hc') (Gives.bind (hx' t hot) ?_)
      refine Gives.bind (gives_add hslot (by exact hot) ?_ htakes' ?_) (.pure _ _)
      · rw [form?_add hq, hform']
      · rw [field?_add hq, hitems']

theorem readArgument_eq (attrs : Value) :
    readArgument attrs = fillTop "add_argument" (need attrs "type" >>= fun typ =>
      given attrs "name" >>= fun name => make .argument [typ, name]) := by
  rw [readArgument, fillTop]
  refine bind_congr fun parent => ?_
  cases parent <;> simp only [bind_assoc]

theorem readEnumValue_eq (attrs : Value) :
    readEnumValue attrs = fillTop "add_value" (need attrs "name" >>= fun name =>
      need attrs "init" >>= fun init => make .enumValue [name, init]) := by
  rw [readEnumValue, fillTop]
  refine bind_congr fun parent => ?_
  cases parent <;> simp only [bind_assoc]

theorem gives_startElement_of_nothing (hread : reader? .dump tag = some read)
    (hc : hasChildren tag = false) (h : Gives (read a) s .nothing s') :
    Gives (startElement tag a) s () s' := by
  rw [startElement, hread, hc]
  exact h.bind (.pure () s')

theorem gives_of_startElement (hread : reader? .dump tag = some read)
    (h : Gives (startElement tag a) s () s') :
    ∃ v s₁, Gives (read a) s v s₁ ∧ Gives (do
      match v with
      | .nothing => pure ()
      | v => enter a v
      if hasChildren tag then push v) s₁ () s' := by
  rw [startElement, hread] at h
  exact gives_bind.1 h

theorem startElement_part {x : Value → Work Value}
    (hop : (operation = "add_argument" ∧ slot = "arguments") ∨
      (operation = "add_value" ∧ slot = "values"))
    (hread : reader? .dump tag = some read) (hchildren : hasChildren tag = false)
    (hx : ∀ a, read a = fillTop operation (x a))
    (hmakes : Makes (NewPair ρ form) (x (attrsValue attrs)) (x (attrsValue attrs')))
    (ho : s.graph.origin = .dump)
    (hlinks : ∀ v ∈ s.context, ∃ i, i < s.graph.entries.size ∧ v = .link i)
    (h : Gives (startElement tag (attrsValue attrs)) s () s') :
    ∃ e e', NewPair ρ form e e' ∧ Leads tag (.part slot e) s s' ∧
      ∀ t t', t.graph.origin = .dump → Leads tag (.part slot e') t t' →
        Gives (startElement tag (attrsValue attrs')) t () t' := by
  obtain ⟨v, s₁, hv, h₁⟩ := gives_of_startElement hread h
  rw [hx] at hv
  obtain ⟨rfl, e, e', hnew, hleads, hrun⟩ := fillTop_cases hop hmakes ho hlinks hv
  rw [hchildren] at h₁
  obtain rfl := (gives_pure.1 h₁).2
  refine ⟨e, e', hnew, hleads, fun t t' hot hl => gives_startElement_of_nothing hread hchildren ?_⟩
  rw [hx]
  exact hrun t t' hot hl

theorem gives_startElement_declare (hread : reader? .dump tag = some read)
    (h : Gives (read (attrsValue attrs)) s (.link s.graph.entries.size)
    { s with graph := (s.graph.add e).2 }) :
    Gives (startElement tag (attrsValue attrs)) s ()
      (declare tag (attrs.lookup "id") (locate attrs e) s) := by
  rw [startElement, hread]
  refine h.bind ((gives_enter attrs e s).bind ?_)
  rw [declare]
  cases hasChildren tag with
  | false => exact .pure () _
  | true => exact rfl

theorem gives_readRevision {text : String} {r : List Int}
    (htext : attrs.lookup "cvs_revision" = some text)
    (hr : (Text.pieces '.' text).mapM Text.integer? = some r) :
    Gives (readRevision (attrsValue attrs)) s .nothing { s with revision := some r } := by
  simp only [readRevision, need, attrsValue, lookup_attrs, htext, Option.map_some, pure_bind, hr]
  exact Gives.bind (a := ()) (gives_modify.2 rfl) (.pure _ _)

theorem gives_readRevision_cases (h : Gives (readRevision (attrsValue attrs)) s v s') :
    ∃ text r, attrs.lookup "cvs_revision" = some text ∧
      (Text.pieces '.' text).mapM Text.integer? = some r := by
  cases htext : attrs.lookup "cvs_revision" with
  | none =>
    simp only [readRevision, need, attrsValue, lookup_attrs, htext, Option.map_none] at h
    obtain ⟨_, _, hthrow, -⟩ := gives_bind.1 h
    exact absurd hthrow gives_throw
  | some text =>
    cases hr : (Text.pieces '.' text).mapM Text.integer? with
    | none =>
      simp only [readRevision, need, attrsValue, lookup_attrs, htext, Option.map_some, pure_bind,
        hr] at h
      exact absurd h gives_throw
    | some r => exact ⟨text, r, rfl, hr⟩

theorem gives_addText_closed (hopen : s.openText = none) (v : Value) :
    Gives (addText v) s () s := by
  refine Gives.get ?_
  rw [hopen]
  exact .pure () s

theorem gives_addText_cases {u : Unit} (h : Gives (addText v) s u s') :
    s'.graph = s.graph ∧ s'.context = s.context := by
  have h := gives_after (gives_get.2 ⟨rfl, rfl⟩) h
  split at h
  · obtain ⟨-, rfl⟩ := gives_pure.1 h
    exact ⟨rfl, rfl⟩
  · obtain ⟨-, rfl⟩ := Gives.unique rfl h
    exact ⟨rfl, rfl⟩

/-- **What a start does, and what it does under other keys.** -/
theorem Renamed.startElement (hr : Renamed ρ tag attrs attrs') (htag : tag ≠ "CPP_DUMP")
    {s s' : Session} (ho : s.graph.origin = .dump)
    (hopen : tag = "Characters" → s.openText = none)
    (hlinks : ∀ v ∈ s.context, ∃ i, i < s.graph.entries.size ∧ v = .link i)
    (h : Gives (startElement tag (attrsValue attrs)) s () s') :
    ∃ E E' s₁ k, EffectPair ρ tag attrs attrs' E E' ∧ Leads tag E s s₁ ∧
      s' = { s₁ with console := k } ∧ ∀ t t₁, t.graph.origin = .dump → t.openText = none →
        Leads tag E' t t₁ → ∃ k, Gives (Dump.startElement tag (attrsValue attrs')) t ()
        { t₁ with console := k } := by
  rcases hr.reader?_cases htag with hnone | ⟨read, form, hread, hform, hmakes⟩ | rfl | rfl | rfl |
    rfl | rfl
  · have hrun : ∀ (a : Value) (t : Session),
        ∃ k, Gives (Dump.startElement tag a) t () { t with console := k } := by
      intro a t
      obtain ⟨k, hsay⟩ := gives_say (s := t) ("Unhandled element `" ++ tag ++ "`.")
      refine ⟨k, ?_⟩
      rw [Dump.startElement, hnone, hasChildren_of_reader?_none hnone]
      exact Gives.bind (hsay.bind (.pure _ _)) (.pure () _)
    obtain ⟨k, hs⟩ := hrun (attrsValue attrs) s
    obtain ⟨-, rfl⟩ := hs.unique h
    refine ⟨.none, .none, s, k, .none (hasChildren_of_reader?_none hnone), .none s, rfl,
      fun t t₁ _ _ hleads => ?_⟩
    cases hleads
    exact hrun _ t
  · obtain ⟨v, s₁, hv, -⟩ := gives_of_startElement hread h
    obtain ⟨e, e', ⟨hnew, hname⟩, rfl, rfl, hmake⟩ := hmakes ho hv
    obtain ⟨-, rfl⟩ := (gives_startElement_declare hread hv).unique h
    refine ⟨_, _, _, s.console, .declaration (hr.newPair_locate hform hnew) hform ?_,
      .declaration _ _ s, rfl, ?_⟩
    · intro hns
      obtain ⟨htag, hget⟩ := hname hns
      exact ⟨htag, (get?_locate attrs e (by decide)).trans hget⟩
    · intro t t₁ hot _ hleads
      cases hleads
      exact ⟨t.console, gives_startElement_declare hread (hmake t hot)⟩
  · have hrun : ∀ (a : Value) (t : Session), Gives (Dump.startElement "Ellipsis" a) t () t :=
      fun a t => gives_startElement_of_nothing rfl rfl (.pure _ t)
    obtain ⟨-, rfl⟩ := (hrun _ s).unique h
    refine ⟨.none, .none, s, s.console, .none rfl, .none s, rfl, fun t t₁ _ _ hleads => ?_⟩
    cases hleads
    exact ⟨t.console, hrun _ t⟩
  · obtain ⟨v, s₁, hv, -⟩ := gives_of_startElement rfl h
    obtain ⟨text, r, htext, hpieces⟩ := gives_readRevision_cases hv
    have htext' : attrs'.lookup "cvs_revision" = some text := by
      rw [hr.plain "cvs_revision" (by decide), htext]
    obtain ⟨-, rfl⟩ :=
      (gives_startElement_of_nothing rfl rfl (gives_readRevision htext hpieces)).unique h
    refine ⟨_, _, _, s.console, .revision rfl htext hpieces, .revision r s, rfl,
      fun t t₁ _ _ hleads => ?_⟩
    cases hleads
    exact ⟨t.console, gives_startElement_of_nothing rfl rfl (gives_readRevision htext' hpieces)⟩
  · have hrun : ∀ (a : Value) {t : Session}, t.openText = none →
        Gives (Dump.startElement "Characters" a) t () t := fun a t ht =>
      gives_startElement_of_nothing rfl rfl
        ((gives_addText_closed ht a).bind (.pure Value.nothing t))
    obtain ⟨-, rfl⟩ := (hrun _ (hopen rfl)).unique h
    refine ⟨.none, .none, s, s.console, .none rfl, .none s, rfl, fun t t₁ _ ht hleads => ?_⟩
    cases hleads
    exact ⟨t.console, hrun _ ht⟩
  · obtain ⟨e, e', hnew, hleads, hrun⟩ := startElement_part (.inl ⟨rfl, rfl⟩) rfl rfl
      readArgument_eq hr.makes_argument ho hlinks h
    exact ⟨_, _, s', _, .argument hnew rfl, hleads, rfl, fun t t₁ hot _ hl => ⟨_, hrun t t₁ hot hl⟩⟩
  · obtain ⟨e, e', hnew, hleads, hrun⟩ := startElement_part (.inr ⟨rfl, rfl⟩) rfl rfl
      readEnumValue_eq hr.makes_enumValue ho hlinks h
    exact ⟨_, _, s', _, .value hnew rfl, hleads, rfl, fun t t₁ hot _ hl => ⟨_, hrun t t₁ hot hl⟩⟩

end

end PxdGen.Dump
