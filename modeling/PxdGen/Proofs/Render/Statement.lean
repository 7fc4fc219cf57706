import PxdGen.Proofs.Render.Expression
import PxdGen.Pxd.Statement
/-! # When a module can be rendered

Of the statements that can be made, two kinds stop the work: the definition of a C function, and a
`raise` with a traceback. Every other one is written and leaves the page at the level it found it
at, so a module is rendered exactly if neither stands anywhere in it.
-/

namespace PxdGen.Pxd

open Rendering Value

variable {α β : Type}

variable {x v : Value} {s s' : Sheet} {u : Unit}

/-! ### Statement positions -/

/-- The fields of a kind that hold the statements of its blocks. -/
def Kind.blocks : Kind → List String
  | .moduleNode | .functionDef | .classDef | .withStmt | .exceptHandler | .structDef | .unionDef
  | .enumDef | .propertyDef | .externFrom | .cppClassDef => ["body"]
  | .forLoop | .whileLoop | .ifStmt => ["body", "orelse"]
  | .tryExcept => ["body", "handlers", "orelse"]
  | .tryFinally => ["body", "finalbody"]
  | _ => []

variable {n : Nat} {kind : Kind} {w : Value}

theorem Kind.blocks_subset_lists : kind.blocks ⊆ kind.lists := by
  cases kind with
  | member family => cases family <;> decide
  | _ => decide

/-- Whether a kind puts words before a declaration. -/
def Kind.isDeclaring : Kind → Bool
  | .cdefDecl | .cpdefDecl | .cTypedefDecl => true
  | _ => false

/-- The statement `w` stands in a block of the node, or is what it declares. -/
inductive StatementIn : Value → Value → Prop where
  | block {kind : Kind} {fields : List (String × Value)} {name : String} {ws : List Value}
    {w : Value} : name ∈ kind.blocks → fieldOf fields name = .list ws → w ∈ ws →
    StatementIn (.node kind fields) w
  | declared {kind : Kind} {fields : List (String × Value)} : kind.isDeclaring = true →
    StatementIn (.node kind fields) (fieldOf fields "value")

/-- The statement `w` stands anywhere in `v`. -/
inductive Within : Value → Value → Prop where
  | self (v : Value) : Within v v
  | inner {v u w : Value} : StatementIn v u → Within u w → Within v w

/-- A definition of a C function, or a `raise` with a traceback. -/
def Breaks (w : Value) : Prop :=
  ∃ fields, w = .node .cFunctionDef fields ∨
    w = .node .raiseStmt fields ∧ (fieldOf fields "tback").isTrue = true

/-! ### Work that keeps the level -/

/-- Blocks can still be nested `n` deep on the page. -/
def Page.Room (p : Page) (n : Nat) : Prop :=
  p.isUneven = false ∧ 0 ≤ p.level ∧ p.level + n < 0x2000000000000000

/-- The work ends with something that has the property, and the page is at the same level then. -/
def Runs (n : Nat) (x : Rendering α) (P : α → Prop) : Prop :=
  ∀ s p, s.page = some p → p.Room n →
    ∃ a s' p', Gives x s a s' ∧ P a ∧ s'.page = some p' ∧ p'.isUneven = false ∧ p'.level = p.level

variable {f : α → Rendering β}

namespace Runs

variable {n m : Nat} {P : α → Prop} {Q : β → Prop}

theorem of_ends {x : Rendering α} (h : Ends x P) : Runs n x P := by
  intro s p hs hp
  obtain ⟨a, s', hx, ha, hPage, -⟩ := h s False.elim
  exact ⟨a, s', p, hx, ha, hPage.trans hs, hp.1, rfl⟩

theorem bind {x : Rendering α} (hx : Runs n x P) (hf : ∀ a, P a → Runs n (f a) Q) :
    Runs n (x >>= f) Q := by
  intro s p hs hp
  obtain ⟨a, s', p', hx, ha, hs', hEven, hLevel⟩ := hx s p hs hp
  have hp' : p'.Room n := ⟨hEven, by rw [hLevel]; exact hp.2⟩
  obtain ⟨b, s'', p'', hf, hb, hs'', hEven', hLevel'⟩ := hf a ha s' p' hs' hp'
  exact ⟨b, s'', p'', hx.bind hf, hb, hs'', hEven', hLevel'.trans hLevel⟩

theorem weaken {x : Rendering α} (h : Runs m x P) (hle : m ≤ n) : Runs n x P := by
  intro s p hs hp
  refine h s p hs ⟨hp.1, hp.2.1, ?_⟩
  have := hp.2.2
  omega

theorem pure {a : α} (h : P a) : Runs n (Pure.pure a) P := of_ends (.pure h)

end Runs

/-- Work that is done for what it writes. -/
abbrev Writes (n : Nat) (x : Rendering Unit) : Prop := Runs n x fun _ => True

theorem writes_onPage (n : Nat) {f : Page → Page}
    (h : ∀ p, (f p).isUneven = p.isUneven ∧ (f p).level = p.level) : Writes n (onPage f) := by
  intro s p hs hp
  refine ⟨(), { s with page := some (f p) }, f p, ?_, trivial, rfl, (h p).1.trans hp.1, (h p).2⟩
  refine Gives.get ?_
  rw [hs]
  exact gives_modify.2 rfl

theorem writes_newline (n : Nat) : Writes n newline := writes_onPage n fun _ => ⟨rfl, rfl⟩

theorem marginFault?_of_room {p : Page} (h : p.Room n) : p.marginFault? = none := by
  obtain ⟨hEven, h0, hLevel⟩ := h
  have hStep : Page.step.length = 4 := by decide
  simp only [Page.marginFault?, hEven, Bool.false_eq_true, if_false, repeatFault?, hStep]
  have h63 : Int.pow 2 63 = 9223372036854775808 := rfl
  have hMax : ((max 1 4 : Nat) : Int) = 4 := rfl
  rw [h63, hMax, if_neg]
  simp only [Bool.or_eq_true, decide_eq_true_eq]
  omega

theorem writes_put (n : Nat) (t : String) : Writes n (put t) := by
  intro s p hs hp
  have hWrite := writes_onPage n (f := (·.writeLines t)) (fun _ => ⟨rfl, rfl⟩) s p hs hp
  obtain ⟨a, s', p', hGives, h⟩ := hWrite
  refine ⟨a, s', p', Gives.get ?_, h⟩
  rw [hs, Option.bind_some, marginFault?_of_room hp]
  exact hGives

theorem writes_line (n : Nat) (t : String) : Writes n (line t) :=
  (writes_put n t).bind fun _ _ => writes_newline n

theorem writes_lineOf (n : Nat) {text : Rendering String} (h : Ends text fun _ => True) :
    Writes n (lineOf text) :=
  (writes_onPage n fun _ => ⟨rfl, rfl⟩).bind fun _ _ => (Runs.of_ends h).bind fun t _ =>
    writes_line n t

theorem writes_forM {f : α → Rendering Unit} (as : List α) (h : ∀ a ∈ as, Writes n (f a)) :
    Writes n (as.forM f) := by
  induction as with
  | nil => exact Runs.pure trivial
  | cons a as ih =>
    exact (h a (by simp)).bind fun _ _ => ih fun b hb => h b (by simp [hb])

theorem writes_indented {x : Rendering Unit} (h : Writes n x) :
    Writes (n + 1) (do indent; x; dedent) := by
  intro s p hs hp
  have hRoom : (p.indent 1).Room n := by
    refine ⟨hp.1, ?_, ?_⟩
    · have := hp.2.1
      show 0 ≤ p.level + 1
      omega
    · have := hp.2.2
      show p.level + 1 + n < 0x2000000000000000
      omega
  obtain ⟨_, s', p', hGives, -, hs', hEven, hLevel⟩ :=
    h { s with page := some (p.indent 1) } (p.indent 1) rfl hRoom
  refine ⟨(), { s' with page := some (p'.dedent 1) }, p'.dedent 1, ?_, trivial, rfl, hEven, ?_⟩
  · refine Gives.bind (a := ()) (Gives.get ?_) (hGives.bind ?_)
    · rw [hs]
      exact gives_modify.2 rfl
    · refine Gives.get ?_
      rw [hs']
      exact gives_modify.2 rfl
  · show p'.level - 1 = p.level
    rw [hLevel]
    show p.level + 1 - 1 = p.level
    omega

/-! ### The rules for statements -/

section Rules

variable {kind : Kind} {fields : List (String × Value)} {n : Nat} {name : String}

namespace Ready

variable (hr : Ready kind fields)

include hr

theorem found (h : name ∈ kind.names := by decide) :
    Runs n (Rendering.need (.node kind fields) name) fun p => p.1 = fieldOf fields name :=
  .of_ends (hr.need h)

theorem shown (h : name ∈ kind.names := by decide) :
    Runs n (Pxd.shown (.node kind fields) name) IsText :=
  .of_ends (hr.renderField h)

theorem shownItems (hl : name ∈ kind.lists := by decide) :
    Runs n (Pxd.shownItems (.node kind fields) name) fun vs => ∀ v ∈ vs, IsText v :=
  .of_ends (hr.renderItems hl)

theorem shownGiven (h : name ∈ kind.names := by decide) :
    Runs n (Pxd.shownGiven (.node kind fields) name) fun v => v.isTrue = true → IsText v :=
  .of_ends (hr.renderGiven h)

variable (hs : ∀ w, StatementIn (.node kind fields) w → Writes n (visit w))

include hs

theorem writes_visitItems (hb : name ∈ kind.blocks := by decide) :
    Writes n (visitItems (.node kind fields) (fun p => visit p.1) name) := by
  have hl := Kind.blocks_subset_lists hb
  refine (hr.found (Kind.lists_subset_names hl)).bind fun p hp => ?_
  refine (Runs.of_ends (hr.items hl hp)).bind fun ps hps => writes_forM ps fun q hq => ?_
  exact hs q.1 (.block hb hps (List.mem_map.2 ⟨q, hq, rfl⟩))

theorem writes_block (hb : name ∈ kind.blocks := by decide) :
    Writes (n + 1) (block (.node kind fields) (fun p => visit p.1) name) :=
  writes_indented (hr.writes_visitItems hs hb)

theorem writes_elseBlock (hb : "orelse" ∈ kind.blocks := by decide) :
    Writes (n + 1) (elseBlock (.node kind fields) fun p => visit p.1) := by
  refine (hr.found (Kind.lists_subset_names (Kind.blocks_subset_lists hb))).bind fun p _ => ?_
  split
  · exact (writes_line _ _).bind fun _ _ => hr.writes_block hs hb
  · exact Runs.pure trivial

end Ready

theorem writes_declared (hs : ∀ w, StatementIn (.node kind fields) w → Writes n (visit w))
    (hd : kind.isDeclaring = true) {p : Part (.node kind fields)}
    (hp : p.1 = fieldOf fields "value") :
    Writes n (visit p.1) := by
  rw [hp]
  exact hs _ (.declared hd)

theorem writes_decoratorLines (n : Nat) (decorators : List Value) :
    Writes n (decoratorLines decorators) := writes_forM _ fun _ _ => writes_line _ _

theorem ends_popHead : Ends record.popHead fun _ => True := by
  refine ends_popPending.bind fun v _ => ?_
  cases v <;> exact .pure trivial

theorem ends_pushPending (v : Value) : Ends (pushPending v) fun _ => True :=
  fun _ _ => ⟨(), _, rfl, trivial, rfl, False.elim⟩

theorem isText_filter {vs : List Value} (h : ∀ v ∈ vs, v.isTrue = true → IsText v) :
    ∀ v ∈ vs.filter (·.isTrue), IsText v := by
  intro v hv
  obtain ⟨hv, hTrue⟩ := List.mem_filter.1 hv
  exact h v hv hTrue

theorem Ready.writes_record (hr : Ready kind fields)
    (hs : ∀ w, StatementIn (.node kind fields) w → Writes n (visit w))
    (hb : "body" ∈ kind.blocks) (heading : String) :
    Writes (n + 1) (record (.node kind fields) (fun p => visit p.1) heading) := by
  refine (Runs.of_ends ends_popHead).bind fun lead _ => (writes_line _ _).bind fun _ _ => ?_
  exact (hr.writes_block hs hb).bind fun _ _ => writes_newline _

theorem Ready.writes_named (hr : Ready kind fields)
    (hs : ∀ w, StatementIn (.node kind fields) w → Writes n (visit w))
    (hName : "name" ∈ kind.names) (hb : "body" ∈ kind.blocks) (word : String) :
    Writes (n + 1) (visitNamed (.node kind fields) (fun p => visit p.1) word) :=
  (hr.found hName).bind fun _ _ => hr.writes_record hs hb _

/-- An import, whose dots are few enough. -/
theorem Ready.writes_import (hr : Ready kind fields) (hModule : "module" ∈ kind.names)
    (hText : ∀ x, x = fieldOf fields "module" → x.isTrue = true → IsText x)
    (hNames : "names" ∈ kind.lists) (hLevel : "level" ∈ kind.names)
    (hDots : (fieldOf fields "level").isTrue = true →
      ∃ k, (fieldOf fields "level").asInt? = some k ∧ repeatFault? 1 k = none) (word : String) :
    Writes n (visitImport (.node kind fields) word) := by
  refine (hr.found hModule).bind fun module hm => ?_
  refine (hr.shownItems hNames).bind fun names hn => ?_
  refine (Runs.of_ends (ends_joined ", " hn)).bind fun names _ => ?_
  refine (hr.found hLevel).bind fun level hLevel => ?_
  have hLine : ∀ dots, Writes n (lineOf do
      let name ← if module.1.isTrue then textOf module.1 else pure ""
      pure ("from " ++ dots ++ name ++ " " ++ word ++ " " ++ names)) := by
    intro dots
    refine writes_lineOf n ?_
    by_cases hTrue : module.1.isTrue = true
    · rw [if_pos hTrue]
      exact (ends_textOf (hText _ hm hTrue)).bind fun _ _ => .pure trivial
    · rw [if_neg hTrue]
      exact (EndsIf.pure (P := fun _ => True) trivial).bind fun _ _ => .pure trivial
  rw [hLevel]
  by_cases hTrue : (fieldOf fields "level").isTrue = true
  · obtain ⟨k, hk, hFault⟩ := hDots hTrue
    simp only [hTrue, if_true, hk, hFault]
    exact hLine _
  · simp only [hTrue]
    exact hLine _

theorem Ready.writes_functionDecl (hr : Ready .cFunctionDecl fields) :
    Writes n (visitCFunctionDecl (.node .cFunctionDecl fields)) := by
  refine (Runs.of_ends ends_popLead).bind fun lead _ => ?_
  refine hr.found.bind fun name _ => ?_
  refine hr.shown.bind fun args _ => ?_
  have hText : Ends (functionText (.node .cFunctionDecl fields) name.1.plain args.plain)
      fun _ => True := by
    refine hr.need.bind fun returns _ => ?_
    split
    · refine hr.peelField.bind fun r hb => ?_
      refine (hb.1.renders (b := false || r.2.1.isNode .cFunctionType) False.elim).bind fun type
        ht => ?_
      exact (ends_declare ht (isText _)).mono fun _ _ => trivial
    · exact .pure trivial
  refine (Runs.of_ends hText).bind fun text _ => ?_
  refine hr.found.bind fun excepts he => ?_
  have hWrite : ∀ text, Writes n (do put (lead ++ text); onPage (·.newline 2)) := fun text =>
    (writes_put _ _).bind fun _ _ => writes_onPage _ fun _ => ⟨rfl, rfl⟩
  split
  · refine Runs.bind (.of_ends ((hr.sound (by decide) he).renders (b := false) False.elim))
      fun shown _ => hWrite _
  · exact hWrite _

/-- **A checked statement is written** if it is none that stops the work and the statements in it
are written. -/
theorem Ready.writes (hr : Ready kind fields)
    (hs : ∀ w, StatementIn (.node kind fields) w → Writes n (visit w))
    (hBreaks : ¬ Breaks (.node kind fields)) (hDots : hasFewDots kind fields = true) :
    Writes (n + 1) (visit (.node kind fields)) := by
  rw [visit]
  cases kind with
  | moduleNode =>
    refine hr.found.bind fun p hp => ?_
    refine (Runs.of_ends (hr.items (by decide) hp)).bind fun ps hps => writes_forM ps fun q hq => ?_
    exact Runs.bind (.weaken (hs q.1 (.block (by decide) hps (List.mem_map.2 ⟨q, hq, rfl⟩)))
      (Nat.le_succ n)) fun _ _ => writes_newline _
  | functionDef =>
    refine hr.found.bind fun name _ => ?_
    refine hr.shown.bind fun args _ => ?_
    refine hr.shownItems.bind fun decorators _ => ?_
    refine (writes_decoratorLines _ _).bind fun _ _ => (writes_line _ _).bind fun _ _ => ?_
    exact (hr.writes_block hs).bind fun _ _ => writes_newline _
  | classDef =>
    refine hr.found.bind fun name _ => ?_
    refine hr.shownItems.bind fun bases hb => ?_
    refine hr.shownItems.bind fun decorators _ => ?_
    refine (writes_decoratorLines _ _).bind fun _ _ => ?_
    refine (writes_lineOf _ ((ends_joined _ hb).bind fun _ _ => .pure trivial)).bind fun _ _ => ?_
    exact (hr.writes_block hs).bind fun _ _ => writes_newline _
  | returnStmt =>
    refine hr.found.bind fun p _ => ?_
    split
    · exact hr.shown.bind fun _ _ => writes_line _ _
    · exact writes_line _ _
  | deleteStmt | importStmt | cImport =>
    refine hr.shownItems.bind fun items hi => ?_
    exact writes_lineOf _ ((ends_joined _ hi).bind fun _ _ => .pure trivial)
  | assign =>
    refine hr.shownItems.bind fun targets ht => ?_
    refine hr.shown.bind fun value _ => ?_
    exact writes_lineOf _ ((ends_joined _ ht).bind fun _ _ => .pure trivial)
  | augAssign =>
    refine hr.shown.bind fun target _ => hr.shown.bind fun op _ => ?_
    exact hr.shown.bind fun value _ => writes_line _ _
  | printStmt =>
    refine hr.shownGiven.bind fun dest _ => ?_
    refine hr.shownItems.bind fun values hv => ?_
    refine (Runs.of_ends (ends_joined _ hv)).bind fun values _ => ?_
    exact hr.found.bind fun nl _ => writes_line _ _
  | forLoop =>
    refine hr.shown.bind fun target _ => hr.shown.bind fun iter _ => ?_
    refine (writes_line _ _).bind fun _ _ => ?_
    refine (hr.writes_block hs).bind fun _ _ => ?_
    exact hr.writes_elseBlock hs
  | whileLoop | ifStmt =>
    refine hr.shown.bind fun test _ => (writes_line _ _).bind fun _ _ => ?_
    refine (hr.writes_block hs).bind fun _ _ => ?_
    exact hr.writes_elseBlock hs
  | withStmt =>
    refine hr.shown.bind fun context _ => ?_
    refine hr.shownGiven.bind fun vars _ => (writes_line _ _).bind fun _ _ => ?_
    exact hr.writes_block hs
  | raiseStmt =>
    refine hr.shownGiven.bind fun type ht => ?_
    refine hr.shownGiven.bind fun inst hi => ?_
    refine hr.found.bind fun tback hb => ?_
    have hNone : ¬ tback.1.isTrue = true := by
      rw [hb]
      exact fun h => hBreaks ⟨fields, .inr ⟨rfl, h⟩⟩
    rw [if_neg hNone]
    dsimp only
    split
    · exact writes_line _ _
    · refine writes_lineOf _ ((ends_joined _ (isText_filter ?_)).bind fun _ _ => .pure trivial)
      simpa using ⟨ht, hi⟩
  | tryExcept =>
    refine (writes_line _ _).bind fun _ _ => ?_
    refine (hr.writes_block hs).bind fun _ _ => ?_
    refine Runs.bind (.weaken (hr.writes_visitItems hs) (Nat.le_succ n)) fun _ _ => ?_
    refine (hr.writes_elseBlock hs).bind fun _ _ => ?_
    exact writes_newline _
  | tryFinally =>
    refine Runs.bind (.weaken (hr.writes_visitItems hs) (Nat.le_succ n)) fun _ _ => ?_
    refine (writes_line _ _).bind fun _ _ => ?_
    exact (hr.writes_block hs).bind fun _ _ => writes_newline _
  | assertStmt =>
    refine hr.shown.bind fun test _ => ?_
    exact hr.shownGiven.bind fun msg _ => writes_line _ _
  | importFrom | cImportFrom =>
    refine hr.writes_import (by decide) ?_ (by decide) (by decide) (fun hTrue => ?_) _
    · rintro x rfl hTrue
      exact isText_of_admits (hr.admits_given (.head _) hTrue)
    · obtain ⟨k, hk⟩ := exists_int_of_admits (hr.admits_given (.tail _ (.tail _ (.head _))) hTrue)
      exact ⟨k, hk, by simpa [hasFewDots, hk] using hDots⟩
  | execStmt =>
    refine hr.shown.bind fun body hb => ?_
    refine hr.shownGiven.bind fun globals hg => ?_
    refine hr.shownGiven.bind fun locals hl => ?_
    refine writes_lineOf _ ((ends_joined _ ?_).bind fun _ _ => .pure trivial)
    have hGiven : ∀ v ∈ [globals, locals].filter (·.isTrue), IsText v :=
      isText_filter (by simpa using ⟨hg, hl⟩)
    intro v hv
    rcases List.mem_cons.1 hv with rfl | hv
    · exact hb
    · exact hGiven v hv
  | globalStmt =>
    refine hr.found.bind fun p hp => ?_
    refine writes_lineOf _ ((hr.items (by decide) hp).bind fun ps hps => ?_)
    refine (ends_joined _ fun w hw => ?_).bind fun _ _ => .pure trivial
    exact isText_of_admits (hr.admits_every (.head _) hps w hw)
  | exprStmt =>
    refine hr.shown.bind fun value hv => ?_
    obtain ⟨t, rfl, -⟩ := hv
    exact writes_line _ _
  | passStmt | breakStmt | continueStmt => exact writes_line _ _
  | exceptHandler =>
    refine hr.shownGiven.bind fun name _ => ?_
    refine hr.shownGiven.bind fun type _ => ?_
    have hBody : Writes (n + 1) (do
        block (.node .exceptHandler fields) (fun p => visit p.1) "body"
        newline) :=
      (hr.writes_block hs).bind fun _ _ => writes_newline _
    split
    · exact (writes_line _ _).bind fun _ _ => hBody
    · split <;> exact (writes_line _ _).bind fun _ _ => hBody
  | cdefDecl =>
    refine hr.shownItems.bind fun modifiers hm => ?_
    refine (Runs.of_ends (ends_joined _ ?_)).bind fun words _ => ?_
    · simpa [isText] using hm
    refine (Runs.of_ends (ends_pushPending _)).bind fun _ _ => ?_
    refine hr.found.bind fun p hp => ?_
    exact (writes_declared hs rfl hp).weaken (Nat.le_succ n)
  | cpdefDecl =>
    refine (Runs.of_ends (ends_pushPending _)).bind fun _ _ => ?_
    refine hr.found.bind fun p hp => ?_
    exact (writes_declared hs rfl hp).weaken (Nat.le_succ n)
  | cTypedefDecl =>
    refine (Runs.of_ends (ends_pushPending _)).bind fun _ _ => ?_
    refine hr.found.bind fun p hp => ?_
    exact ((writes_declared hs rfl hp).weaken (Nat.le_succ n)).bind fun _ _ => writes_newline _
  | cFunctionDecl => exact hr.writes_functionDecl
  | cFunctionDef => exact absurd ⟨fields, .inl rfl⟩ hBreaks
  | cppClassDef | structDef | unionDef => exact hr.writes_named hs (by decide) (by decide) _
  | enumDef =>
    refine hr.found.bind fun name _ => ?_
    exact hr.writes_record hs (by decide) _
  | propertyDef =>
    refine hr.found.bind fun name _ => (writes_put _ _).bind fun _ _ => ?_
    have hBody := writes_indented ((writes_newline n).bind fun _ _ =>
      hr.writes_visitItems hs (show "body" ∈ Kind.propertyDef.blocks by decide))
    simpa only [bind_assoc] using hBody
  | externFrom =>
    refine hr.found.bind fun name _ => ?_
    refine (Runs.of_ends ends_popHead).bind fun lead _ => (writes_put _ _).bind fun _ _ => ?_
    refine (writes_onPage _ (f := (·.newline 2)) fun _ => ⟨rfl, rfl⟩).bind fun _ _ => ?_
    exact hr.writes_block hs
  | _ => exact .of_ends (ends_say _)

end Rules

theorem mem_of_fieldOf {fields : List (String × Value)} {name : String}
    (h : fieldOf fields name = x) (hx : x ≠ .nothing) : x ∈ fields.map (·.2) := by
  unfold fieldOf at h
  cases hl : fields.lookup name with
  | none =>
    rw [hl] at h
    exact absurd h.symm hx
  | some y =>
    rw [hl] at h
    obtain rfl : y = x := h
    obtain ⟨before, after, rfl, -⟩ := List.lookup_eq_some_iff.1 hl
    simp

theorem StatementIn.carried {fields : List (String × Value)} (h : StatementIn (.node kind fields) w)
    (hw : w.kind?.isSome = true) : ∃ x ∈ fields.map (·.2), Carries x w := by
  cases h with
  | block _ hList hmem => exact ⟨_, mem_of_fieldOf hList (by simp), .item hmem⟩
  | declared =>
    refine ⟨_, mem_of_fieldOf rfl fun hNone => ?_, .self _⟩
    rw [hNone] at hw
    cases hw

/-- What is no node is only mentioned on the console. -/
theorem writes_of_kind?_none (n : Nat) (h : v.kind? = none) : Writes n (visit v) := by
  rw [visit]
  unfold visitStep
  rw [h]
  exact .of_ends (ends_say _)

/-- The statements in a node stand in one another at most `n` deep, and none of them stops the
work. -/
inductive Nests : Nat → Value → Prop where
  | intro {n : Nat} {v : Value} : ¬ Breaks v →
    (∀ w, StatementIn v w → w.kind?.isSome = true → Nests n w) → Nests (n + 1) v

/-- **A made statement is written** if the statements in it have room and none of them stops the
work. -/
theorem Made.writes_of_nests (h : Made v) (hm : isModest v = true) (hNests : Nests n v) :
    Writes n (visit v) := by
  refine h.checked_induction (motive := fun v => ∀ n, isModest v = true → Nests n v →
    Writes n (visit v)) ?_ n hm hNests
  intro kind fields hc hl ih n hm hNests
  cases hNests with
  | intro hBreaks hNests =>
    have hParts : ∀ x ∈ fields.map (·.2), ∀ w, Carries x w → Sound w := by
      intro x hx w hw
      cases hKind : w.kind? with
      | none => exact sound_of_kind?_none hKind
      | some k => exact (ih x hx w hw (by simp [hKind])).1.sound (isModest_of_carries hm hx hw)
    refine Ready.writes ⟨hc, hl, hParts⟩ (fun w hw => ?_) hBreaks ?_
    · cases hKind : w.kind? with
      | none => exact writes_of_kind?_none _ hKind
      | some k =>
        have hNode : w.kind?.isSome = true := by simp [hKind]
        obtain ⟨x, hx, hCarries⟩ := hw.carried hNode
        exact (ih x hx w hCarries hNode).2 _ (isModest_of_carries hm hx hCarries)
          (hNests w hw hNode)
    · simp only [isModest, Bool.and_eq_true] at hm
      exact hm.1

theorem depth_le_depthsOf {fields : List (String × Value)} (h : x ∈ fields.map (·.2)) :
    x.depth ≤ depthsOf fields := by
  induction fields with
  | nil => cases h
  | cons f rest ih =>
    simp only [depthsOf]
    rcases List.mem_cons.1 h with rfl | h
    · exact Nat.le_max_left _ _
    · exact Nat.le_trans (ih h) (Nat.le_max_right _ _)

theorem Carries.depth_le (h : Carries x w) : w.depth ≤ x.depth := by
  cases h with
  | self => exact Nat.le_refl _
  | item hw => exact Nat.le_succ_of_le (depth_le_depths hw)

/-- Statements stand in one another no deeper than the node is deep. -/
theorem nests_of_depth_le {fields : List (String × Value)} (h : (Value.node kind fields).depth ≤ n)
    (hBreaks : ∀ w, Within (.node kind fields) w → ¬ Breaks w) : Nests n (.node kind fields) := by
  induction n generalizing kind fields with
  | zero => simp [Value.depth] at h
  | succ n ih =>
    refine .intro (hBreaks _ (.self _)) fun w hw hNode => ?_
    obtain ⟨x, hx, hCarries⟩ := hw.carried hNode
    have hDepth := Nat.le_trans hCarries.depth_le (depth_le_depthsOf hx)
    simp only [Value.depth] at h
    cases w with
    | node _ _ => exact ih (by omega) fun u hu => hBreaks u (.inner hw hu)
    | _ => cases hNode

theorem Made.nests_depth (h : Made v) (hBreaks : ∀ w, Within v w → ¬ Breaks w) :
    Nests v.depth v := by
  cases h with
  | single | built => exact nests_of_depth_le (Nat.le_refl _) hBreaks

/-! ### Statements that stop the work -/

/-- Whenever the work ends, the statement has been visited to the end. -/
def Reaches (x : Rendering α) (w : Value) : Prop :=
  ∀ s a s', Gives x s a s' → ∃ t t', Gives (visit w) t () t'

namespace Reaches

variable {w : Value}

theorem first {x : Rendering α} (h : Reaches x w) : Reaches (x >>= f) w := by
  intro s b s' hGives
  obtain ⟨a, t, hx, -⟩ := gives_bind.1 hGives
  exact h s a t hx

theorem later {x : Rendering α} (h : ∀ a, (∃ s s', Gives x s a s') → Reaches (f a) w) :
    Reaches (x >>= f) w := by
  intro s b s' hGives
  obtain ⟨a, t, hx, hf⟩ := gives_bind.1 hGives
  exact h a ⟨s, t, hx⟩ t b s' hf

theorem forM {f : α → Rendering Unit} {a : α} (h : Reaches (f a) w) {as : List α} (ha : a ∈ as) :
    Reaches (as.forM f) w := by
  induction as with
  | nil => cases ha
  | cons b as ih =>
    intro s u s' hGives
    obtain ⟨t, hb, hRest⟩ := gives_forM_cons.1 hGives
    rcases List.mem_cons.1 ha with rfl | ha
    · exact h _ _ _ hb
    · exact ih ha _ _ _ hRest

theorem visit (w : Value) : Reaches (visit w) w := fun s _ s' h => ⟨s, s', h⟩

end Reaches

section

variable {kind : Kind} {fields : List (String × Value)} {name : String}

theorem fieldOf_of_gives_need {p : Part (.node kind fields)}
    (h : ∃ s s', Gives (need (.node kind fields) name) s p s') : p.1 = fieldOf fields name := by
  obtain ⟨s, s', h⟩ := h
  unfold need at h
  cases hField : (Value.node kind fields).field? name with
  | none =>
    rw [hField] at h
    exact absurd h gives_throw
  | some q =>
    rw [hField] at h
    obtain ⟨rfl, -⟩ := gives_pure.1 h
    exact (fieldOf_of_field? hField).symm

theorem items_of_gives_items {p : Part v} {ws : List Value} (hp : p.1 = .list ws)
    {ps : List (Part v)} (h : ∃ s s', Gives (items p) s ps s') : ps.map (·.1) = ws := by
  obtain ⟨s, s', h⟩ := h
  obtain ⟨w, hw⟩ := p
  obtain rfl : w = .list ws := hp
  obtain ⟨rfl, -⟩ := gives_pure.1 h
  simp

variable {ws : List Value} {w : Value} (hList : fieldOf fields name = .list ws) (hw : w ∈ ws)

include hList hw

theorem reaches_visitItems :
    Reaches (visitItems (.node kind fields) (fun p => visit p.1) name) w := by
  refine .later fun p hp => .later fun ps hps => ?_
  have hItems := items_of_gives_items ((fieldOf_of_gives_need hp).trans hList) hps
  rw [← hItems] at hw
  obtain ⟨q, hq, rfl⟩ := List.mem_map.1 hw
  exact Reaches.forM (f := fun p : Part (.node kind fields) => visit p.1) (.visit q.1) hq

theorem reaches_block : Reaches (block (.node kind fields) (fun p => visit p.1) name) w :=
  .later fun _ _ => .first (reaches_visitItems hList hw)

omit hList in
theorem reaches_elseBlock (hList : fieldOf fields "orelse" = .list ws) :
    Reaches (elseBlock (.node kind fields) fun p => visit p.1) w := by
  refine .later fun p hp => ?_
  have hTrue : p.1.isTrue = true := by
    rw [fieldOf_of_gives_need hp, hList]
    cases ws with
    | nil => cases hw
    | cons => rfl
  rw [if_pos hTrue]
  exact .later fun _ _ => reaches_block hList hw

omit hList in
theorem reaches_record (hList : fieldOf fields "body" = .list ws) (heading : String) :
    Reaches (record (.node kind fields) (fun p => visit p.1) heading) w :=
  .later fun _ _ => .later fun _ _ => .first (reaches_block hList hw)

end

theorem StatementIn.reaches (h : StatementIn v w) : Reaches (visit v) w := by
  cases h with
  | @block kind fields name ws w hName hList hw =>
    rw [visit]
    cases kind with
    | moduleNode =>
      obtain rfl := List.mem_singleton.1 hName
      refine .later fun p hp => .later fun ps hps => ?_
      have hItems := items_of_gives_items ((fieldOf_of_gives_need hp).trans hList) hps
      rw [← hItems] at hw
      obtain ⟨q, hq, rfl⟩ := List.mem_map.1 hw
      exact Reaches.forM (f := fun p : Part (.node .moduleNode fields) => do visit p.1; newline)
        (.first (.visit q.1)) hq
    | functionDef | classDef =>
      obtain rfl := List.mem_singleton.1 hName
      exact .later fun _ _ => .later fun _ _ => .later fun _ _ => .later fun _ _ =>
          .later fun _ _ =>
        .first (reaches_block hList hw)
    | withStmt =>
      obtain rfl := List.mem_singleton.1 hName
      exact .later fun _ _ => .later fun _ _ => .later fun _ _ => reaches_block hList hw
    | exceptHandler =>
      obtain rfl := List.mem_singleton.1 hName
      refine .later fun _ _ => .later fun _ _ => ?_
      split
      · exact .later fun _ _ => .first (reaches_block hList hw)
      · split <;> exact .later fun _ _ => .first (reaches_block hList hw)
    | structDef | unionDef | cppClassDef | enumDef =>
      obtain rfl := List.mem_singleton.1 hName
      exact .later fun _ _ => reaches_record hw hList _
    | propertyDef =>
      obtain rfl := List.mem_singleton.1 hName
      exact .later fun _ _ => .later fun _ _ => .later fun _ _ => .later fun _ _ =>
        .first (reaches_visitItems hList hw)
    | externFrom =>
      obtain rfl := List.mem_singleton.1 hName
      exact .later fun _ _ => .later fun _ _ => .later fun _ _ => .later fun _ _ =>
        reaches_block hList hw
    | forLoop =>
      simp only [Kind.blocks, List.mem_cons, List.not_mem_nil, or_false] at hName
      rcases hName with rfl | rfl
      · exact .later fun _ _ => .later fun _ _ => .later fun _ _ => .first (reaches_block hList hw)
      · exact .later fun _ _ => .later fun _ _ => .later fun _ _ => .later fun _ _ =>
          reaches_elseBlock hw hList
    | whileLoop | ifStmt =>
      simp only [Kind.blocks, List.mem_cons, List.not_mem_nil, or_false] at hName
      rcases hName with rfl | rfl
      · exact .later fun _ _ => .later fun _ _ => .first (reaches_block hList hw)
      · exact .later fun _ _ => .later fun _ _ => .later fun _ _ => reaches_elseBlock hw hList
    | tryExcept =>
      simp only [Kind.blocks, List.mem_cons, List.not_mem_nil, or_false] at hName
      rcases hName with rfl | rfl | rfl
      · exact .later fun _ _ => .first (reaches_block hList hw)
      · exact .later fun _ _ => .later fun _ _ => .first (reaches_visitItems hList hw)
      · exact .later fun _ _ => .later fun _ _ => .later fun _ _ =>
          .first (reaches_elseBlock hw hList)
    | tryFinally =>
      simp only [Kind.blocks, List.mem_cons, List.not_mem_nil, or_false] at hName
      rcases hName with rfl | rfl
      · exact .first (reaches_visitItems hList hw)
      · exact .later fun _ _ => .later fun _ _ => .first (reaches_block hList hw)
    | _ => cases hName
  | @declared kind fields hd =>
    rw [visit]
    cases kind with
    | cdefDecl =>
      refine .later fun _ _ => .later fun _ _ => .later fun _ _ => .later fun p hp => ?_
      rw [← fieldOf_of_gives_need hp]
      exact .visit p.1
    | cpdefDecl =>
      refine .later fun _ _ => .later fun p hp => ?_
      rw [← fieldOf_of_gives_need hp]
      exact .visit p.1
    | cTypedefDecl =>
      refine .later fun _ _ => .later fun p hp => .first ?_
      rw [← fieldOf_of_gives_need hp]
      exact .visit p.1
    | _ => cases hd

theorem not_gives_visitRaise {fields : List (String × Value)}
    (h : (fieldOf fields "tback").isTrue = true) :
    ¬ Gives (visitRaise (.node .raiseStmt fields)) s u s' := by
  intro hGives
  obtain ⟨_, _, -, hGives⟩ := gives_bind.1 hGives
  obtain ⟨_, _, -, hGives⟩ := gives_bind.1 hGives
  obtain ⟨p, _, hp, hGives⟩ := gives_bind.1 hGives
  rw [if_pos (by rw [fieldOf_of_gives_need ⟨_, _, hp⟩]; exact h)] at hGives
  obtain ⟨_, _, hGives, -⟩ := gives_bind.1 hGives
  exact gives_throw hGives

theorem not_gives_visitCFunctionDef : ¬ Gives (visitCFunctionDef v) s u s' := by
  intro hGives
  iterate 7 obtain ⟨_, _, -, hGives⟩ := gives_bind.1 hGives
  exact gives_throw hGives

theorem Breaks.not_gives_visit (h : Breaks w) : ¬ Gives (visit w) s () s' := by
  rw [visit]
  obtain ⟨fields, rfl | ⟨rfl, hTrue⟩⟩ := h
  · exact not_gives_visitCFunctionDef
  · exact not_gives_visitRaise hTrue

theorem Within.reaches {v : Value} (h : Within v w) : Reaches (visit v) w := by
  induction h with
  | self v => exact .visit v
  | inner hu _ ih =>
    intro s a s' hGives
    obtain ⟨t, t', hu⟩ := hu.reaches s a s' hGives
    exact ih t () t' hu

end PxdGen.Pxd
