import PxdGen.Proofs.Render.Rules
import PxdGen.Proofs.Render.Statement
/-! # Rendering where no words are pending

Where no words are pending, none are when rendering has ended, however it ends: an expression takes
none, and a statement that is no declaration with words in front leaves none. Two ways to visit the
statements in the blocks of a statement come to the same for it, if they do where no words are
pending.
-/

namespace PxdGen.Pxd

open Rendering Value

variable {α β : Type}

/-- The same sheet, on which no words are pending. -/
def Quiet (s t : Sheet) : Prop := t = s ∧ s.pending = []

/-- Work that comes to the same where no words are pending, and leaves none pending. -/
abbrev Alike (x y : Rendering α) : Prop := InStep Quiet Eq x y

/-- Work that leaves no words pending where there are none. -/
abbrev Calm (x : Rendering α) : Prop := Alike x x

theorem Alike.outcome_eq {x y : Rendering α} (h : Alike x y) {s : Sheet} (hs : s.pending = []) :
    outcome y s = outcome x s ∧ (outcome x s).2.pending = [] := by
  have h := h (s := s) (t := s) ⟨rfl, hs⟩
  generalize outcome x s = p, outcome y s = q at h
  cases h with
  | ok hR hS =>
    obtain ⟨rfl, hPending⟩ := hS
    exact ⟨by rw [hR], hPending⟩
  | error e hS =>
    obtain ⟨rfl, hPending⟩ := hS
    exact ⟨rfl, hPending⟩

theorem alike_of_outcome_eq {x x' y y' : Rendering α} (h : Alike x y)
    (hx : ∀ s : Sheet, s.pending = [] → outcome x' s = outcome x s)
    (hy : ∀ s : Sheet, s.pending = [] → outcome y' s = outcome y s) : Alike x' y' := by
  rintro s t ⟨rfl, hs⟩
  rw [hx t hs, hy t hs]
  exact h ⟨rfl, hs⟩

theorem alike_forM {f g : α → Rendering Unit} (as : List α) (h : ∀ a ∈ as, Alike (f a) (g a)) :
    Alike (as.forM f) (as.forM g) := by
  induction as with
  | nil => exact .pure rfl
  | cons a as ih =>
    exact .bindEq (h a (by simp)) fun _ => ih fun b hb => h b (by simp [hb])

/-! ### Work that takes no words -/

theorem calm_modify {f : Sheet → Sheet} (h : ∀ s, (f s).pending = s.pending) : Calm (modify f) :=
  .modify fun s _ hs => ⟨by rw [hs.1], (h s).trans hs.2⟩

theorem calm_get {f : Sheet → Rendering α} (h : ∀ s, s.pending = [] → Calm (f s)) :
    Calm (get >>= f) :=
  .get fun s t hs => by
    rw [hs.1]
    exact h s hs.2

@[grind .]
theorem calm_say (text : String) : Calm (say text) := calm_modify fun _ => rfl

@[grind .]
theorem calm_onPage (f : Page → Page) : Calm (onPage f) := by
  refine calm_get fun s _ => ?_
  split
  · exact .throw _
  · exact calm_modify fun _ => rfl

@[grind .]
theorem calm_newline : Calm newline := calm_onPage _

@[grind .]
theorem calm_put (text : String) : Calm (put text) := by
  refine calm_get fun s _ => ?_
  split
  · exact .throw _
  · exact calm_onPage _

@[grind .]
theorem calm_line (text : String) : Calm (line text) := .bindEq (calm_put _) fun _ => calm_newline

@[grind ←]
theorem calm_lineOf {text : Rendering String} (h : Calm text) : Calm (lineOf text) :=
  .bindEq (calm_onPage _) fun _ => .bindEq h calm_line

@[grind .]
theorem calm_popPending : Calm popPending := by
  refine calm_get fun s hs => ?_
  rw [hs]
  exact .pure rfl

@[grind .]
theorem calm_popLead : Calm popLead := by
  grind [popLead]

@[grind .]
theorem calm_popHead : Calm record.popHead := by
  grind [record.popHead]

/-! ### Expressions -/

@[grind .]
theorem calm_undefinedNode (v : Value) : Calm (renderStep.undefinedNode v) := by
  grind [renderStep.undefinedNode]

/-- **An expression takes no words**, and leaves none pending. -/
@[grind .]
theorem calm_render (v : Value) : Calm (render v) := by
  rw [render]
  exact steady_renderStep (fun p => calm_render p.1) calm_popLead (calm_undefinedNode v)
termination_by v.depth
decreasing_by exact p.2

/-! ### Statements -/

@[grind .]
theorem calm_shown (v : Value) (name : String) : Calm (shown v name) := by
  grind [shown]

@[grind .]
theorem calm_shownItems (v : Value) (name : String) : Calm (shownItems v name) := by
  grind [shownItems]

@[grind .]
theorem calm_shownGiven (v : Value) (name : String) : Calm (shownGiven v name) := by
  grind [shownGiven]

@[grind .]
theorem calm_decoratorLines (decorators : List Value) : Calm (decoratorLines decorators) :=
  .forM (fun _ => calm_line _) decorators

@[grind .]
theorem calm_visitPrint (v : Value) : Calm (visitPrint v) := by
  grind [visitPrint]

@[grind .]
theorem calm_visitRaise (v : Value) : Calm (visitRaise v) := by
  grind [visitRaise]

@[grind .]
theorem calm_visitImport (v : Value) (word : String) : Calm (visitImport v word) := by
  refine .bindEq (steady_need v _) fun module => .bindEq (calm_shownItems v _) fun names => ?_
  refine .bindEq (steady_joined _ _) fun names => .bindEq (steady_need v _) fun level => ?_
  grind

@[grind .]
theorem calm_functionText (v : Value) (name args : String) : Calm (functionText v name args) := by
  grind [functionText]

@[grind .]
theorem calm_visitCFunctionDecl (v : Value) : Calm (visitCFunctionDecl v) := by
  refine .bindEq calm_popLead fun lead => .bindEq (steady_need v _) fun name => ?_
  refine .bindEq (calm_shown v _) fun args => .bindEq (calm_functionText v _ _) fun text => ?_
  grind

@[grind .]
theorem calm_visitCFunctionDef (v : Value) : Calm (visitCFunctionDef v) := by
  refine .bindEq calm_popPending fun _ => .bindEq (steady_need v _) fun decorators => ?_
  grind

section Blocks

variable {kind : Kind} {fields : List (String × Value)} {name : String}
  {sub sub' : Part (.node kind fields) → Rendering Unit}

theorem mem_lists_of_mem_blocks (h : name ∈ kind.blocks) : name ∈ kind.lists := by
  have hAll : ∀ kind : Kind, kind.blocks.all kind.lists.contains = true := by
    intro kind
    cases kind <;> rfl
  simpa using List.all_eq_true.1 (hAll kind) name h

variable (hl : ∀ name ∈ kind.lists, ∃ ws, fieldOf fields name = .list ws)
  (h : ∀ p, StatementIn (.node kind fields) p.1 → Alike (sub p) (sub' p))

include hl h

theorem alike_forM_items (hb : name ∈ kind.blocks) {p : Part (.node kind fields)}
    (hp : p.1 = fieldOf fields name) {f : Rendering Unit → Rendering Unit}
    (hf : ∀ x y, Alike x y → Alike (f x) (f y)) :
    Alike (items p >>= fun ps => ps.forM fun q => f (sub q))
      (items p >>= fun ps => ps.forM fun q => f (sub' q)) := by
  obtain ⟨ws, hws⟩ := hl name (mem_lists_of_mem_blocks hb)
  refine inStep_listed (hp.trans hws) fun ps hps => ?_
  refine alike_forM ps fun q hq => hf _ _ (h q (.block hb hws ?_))
  rw [← hps]
  exact List.mem_map.2 ⟨q, hq, rfl⟩

theorem alike_visitItems (hb : name ∈ kind.blocks := by decide) :
    Alike (visitItems (.node kind fields) sub name) (visitItems (.node kind fields) sub' name) :=
  inStep_field fun _ hp => alike_forM_items hl h hb hp (f := id) fun _ _ hxy => hxy

theorem alike_block (hb : name ∈ kind.blocks := by decide) :
    Alike (block (.node kind fields) sub name) (block (.node kind fields) sub' name) :=
  .bindEq (calm_onPage _) fun _ => .bindEq (alike_visitItems hl h hb) fun _ => calm_onPage _

theorem alike_elseBlock (hb : "orelse" ∈ kind.blocks := by decide) :
    Alike (elseBlock (.node kind fields) sub) (elseBlock (.node kind fields) sub') := by
  refine .bindEq (steady_need _ _) fun p => ?_
  split
  · exact .bindEq (calm_line _) fun _ => alike_block hl h hb
  · exact .pure rfl

theorem alike_record (hb : "body" ∈ kind.blocks) (heading : String) :
    Alike (record (.node kind fields) sub heading) (record (.node kind fields) sub' heading) := by
  refine .bindEq calm_popHead fun lead => .bindEq (calm_line _) fun _ => ?_
  exact .bindEq (alike_block hl h hb) fun _ => calm_newline

/-- **Statements in blocks are visited where no words are pending**: only what comes of visiting
them there matters to the statement around them. -/
theorem alike_visitStep (hk : kind.isDeclaring = false) :
    Alike (visitStep (.node kind fields) sub) (visitStep (.node kind fields) sub') := by
  cases kind with
  | moduleNode =>
    refine inStep_field fun p hp => ?_
    exact alike_forM_items hl h (by decide) hp (f := fun x => do x; newline) fun _ _ hxy =>
      .bindEq hxy fun _ => calm_newline
  | functionDef =>
    refine .bindEq (steady_need _ _) fun name => .bindEq (calm_shown _ _) fun args => ?_
    refine .bindEq (calm_shownItems _ _) fun decorators => ?_
    refine .bindEq (calm_decoratorLines _) fun _ => .bindEq (calm_line _) fun _ => ?_
    exact .bindEq (alike_block hl h) fun _ => calm_newline
  | classDef =>
    refine .bindEq (steady_need _ _) fun name => .bindEq (calm_shownItems _ _) fun bases => ?_
    refine .bindEq (calm_shownItems _ _) fun decorators => ?_
    refine .bindEq (calm_decoratorLines _) fun _ => ?_
    refine .bindEq (calm_lineOf (.bindEq (steady_joined _ _) fun _ => .pure rfl)) fun _ => ?_
    exact .bindEq (alike_block hl h) fun _ => calm_newline
  | returnStmt =>
    refine .bindEq (steady_need _ _) fun p => ?_
    split
    · exact .bindEq (calm_shown _ _) fun _ => calm_line _
    · exact calm_line _
  | deleteStmt | importStmt | cImport =>
    refine .bindEq (calm_shownItems _ _) fun names => ?_
    exact calm_lineOf (.bindEq (steady_joined _ _) fun _ => .pure rfl)
  | assign =>
    refine .bindEq (calm_shownItems _ _) fun targets => .bindEq (calm_shown _ _) fun value => ?_
    exact calm_lineOf (.bindEq (steady_joined _ _) fun _ => .pure rfl)
  | augAssign =>
    refine .bindEq (calm_shown _ _) fun target => .bindEq (calm_shown _ _) fun op => ?_
    exact .bindEq (calm_shown _ _) fun value => calm_line _
  | printStmt => exact calm_visitPrint _
  | forLoop =>
    refine .bindEq (calm_shown _ _) fun target => .bindEq (calm_shown _ _) fun iter => ?_
    refine .bindEq (calm_line _) fun _ => .bindEq (alike_block hl h) fun _ => ?_
    exact alike_elseBlock hl h
  | whileLoop | ifStmt =>
    refine .bindEq (calm_shown _ _) fun test => .bindEq (calm_line _) fun _ => ?_
    exact .bindEq (alike_block hl h) fun _ => alike_elseBlock hl h
  | withStmt =>
    refine .bindEq (calm_shown _ _) fun context => .bindEq (calm_shownGiven _ _) fun vars => ?_
    exact .bindEq (calm_line _) fun _ => alike_block hl h
  | raiseStmt => exact calm_visitRaise _
  | tryExcept =>
    refine .bindEq (calm_line _) fun _ => .bindEq (alike_block hl h) fun _ => ?_
    refine .bindEq (alike_visitItems hl h) fun _ => ?_
    exact .bindEq (alike_elseBlock hl h) fun _ => calm_newline
  | tryFinally =>
    refine .bindEq (alike_visitItems hl h) fun _ => .bindEq (calm_line _) fun _ => ?_
    exact .bindEq (alike_block hl h) fun _ => calm_newline
  | assertStmt =>
    refine .bindEq (calm_shown _ _) fun test => .bindEq (calm_shownGiven _ _) fun msg => ?_
    exact calm_line _
  | importFrom | cImportFrom => exact calm_visitImport _ _
  | execStmt =>
    refine .bindEq (calm_shown _ _) fun body => .bindEq (calm_shownGiven _ _) fun globals => ?_
    refine .bindEq (calm_shownGiven _ _) fun locals => ?_
    exact calm_lineOf (.bindEq (steady_joined _ _) fun _ => .pure rfl)
  | globalStmt =>
    refine .bindEq (steady_need _ _) fun names => calm_lineOf ?_
    exact .bindEq (steady_items _) fun _ => .bindEq (steady_joined _ _) fun _ => .pure rfl
  | exprStmt =>
    refine .bindEq (calm_shown _ _) fun value => ?_
    split
    · exact calm_line _
    · exact .bindEq (calm_put _) fun _ => .throw _
  | passStmt | breakStmt | continueStmt => exact calm_line _
  | exceptHandler =>
    refine .bindEq (calm_shownGiven _ _) fun name => .bindEq (calm_shownGiven _ _) fun type => ?_
    have hBody :
        ∀ text, Alike (do line text; block (.node .exceptHandler fields) sub "body"; newline)
        (do line text; block (.node .exceptHandler fields) sub' "body"; newline) := fun text =>
      .bindEq (calm_line _) fun _ => .bindEq (alike_block hl h) fun _ => calm_newline
    split
    · exact hBody _
    · split <;> exact hBody _
  | cdefDecl | cpdefDecl | cTypedefDecl => cases hk
  | cFunctionDecl => exact calm_visitCFunctionDecl _
  | cFunctionDef => exact calm_visitCFunctionDef _
  | cppClassDef | structDef | unionDef | enumDef =>
    exact .bindEq (steady_need _ _) fun name => alike_record hl h (by decide) _
  | propertyDef =>
    refine .bindEq (steady_need _ _) fun name => .bindEq (calm_put _) fun _ => ?_
    refine .bindEq (calm_onPage _) fun _ => .bindEq calm_newline fun _ => ?_
    exact .bindEq (alike_visitItems hl h) fun _ => calm_onPage _
  | externFrom =>
    refine .bindEq (steady_need _ _) fun name => .bindEq calm_popHead fun lead => ?_
    refine .bindEq (calm_put _) fun _ => .bindEq (calm_onPage _) fun _ => ?_
    exact alike_block hl h
  | _ => exact calm_say _

end Blocks

end PxdGen.Pxd
