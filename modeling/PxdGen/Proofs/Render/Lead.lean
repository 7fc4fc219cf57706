import PxdGen.Proofs.Layout.Writing
import PxdGen.Proofs.Render.Module
import PxdGen.Proofs.Render.Quiet
/-! # Words before declarations

The words of a `cdef`, `cpdef` or `ctypedef` are left pending, to be taken up by the declaration in
it. `visitLed` needs no pending words: it hands the words to that declaration, which writes them
once, at the head of its first line. Where every such statement has a declaration in it that takes
up words, both ways to visit come to the same.
-/

namespace PxdGen.Pxd

open Rendering Value

variable {α β : Type}

variable {s' : Sheet} {v w u : Value} {words : String}

/-! ### Declarations with a lead -/

/-- A declaration that takes up the words before it. -/
def isDeclaration : Value → Bool
  | .node .cFunctionDecl _ | .node .structDef _ | .node .unionDef _ | .node .enumDef _
  | .node .cppClassDef _ | .node .externFrom _ => true
  | .node .exprStmt fields => (fieldOf fields "value").isNode .cName
  | _ => false

def declaredText (v : Value) : Rendering String := do
  let (marks, base) ← peelField v "ctype"
  let name := declarator marks (← need v "name").1
  let type ← render base.1
  declare base.1 type name

/-- The text that a declaration begins with, if there are no words before it. -/
def opening (v : Value) : Rendering String := do
  match v.kind? with
  | some .cFunctionDecl => do
    let name ← need v "name"
    let args ← shown v "args"
    let text ← functionText v name.1.plain args.plain
    let excepts ← need v "excepts"
    if excepts.1.isTrue then pure (text ++ " excepts " ++ (← render excepts.1).plain)
    else pure text
  | some .exprStmt => do declaredText (← need v "value").1
  | some .externFrom => do pure ("extern from \"" ++ (← need v "name").1.plain ++ "\":")
  | some .enumDef => do
    let name ← need v "name"
    pure ((if name.1.isTrue then "enum " ++ name.1.plain else "enum") ++ ":")
  | some .cppClassDef => do pure ("cppclass " ++ (← need v "name").1.plain ++ ":")
  | some .unionDef => do pure ("union " ++ (← need v "name").1.plain ++ ":")
  | _ => do pure ("struct " ++ (← need v "name").1.plain ++ ":")

/-- What a declaration writes after the text that it begins with. -/
def following (v : Value) (sub : Part v → Rendering Unit) : Rendering Unit :=
  match v.kind? with
  | some .cFunctionDecl => onPage (·.newline 2)
  | some .exprStmt => newline
  | some .externFrom => do
    onPage (·.newline 2)
    block v sub "body"
  | _ => do
    newline
    block v sub "body"
    newline

/-- Writes a declaration with a lead at its head. -/
def ledStep (lead : String) (v : Value) (sub : Part v → Rendering Unit) : Rendering Unit := do
  let text ← opening v
  put (if v.isNode .exprStmt then Text.trim (lead ++ text) else lead ++ text)
  following v sub

/-- A statement that puts words before the declaration in it. -/
def isDeclaring (v : Value) : Bool := (v.kind?.map Kind.isDeclaring).getD false

/-- The words that a statement puts before the declaration in it. -/
def wordsOf (v : Value) : Rendering String :=
  match v.kind? with
  | some .cdefDecl => do joined " " (.text "cdef" :: (← shownItems v "modifiers"))
  | some .cpdefDecl => pure "cpdef"
  | _ => pure "ctypedef"

/-- Writes the declaration in a statement with its words at the head; `sub` visits the parts of the
declaration. -/
def ledDeclared (v : Value) (sub : (p : Part v) → Part p.1 → Rendering Unit) : Rendering Unit := do
  let words ← wordsOf v
  let p ← need v "value"
  ledStep (words ++ " ") p.1 (sub p)
  if v.isNode .cTypedefDecl then newline

/-- Writes a statement, and words at the head of the declaration that stands directly behind
them. -/
def visitLed (v : Value) : Rendering Unit :=
  if isDeclaring v then ledDeclared v fun p q => visitLed q.1
  else if isDeclaration v then ledStep "" v fun p => visitLed p.1
  else visitStep v fun p => visitLed p.1
termination_by v.depth
decreasing_by
  · exact Nat.lt_trans q.2 p.2
  · exact p.2
  · exact p.2

/-- Gives the alarm if words are pending. -/
def watched (alarm x : Rendering Unit) : Rendering Unit := do
  let s ← get
  if !s.pending.isEmpty then alarm
  x

/-- Writes a statement, with an alarm at each statement of a block that is visited while words are
pending. -/
def visitWatched (alarm : Rendering Unit) (v : Value) : Rendering Unit :=
  visitStep v fun p =>
    if isDeclaring v then visitWatched alarm p.1 else watched alarm (visitWatched alarm p.1)
termination_by v.depth
decreasing_by
  · exact p.2
  · exact p.2

/-- Words stand before declarations only. -/
def HasWordsInPlace (v : Value) : Prop :=
  ∀ kind fields, Within v (.node kind fields) → kind.isDeclaring = true →
    isDeclaration (fieldOf fields "value") = true

/-! ### Taking up words -/

variable {s : Sheet} {x : Rendering α}

theorem outcome_bind_of_gives {f : α → Rendering β} {a : α} (h : Gives x s a s') :
    outcome (x >>= f) s = outcome (f a) s' := by
  rw [outcome_bind, show outcome x s = (.ok a, s') from h]

variable {kind : Kind}

theorem need_eq_of_checked {fields : List (String × Value)} {name : String}
    (hc : Checked kind fields) (h : name ∈ kind.names) :
    ∃ p : Part (.node kind fields), need (.node kind fields) name = pure p ∧
      p.1 = fieldOf fields name := by
  obtain ⟨x, hx, rfl, -⟩ := lookup_of_mem_names hc h
  obtain ⟨p, hp, hpx⟩ := field?_of_lookup kind hx
  exact ⟨p, by rw [need, hp], hpx⟩

section TakeUp

variable {fields : List (String × Value)} {s₁ s : Sheet} {lead : String}

/-- A heading behind the words that are taken up. -/
theorem outcome_record (hHead : Gives record.popHead s₁ lead s) (v : Value)
    (sub : Part v → Rendering Unit) (heading : String) :
    outcome (record v sub heading) s₁ =
      outcome (do put (lead ++ (heading ++ ":")); newline; block v sub "body"; newline) s := by
  rw [record, outcome_bind_of_gives hHead, String.append_assoc]
  simp only [line, bind_assoc]

theorem render_cName (h : v.kind? = some .cName) :
    render v = (do
      let lead ← popLead
      let text ← declaredText v
      pure (.text (Text.trim (lead ++ text)))) := by
  rw [render]
  unfold renderStep
  simp only [h, Kind.symbol?, renderCName, declaredText, bind_assoc]

/-- **A declaration takes up the words before it** and writes them at its head. -/
theorem outcome_visitStep_eq (hc : Checked kind fields)
    (hd : isDeclaration (.node kind fields) = true) (hLead : Gives popLead s₁ lead s)
    (hHead : Gives record.popHead s₁ lead s) (sub : Part (.node kind fields) → Rendering Unit) :
    outcome (visitStep (.node kind fields) sub) s₁ =
      outcome (ledStep lead (.node kind fields) sub) s := by
  cases kind with
  | cFunctionDecl =>
    show outcome (visitCFunctionDecl _) _ = _
    rw [visitCFunctionDecl, outcome_bind_of_gives hLead]
    simp only [ledStep, opening, following, Value.kind?, bind_assoc]
    refine congrArg (outcome · s) ?_
    refine bind_congr fun name => bind_congr fun args => bind_congr fun text => ?_
    refine bind_congr fun excepts => ?_
    split
    · simp only [bind_assoc, pure_bind]
      rfl
    · simp only [pure_bind]
      rfl
  | exprStmt =>
    obtain ⟨p, hp, hpf⟩ := need_eq_of_checked hc (show "value" ∈ Kind.exprStmt.names by decide)
    have hk : p.1.kind? = some .cName := by
      rw [hpf]
      simpa [isDeclaration, isNode] using hd
    simp only [visitStep, shown, ledStep, opening, following, Value.kind?, hp, pure_bind,
      render_cName hk, bind_assoc]
    rw [outcome_bind_of_gives hLead]
    refine congrArg (outcome · s) (bind_congr fun text => ?_)
    rfl
  | externFrom =>
    obtain ⟨p, hp, -⟩ := need_eq_of_checked hc (show "name" ∈ Kind.externFrom.names by decide)
    show outcome (visitExternFrom _ _) _ = _
    simp only [visitExternFrom, ledStep, opening, following, Value.kind?, hp, pure_bind]
    rw [outcome_bind_of_gives hHead, String.append_assoc, String.append_assoc]
    rfl
  | structDef | unionDef | cppClassDef =>
    obtain ⟨p, hp, -⟩ := need_eq_of_checked hc (show "name" ∈ Kind.names _ by decide)
    show outcome (visitNamed _ _ _) _ = _
    simp only [visitNamed, ledStep, opening, following, Value.kind?, hp, pure_bind]
    exact outcome_record hHead _ _ _
  | enumDef =>
    obtain ⟨p, hp, -⟩ := need_eq_of_checked hc (show "name" ∈ Kind.enumDef.names by decide)
    show outcome (visitEnumDef _ _) _ = _
    simp only [visitEnumDef, ledStep, opening, following, Value.kind?, hp, pure_bind]
    exact outcome_record hHead _ _ _
  | _ => cases hd

theorem outcome_visitStep_quiet (hc : Checked kind fields)
    (hd : isDeclaration (.node kind fields) = true) (hs : s.pending = [])
    (sub : Part (.node kind fields) → Rendering Unit) :
    outcome (visitStep (.node kind fields) sub) s = outcome (ledStep "" (.node kind fields) sub)
        s := by
  refine outcome_visitStep_eq hc hd (gives_popLead hs) (Gives.bind (a := none) ?_ (.pure _ _)) sub
  refine Gives.get ?_
  rw [hs]
  exact .pure _ s

theorem outcome_visitStep_words (hc : Checked kind fields)
    (hd : isDeclaration (.node kind fields) = true) (hs : s.pending = []) (hWords : words ≠ "")
    (sub : Part (.node kind fields) → Rendering Unit) :
    outcome (visitStep (.node kind fields) sub) { s with pending := [.text words] } =
      outcome (ledStep (words ++ " ") (.node kind fields) sub) s := by
  have hBack : ({ s with pending := [] } : Sheet) = s := by rw [← hs]
  have hLead := gives_popLead_text words hWords (s := { s with pending := [.text words] }) rfl
  refine outcome_visitStep_eq hc hd (hBack ▸ hLead) (hBack ▸ ?_) sub
  exact gives_popHead (s := { s with pending := [.text words] }) rfl

end TakeUp

/-! ### Both ways to visit -/

theorem calm_declaredText (v : Value) : Calm (declaredText v) := by
  refine .bindEq (steady_peelField v _) fun r => .bindEq (steady_need v _) fun name => ?_
  exact .bindEq (calm_render _) fun type => steady_declare _ _ _

theorem calm_opening (v : Value) : Calm (opening v) := by
  unfold opening
  split
  · refine .bindEq (steady_need v _) fun name => .bindEq (calm_shown v _) fun args => ?_
    refine .bindEq (calm_functionText v _ _) fun text => .bindEq (steady_need v _) fun excepts => ?_
    split
    · exact .bindEq (calm_render _) fun _ => .pure rfl
    · exact .pure rfl
  · exact .bindEq (steady_need v _) fun p => calm_declaredText _
  all_goals exact .bindEq (steady_need v _) fun name => .pure rfl

theorem calm_wordsOf (v : Value) : Calm (wordsOf v) := by
  unfold wordsOf
  split
  · exact .bindEq (calm_shownItems v _) fun _ => steady_joined _ _
  all_goals exact .pure rfl

section Both

variable {kind : Kind} {fields : List (String × Value)}
  {sub sub' : Part (.node kind fields) → Rendering Unit}

theorem alike_ledStep (hl : ∀ name ∈ kind.lists, ∃ ws, fieldOf fields name = .list ws)
    (h : ∀ p, StatementIn (.node kind fields) p.1 → Alike (sub p) (sub' p))
    (hd : isDeclaration (.node kind fields) = true) (lead : String) :
    Alike (ledStep lead (.node kind fields) sub) (ledStep lead (.node kind fields) sub') := by
  refine .bindEq (calm_opening _) fun text => .bindEq (calm_put _) fun _ => ?_
  cases kind with
  | cFunctionDecl => exact calm_onPage _
  | exprStmt => exact calm_newline
  | externFrom => exact .bindEq (calm_onPage _) fun _ => alike_block hl h
  | structDef | unionDef | cppClassDef | enumDef =>
    refine .bindEq calm_newline fun _ => ?_
    exact .bindEq (alike_block hl h) fun _ => calm_newline
  | _ => cases hd

theorem visitStep_declaring (hk : kind.isDeclaring = true) :
    visitStep (.node kind fields) sub = (do
      let words ← wordsOf (.node kind fields)
      pushPending (.text words)
      let p ← need (.node kind fields) "value"
      sub p
      if (Value.node kind fields).isNode .cTypedefDecl then newline) := by
  cases kind with
  | cdefDecl =>
    simp only [visitStep, wordsOf, Value.kind?, bind_assoc, isNode]
    refine bind_congr fun modifiers => bind_congr fun words => bind_congr fun _ => ?_
    exact bind_congr fun p => (bind_pure_unit (x := sub p)).symm
  | cpdefDecl =>
    simp only [visitStep, wordsOf, Value.kind?, pure_bind, isNode]
    refine bind_congr fun _ => bind_congr fun p => (bind_pure_unit (x := sub p)).symm
  | cTypedefDecl =>
    simp only [visitStep, wordsOf, Value.kind?, pure_bind, isNode]
    rfl
  | _ => cases hk

/-! A run is the same from two states if its first part is. -/

theorem outcome_bind_eq {y : Rendering α} {t : Sheet} (h : outcome x s = outcome y t)
    (f : α → Rendering β) : outcome (x >>= f) s = outcome (y >>= f) t := by
  rw [outcome_bind, outcome_bind, h]

theorem outcome_bind_congr {f g : α → Rendering β}
    (h : ∀ a s', Gives x s a s' → outcome (f a) s' = outcome (g a) s') :
    outcome (x >>= f) s = outcome (x >>= g) s := by
  rw [outcome_bind, outcome_bind]
  cases hx : outcome x s with
  | mk r s' =>
    cases r with
    | ok a => exact h a s' hx
    | error e => rfl

theorem pending_of_gives_calm (h : Calm x) {a : α} (hs : s.pending = []) (hx : Gives x s a s') :
    s'.pending = [] := by
  have hPending := (h.outcome_eq hs).2
  rwa [show outcome x s = (.ok a, s') from hx] at hPending

theorem ne_empty_of_gives_wordsOf (h : Gives (wordsOf v) s words s') : words ≠ "" := by
  unfold wordsOf at h
  split at h
  · obtain ⟨modifiers, _, -, h⟩ := gives_bind.1 h
    obtain ⟨texts, _, hTexts, h⟩ := gives_bind.1 h
    obtain ⟨rfl, -⟩ := gives_pure.1 h
    obtain ⟨text, _, rest, hText, -, rfl⟩ := gives_mapM_cons.1 hTexts
    obtain ⟨rfl, -⟩ := gives_pure.1 hText
    intro hEmpty
    have hList := congrArg String.toList hEmpty
    cases rest <;> simp [String.intercalate_cons_cons] at hList
  all_goals
    obtain ⟨rfl, -⟩ := gives_pure.1 h
    decide

end Both

/-- A made node is checked, and what is to be a list in it is one. -/
theorem Made.checked {fields : List (String × Value)} (h : Made (.node kind fields)) :
    Checked kind fields ∧ ∀ name ∈ kind.lists, ∃ ws, fieldOf fields name = .list ws := by
  refine h.checked_induction (motive := fun v => ∀ kind fields, v = .node kind fields →
    Checked kind fields ∧ ∀ name ∈ kind.lists, ∃ ws, fieldOf fields name = .list ws) ?_ kind fields
    rfl
  rintro kind fields hc hl - _ _ ⟨rfl, rfl⟩
  exact ⟨hc, hl⟩

section Declaring

variable {kind : Kind} {fields : List (String × Value)}

theorem mem_names_of_isDeclaring (hk : kind.isDeclaring = true) : "value" ∈ kind.names := by
  cases kind <;> first | decide | cases hk

variable (hm : Made (fieldOf fields "value")) (hd : isDeclaration (fieldOf fields "value") = true)

include hm hd

/-- **The words of a statement are taken up by the declaration in it.** -/
theorem outcome_visitStep_declaring (hc : Checked kind fields) (hk : kind.isDeclaring = true)
    {sub : Part (.node kind fields) → Rendering Unit}
    {inner : (p : Part (.node kind fields)) → Part p.1 → Rendering Unit}
    (hSub : ∀ p, sub p = visitStep p.1 (inner p)) (hs : s.pending = []) :
    outcome (visitStep (.node kind fields) sub) s =
      outcome (ledDeclared (.node kind fields) inner) s := by
  rw [visitStep_declaring hk, ledDeclared]
  obtain ⟨p, hp, hpf⟩ := need_eq_of_checked hc (mem_names_of_isDeclaring hk)
  refine outcome_bind_congr fun words s' hWords => ?_
  have hs' := pending_of_gives_calm (calm_wordsOf _) hs hWords
  have hPush : Gives (pushPending (.text words)) s' () { s' with pending := [.text words] } := by
    rw [pushPending]
    exact gives_modify.2 (by rw [hs'])
  rw [outcome_bind_of_gives hPush]
  simp only [hp, pure_bind]
  refine outcome_bind_eq ?_ _
  rw [hSub]
  rw [← hpf] at hm hd
  obtain ⟨w, hw⟩ := p
  cases w with
  | node k f =>
    exact outcome_visitStep_words hm.checked.1 hd hs' (ne_empty_of_gives_wordsOf hWords) _
  | _ => cases hd

theorem alike_ledDeclared {inner inner' : (p : Part (.node kind fields)) → Part p.1 →
    Rendering Unit} (h : ∀ p, p.1 = fieldOf fields "value" → ∀ q, StatementIn p.1 q.1 →
    Alike (inner p q) (inner' p q)) :
    Alike (ledDeclared (.node kind fields) inner) (ledDeclared (.node kind fields) inner') := by
  refine .bindEq (calm_wordsOf _) fun words => ?_
  refine inStep_field fun p hp => .bindEq ?_ fun _ => ?_
  · have h := h p hp
    rw [← hp] at hm hd
    generalize inner p = sub, inner' p = sub' at h
    obtain ⟨w, hw⟩ := p
    cases w with
    | node k f => exact alike_ledStep hm.checked.2 h hd _
    | _ => cases hd
  · split
    · exact calm_newline
    · exact .pure rfl

end Declaring

/-- Another way to visit comes to the same as `visit`, if it does for each node given that it does
for the statements in its blocks, or in the blocks of the declaration behind its words. -/
theorem Made.alike_visit {other : Value → Rendering Unit}
    (hPlain : ∀ v, v.kind? = none → Alike (visit v) (other v))
    (hStep : ∀ kind fields, Checked kind fields →
      (∀ name ∈ kind.lists, ∃ ws, fieldOf fields name = .list ws) → kind.isDeclaring = false →
      (∀ u, StatementIn (.node kind fields) u → Alike (visit u) (other u)) →
      Alike (visit (.node kind fields)) (other (.node kind fields)))
    (hDeclaring : ∀ kind fields, Checked kind fields → kind.isDeclaring = true →
      Made (fieldOf fields "value") → isDeclaration (fieldOf fields "value") = true →
      (∀ u, StatementIn (fieldOf fields "value") u → Alike (visit u) (other u)) →
      Alike (visit (.node kind fields)) (other (.node kind fields)))
    (h : Made v) (hWords : HasWordsInPlace v) : Alike (visit v) (other v) := by
  -- the statements behind a declaration's own statement are needed too, as words skip that one
  refine (h.checked_induction (motive := fun v => HasWordsInPlace v →
    Alike (visit v) (other v) ∧ ∀ u, StatementIn v u → Alike (visit u) (other u)) ?_ hWords).1
  intro kind fields hc hl ih hWords
  have hInner : ∀ u, StatementIn (.node kind fields) u → u.kind?.isSome = true → Made u ∧
      Alike (visit u) (other u) ∧ ∀ w, StatementIn u w → Alike (visit w) (other w) := by
    intro u hu hKind
    obtain ⟨x, hx, hCarries⟩ := hu.carried hKind
    obtain ⟨hMade, hu'⟩ := ih x hx u hCarries hKind
    exact ⟨hMade, hu' fun k f hw => hWords k f (.inner hu hw)⟩
  have hParts : ∀ u, StatementIn (.node kind fields) u → Alike (visit u) (other u) := by
    intro u hu
    cases hKind : u.kind? with
    | none => exact hPlain u hKind
    | some k => exact (hInner u hu (by simp [hKind])).2.1
  refine ⟨?_, hParts⟩
  cases hk : kind.isDeclaring with
  | false => exact hStep kind fields hc hl hk hParts
  | true =>
    have hd := hWords kind fields (.self _) hk
    have hNode : (fieldOf fields "value").kind?.isSome = true := by
      cases hv : fieldOf fields "value" with
      | node => rfl
      | _ => rw [hv] at hd; cases hd
    obtain ⟨hMade, -, hBehind⟩ := hInner _ (.declared hk) hNode
    exact hDeclaring kind fields hc hk hMade hd hBehind

theorem visitStep_of_kind?_none (h : v.kind? = none) (sub : Part v → Rendering Unit) :
    visitStep v sub = say ("No visitor for node: `" ++ v.plain ++ "`") := by
  unfold visitStep
  rw [h]

theorem isDeclaring_of_isDeclaration (h : isDeclaration v = true) : isDeclaring v = false := by
  unfold isDeclaration at h
  split at h <;> first | rfl | cases h

/-- **Words are handed to the declaration behind them.** -/
theorem Made.alike_visitLed (h : Made v) (hWords : HasWordsInPlace v) :
    Alike (visit v) (visitLed v) := by
  refine h.alike_visit (fun v hv => ?_) (fun kind fields hc hl hk hParts => ?_)
    (fun kind fields hc hk hm hd hParts => ?_) hWords
  · have hNone : isDeclaring v = false ∧ isDeclaration v = false := by
      cases v <;> first | exact ⟨rfl, rfl⟩ | cases hv
    rw [visit, visitLed, hNone.1, hNone.2]
    simp only [Bool.false_eq_true, if_false, visitStep_of_kind?_none hv]
    exact calm_say _
  · rw [visit, visitLed, show isDeclaring (.node kind fields) = false from hk]
    simp only [Bool.false_eq_true, if_false]
    by_cases hd : isDeclaration (.node kind fields) = true
    · rw [if_pos hd]
      exact alike_of_outcome_eq (alike_ledStep hl (fun p hp => hParts p.1 hp) hd "")
        (fun s hs => outcome_visitStep_quiet hc hd hs _) fun _ _ => rfl
    · rw [if_neg hd]
      exact alike_visitStep hl (fun p hp => hParts p.1 hp) hk
  · rw [visit, visitLed, if_pos (show isDeclaring (.node kind fields) = true from hk)]
    exact alike_of_outcome_eq (alike_ledDeclared hm hd fun p hp q hq => hParts q.1 (hp ▸ hq))
      (fun s hs => outcome_visitStep_declaring hm hd hc hk (fun p => by rw [visit]) hs)
      fun _ _ => rfl

theorem alike_watched {x y : Rendering Unit} (h : Alike x y) (alarm : Rendering Unit) :
    Alike x (watched alarm y) := by
  refine alike_of_outcome_eq h (fun _ _ => rfl) fun s hs => ?_
  rw [watched, outcome_bind_of_gives (gives_get.2 ⟨rfl, rfl⟩), hs]
  rfl

/-- **No statement of a block gives the alarm.** -/
theorem Made.alike_visitWatched (alarm : Rendering Unit) (h : Made v)
    (hWords : HasWordsInPlace v) : Alike (visit v) (visitWatched alarm v) := by
  refine h.alike_visit (fun v hv => ?_) (fun kind fields hc hl hk hParts => ?_)
    (fun kind fields hc hk hm hd hParts => ?_) hWords
  · rw [visit, visitWatched, visitStep_of_kind?_none hv, visitStep_of_kind?_none hv]
    exact calm_say _
  · rw [visit, visitWatched, show isDeclaring (.node kind fields) = false from hk]
    exact alike_visitStep hl (fun p hp => alike_watched (hParts p.1 hp) alarm) hk
  · rw [visit, visitWatched]
    have hBoth : Alike (ledDeclared (.node kind fields) fun _ q => visit q.1)
        (ledDeclared (.node kind fields) fun p q => if isDeclaring p.1 then visitWatched alarm q.1
          else watched alarm (visitWatched alarm q.1)) := by
      refine alike_ledDeclared hm hd fun p hp q hq => ?_
      rw [isDeclaring_of_isDeclaration (hp ▸ hd)]
      exact alike_watched (hParts q.1 (hp ▸ hq)) alarm
    refine alike_of_outcome_eq hBoth
      (fun s hs => outcome_visitStep_declaring hm hd hc hk (fun p => by rw [visit]) hs)
      fun s hs => outcome_visitStep_declaring hm hd hc hk (fun p => ?_) hs
    rw [if_pos (show isDeclaring (.node kind fields) = true from hk), visitWatched]

/-- **Words stay with their declarations.** In a made tree in which words stand before declarations,
visited where no words are pending, no words are left pending, however the work ends. No statement
of a block is visited while words are pending. The work is that of `visitLed`, which writes words
once, at the head of the declaration directly behind them. It ends if the numbers in the tree can be
written, no statement in it stops the work, and there is room on the page. -/
theorem words_stay_with_declarations {v : Value} (hMade : Made v) (hWords : HasWordsInPlace v)
    (s : Sheet) (hs : s.pending = []) :
    (outcome (visit v) s).2.pending = [] ∧
    (∀ alarm, outcome (visitWatched alarm v) s = outcome (visit v) s) ∧
    outcome (visitLed v) s = outcome (visit v) s ∧
    (isModest v = true → ∀ n, Nests n v → ∀ p, s.page = some p → p.Room n →
      ∃ s', Gives (visit v) s () s') := by
  refine ⟨((hMade.alike_visitLed hWords).outcome_eq hs).2,
    fun alarm => ((hMade.alike_visitWatched alarm hWords).outcome_eq hs).1,
    ((hMade.alike_visitLed hWords).outcome_eq hs).1, fun hModest n hNests p hp hRoom => ?_⟩
  obtain ⟨_, s', _, hGives, -⟩ := hMade.writes_of_nests hModest hNests s p hp hRoom
  exact ⟨s', hGives⟩

/-! ### Examples -/

theorem made_cTypedefDecl {value : Value} (h : Made value) {k : Kind}
    {fields : List (String × Value)} (hv : value = .node k fields) (hs : value.isOf .stmt = true) :
    Made (.node .cTypedefDecl [("value", value)]) := by
  refine made_of_fields ?_ (fun _ h => by cases h) ?_
  · exact build_eq .cTypedefDecl (by simp) (by simp) rfl rfl
      (List.forall_mem_singleton.2 (run_field_one hs))
  · subst hv
    simp only [List.map, List.forall_mem_cons]
    exact ⟨made_of_node h, by simp⟩

theorem statementIn_body {x : Value} (hb : kind.blocks = ["body"]) (hk : kind.isDeclaring = false)
    (h : StatementIn (.node kind [("name", x), ("body", .list [w])]) u) : u = w := by
  cases h with
  | block hName hList hu =>
    obtain rfl := List.mem_singleton.1 (hb ▸ hName)
    rw [show fieldOf [("name", x), ("body", .list [w])] "body" = .list [w] from rfl] at hList
    cases hList
    exact List.mem_singleton.1 hu
  | declared hd => simp [hk] at hd

theorem statementIn_value {fields : List (String × Value)} (hb : kind.blocks = [])
    (h : StatementIn (.node kind fields) u) : u = fieldOf fields "value" := by
  cases h with
  | block hName => simp [hb] at hName
  | declared => rfl

def emptyStruct :
    Value := .node .structDef [("name", .text "S"), ("body", .list [single .passStmt])]

def structTypedef : Value := .node .cTypedefDecl [("value", emptyStruct)]

def headerBlock :
    Value := .node .externFrom [("name", .text "t.h"), ("body", .list [structTypedef])]

/-- A typedef of a struct in the block of a header. -/
def nestedWords : Value := .node .cdefDecl [("modifiers", .list []), ("value", headerBlock)]

theorem made_nestedWords : Made nestedWords := by
  have hBody : ∀ name ∈ ["body"], ∀ ws : List Value, ∀ x : Value,
      ∃ ws', fieldOf [("name", x), ("body", .list ws)] name = .list ws' := by
    rintro _ (_ | ⟨_, ⟨⟩⟩) ws x
    exact ⟨ws, rfl⟩
  have hStruct : Made emptyStruct := by
    refine made_of_fields rfl (fun name h => hBody name h _ _) ?_
    simp only [List.map, List.forall_mem_cons]
    exact ⟨made_of_plain rfl (by simp), made_of_list (by simpa using .single rfl), by simp⟩
  have hTypedef : Made structTypedef := made_cTypedefDecl hStruct rfl rfl
  have hHeader : Made headerBlock := by
    refine made_of_fields rfl (fun name h => hBody name h _ _) ?_
    simp only [List.map, List.forall_mem_cons]
    exact ⟨made_of_plain rfl (by simp), made_of_list (List.forall_mem_singleton.2 hTypedef), by
      simp⟩
  refine made_of_fields rfl ?_ ?_
  · rintro _ (_ | ⟨_, ⟨⟩⟩)
    exact ⟨_, rfl⟩
  · simp only [List.map, List.forall_mem_cons]
    exact ⟨made_of_list (by simp), made_of_node hHeader, by simp⟩

theorem within_nestedWords (h : Within nestedWords w) :
    w ∈ [nestedWords, headerBlock, structTypedef, emptyStruct, single .passStmt] := by
  obtain - | ⟨hu, h⟩ := h
  · simp
  obtain rfl : _ = headerBlock := statementIn_value rfl hu
  obtain - | ⟨hu, h⟩ := h
  · simp
  obtain rfl : _ = structTypedef := statementIn_body rfl rfl hu
  obtain - | ⟨hu, h⟩ := h
  · simp
  obtain rfl : _ = emptyStruct := statementIn_value rfl hu
  obtain - | ⟨hu, h⟩ := h
  · simp
  obtain rfl : _ = single .passStmt := statementIn_body rfl rfl hu
  obtain - | ⟨hu, -⟩ := h
  · simp
  cases hu with
  | block hName => cases hName
  | declared hd => cases hd

theorem visit_nestedWords : Made nestedWords ∧ HasWordsInPlace nestedWords ∧
    (outcome (visit nestedWords) { page := some .empty }).2.pending = [] ∧
    (∀ alarm, outcome (visitWatched alarm nestedWords) { page := some .empty } =
      outcome (visit nestedWords) { page := some .empty }) ∧
    outcome (visitLed nestedWords) { page := some .empty } =
      outcome (visit nestedWords) { page := some .empty } ∧
    ∃ s', Gives (visit nestedWords) { page := some .empty } () s' := by
  have hWords : HasWordsInPlace nestedWords := by
    intro kind fields hw hk
    have hMem := within_nestedWords hw
    simp only [List.mem_cons, List.not_mem_nil, or_false] at hMem
    rcases hMem with h | h | h | h | h <;> cases h <;> first | rfl | cases hk
  have hBreaks : ∀ w, Within nestedWords w → ¬ Breaks w := by
    rintro w hw ⟨fields, hb⟩
    have hMem := within_nestedWords hw
    simp only [List.mem_cons, List.not_mem_nil, or_false] at hMem
    rcases hMem with rfl | rfl | rfl | rfl | rfl <;> rcases hb with hb | ⟨hb, -⟩ <;> cases hb
  have hRoom : Page.empty.Room nestedWords.depth := by
    refine ⟨rfl, Int.le_refl 0, ?_⟩
    rw [show nestedWords.depth = 7 from rfl]
    decide
  obtain ⟨hPending, hWatched, hLed, hGives⟩ :=
    words_stay_with_declarations made_nestedWords hWords { page := some .empty } rfl
  exact ⟨made_nestedWords, hWords, hPending, hWatched, hLed,
    hGives rfl _ (made_nestedWords.nests_depth hBreaks) .empty rfl hRoom⟩

/-- A typedef of arrays whose size is too long to be written. -/
def longTypedef : Value := .node .cTypedefDecl [("value", longDeclaration)]

theorem outcome_declaredText {e : Fault} (h : peel w = .error e) (name : String)
    (s : Sheet) : outcome (declaredText (cNameValue w name)) s = (.error e, s) := by
  have hw : w.depth < (cNameValue w name).depth := by
    simp only [cNameValue, Value.depth, Value.depthsOf]
    omega
  have hPeel : peelField (cNameValue w name) "ctype" = throw e := by
    rw [peelField, show need (cNameValue w name) "ctype" = pure ⟨w, hw⟩ from rfl, pure_bind, h]
  rw [declaredText, hPeel]
  rfl

/-- **Not all words are written**: where the declaration behind them has no text, nothing is. -/
theorem outcome_visit_longTypedef : Made longTypedef ∧ HasWordsInPlace longTypedef ∧
    (∀ w, Within longTypedef w → ¬ Breaks w) ∧
    outcome (visit longTypedef) { page := some .empty } =
      (.error .malformed, { page := some .empty }) := by
  have hMade : Made longTypedef := made_cTypedefDecl made_longDeclaration rfl rfl
  have hWithin : ∀ w, Within longTypedef w → w = longTypedef ∨ w = longDeclaration := by
    intro w h
    obtain - | ⟨hu, h⟩ := h
    · exact .inl rfl
    obtain rfl : _ = longDeclaration := statementIn_value rfl hu
    obtain - | ⟨hu, -⟩ := h
    · exact .inr rfl
    cases hu with
    | block hName => cases hName
    | declared hd => cases hd
  have hWords : HasWordsInPlace longTypedef := by
    intro kind fields hw hk
    rcases hWithin _ hw with h | h <;> cases h
    · rfl
    · cases hk
  refine ⟨hMade, hWords, ?_, ?_⟩
  · rintro w hw ⟨fields, hb⟩
    rcases hWithin w hw with rfl | rfl <;> rcases hb with hb | ⟨hb, -⟩ <;> cases hb
  · have hText : outcome (opening longDeclaration) { page := some .empty } =
        (.error .malformed, { page := some .empty }) :=
      outcome_declaredText (peel_array_of_not_isWritable not_isWritable_pow _) "x" _
    rw [← ((hMade.alike_visitLed hWords).outcome_eq rfl).1, visitLed]
    show outcome (ledStep _ longDeclaration _ >>= fun _ => newline) _ = _
    rw [ledStep, bind_assoc, outcome_bind, hText]

end PxdGen.Pxd
