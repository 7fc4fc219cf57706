import PxdGen.Proofs.Layout.Outline
/-! # Writing a module

Each statement of a module writes its own lines at the level where it stands, takes up the words
that are pending and leaves everything else as it is. `Wrote` says so of work that may also stop.
-/

namespace PxdGen.Pxd

open Rendering Value

variable {α : Type}

variable {s s' : Sheet} {p : Page} {text : String} {v : Value} {vs : List Value} {cs : List Char}

/-! ### Lines on a page -/

/-- Lines with their ends. -/
def unlines : List String → String
  | [] => ""
  | l :: ls => l ++ "\n" ++ unlines ls

theorem unlines_append (ls ms : List String) : unlines (ls ++ ms) = unlines ls ++ unlines ms := by
  induction ls with
  | nil => simp [unlines]
  | cons l ls ih => simp [unlines, ih, String.append_assoc]

def Page.writeAll (p : Page) (ls : List String) : Page := p.write (unlines ls)

theorem Page.writeAll_append (p : Page) (ls ms : List String) :
    p.writeAll (ls ++ ms) = (p.writeAll ls).writeAll ms := by
  simp [Page.writeAll, Page.write, unlines_append, String.append_assoc]

/-- Whenever the work ends that was started at a level with words pending, it has taken these up,
written the lines and changed nothing else. -/
def Wrote (level : Int) (pending : List Value) (x : Rendering Unit) (ls : List String) : Prop :=
  ∀ s p s', s.page = some p → p.level = level → s.pending = pending → Gives x s () s' →
    s' = { s with page := some (p.writeAll ls), pending := [] }

variable {level : Int} {name : String} {as : List α} {ls : List String} {lines : α → List String}
  {R : α → Value → Prop}

namespace Wrote

variable {level : Int} {pending : List Value} {x y : Rendering Unit} {ls ms : List String}

theorem bind (hx : Wrote level pending x ls) (hy : Wrote level [] y ms) :
    Wrote level pending (x >>= fun _ => y) (ls ++ ms) := by
  intro s p s' hp hl hs h
  obtain ⟨_, s₁, h₁, h₂⟩ := gives_bind.1 h
  have e := hx s p s₁ hp hl hs h₁
  rw [e] at h₂
  have e' := hy _ (p.writeAll ls) s' rfl hl rfl h₂
  rw [e', Page.writeAll_append]

theorem need {v : Value} {q : Part v} (hq : v.field? name = some q) {f : Part v → Rendering Unit}
    (h : Wrote level pending (f q) ls) : Wrote level pending (Rendering.need v name >>= f) ls := by
  intro s p s' hp hl hs hGives
  have hRest := gives_after (gives_need name hq s) hGives
  exact h s p s' hp hl hs hRest

end Wrote

theorem of_gives_onPage {f : Page → Page} (hp : s.page = some p)
    (h : Gives (onPage f) s () s') : s' = { s with page := some (f p) } := by
  obtain ⟨a, _, hGet, hModify⟩ := gives_bind.1 h
  obtain ⟨rfl, rfl⟩ := gives_get.1 hGet
  simp only [hp] at hModify
  exact gives_modify.1 hModify

theorem of_gives_put (hp : s.page = some p) (h : Gives (put text) s () s') :
    s' = { s with page := some (p.writeLines text) } := by
  obtain ⟨a, _, hGet, hPut⟩ := gives_bind.1 h
  obtain ⟨rfl, rfl⟩ := gives_get.1 hGet
  split at hPut
  · exact absurd hPut gives_throw
  · exact of_gives_onPage hp hPut

/-- A text that makes up one line. -/
def IsLine (s : String) : Prop := s.toList ≠ [] ∧ IsUnbroken s

theorem wrote_put (ht : IsLine text) (level : Int) {n : Int} {ends : List String}
    (hn : Text.copies "\n" n = "\n" ++ unlines ends) :
    Wrote level [] (put text >>= fun _ => onPage (·.newline n))
      ((Page.margin level ++ text) :: ends) := by
  intro s p s' hp hl hs h
  obtain ⟨_, s₁, hPut, hEnds⟩ := gives_bind.1 h
  rw [of_gives_put hp hPut] at hEnds
  rw [of_gives_onPage rfl hEnds]
  have hLines :
      (p.writeLines text).newline n = p.writeAll ((Page.margin level ++ text) :: ends) := by
    simp [Page.writeLines, Page.newline, Page.write, Page.writeAll, unlines, hn, hl,
      lines_of_not_isBreak ht.2 ht.1, String.append_assoc]
  rw [hLines, ← hs]

theorem wrote_line (ht : IsLine text) (level : Int) :
    Wrote level [] (line text) [Page.margin level ++ text] := wrote_put ht level rfl

theorem wrote_newline (level : Int) : Wrote level [] newline [""] := by
  intro s p s' hp hl hs h
  rw [of_gives_onPage hp h, ← hs]
  rfl

variable {sub : Part v → Rendering Unit}

theorem wrote_block (h : Wrote (level + 1) [] (visitItems v sub name) ls) :
    Wrote level [] (block v sub name) ls := by
  intro s p s' hp hl hs hGives
  obtain ⟨_, s₁, hIndent, h₁⟩ := gives_bind.1 hGives
  obtain ⟨⟨⟩, s₂, hItems, hDedent⟩ := gives_bind.1 h₁
  have e₁ := of_gives_onPage hp hIndent
  rw [e₁] at hItems
  have e₂ := h { s with page := some (p.indent 1) } (p.indent 1) s₂ rfl (by rw [← hl]; rfl) hs
    hItems
  rw [e₂] at hDedent
  rw [of_gives_onPage rfl hDedent]
  have hLevel : ((p.indent 1).writeAll ls).dedent 1 = p.writeAll ls := by
    simp [Page.indent, Page.dedent, Page.writeAll, Page.write]
  rw [hLevel]

theorem wrote_forM {β : Type} {f : β → Rendering Unit} (value : β → Value)
    (hR : ∀ a b, R a (value b) → Wrote level [] (f b) (lines a)) {bs : List β}
    (h : FitEach R as (bs.map value)) : Wrote level [] (bs.forM f) (as.flatMap lines) := by
  induction as generalizing bs with
  | nil =>
    obtain rfl : bs = [] := by simpa [FitEach] using h
    intro s p s' hp _ hs hGives
    rw [gives_forM_nil.1 hGives, ← hs]
    simp [Page.writeAll, Page.write, unlines, ← hp]
  | cons a as ih =>
    obtain ⟨v, ws, hv, hws, e⟩ := h
    cases bs with
    | nil => cases e
    | cons b bs =>
      rw [List.map_cons, List.cons.injEq] at e
      obtain ⟨rfl, rfl⟩ := e
      exact (hR a b hv).bind (ih hws)

theorem wrote_visitItems {kind : Kind} {fields : List (String × Value)} (name : String)
    (hw : (Value.list vs).depth < (Value.node kind fields).depth)
    (hField : (Value.node kind fields).field? name = some ⟨.list vs, hw⟩)
    (hR : ∀ a v, R a v → Wrote level [] (visit v) (lines a)) (h : FitEach R as vs) :
    Wrote level [] (visitItems (.node kind fields) (fun p => visit p.1) name)
        (as.flatMap lines) := by
  intro s p s' hp hl hs hGives
  have h₁ := gives_after (gives_need name hField s) hGives
  obtain ⟨ps, hps, hItems⟩ := gives_items hw s
  have h₂ := gives_after hItems h₁
  refine wrote_forM (·.1) (fun a b => hR a b.1) (by rwa [hps]) s p s' hp hl hs h₂

/-! ### Members -/

theorem isLine_of_isTypeText (h : IsTypeText cs) (hne : cs ≠ []) : IsLine (String.ofList cs) := by
  rw [IsLine, IsUnbroken, String.toList_ofList]
  exact ⟨hne, fun c hc => not_isBreak_of_isTypeChar (h c hc)⟩

theorem isTypeText_identifier (x : Identifier) : IsTypeText x.1.toList :=
  isTypeText_nameText (some x)

theorem identifier_ne_nil (x : Identifier) : x.1.toList ≠ [] := (isWordText_of_isIdentifier x.2).1

theorem ne_nil_of_tokens (h : tokens cs ≠ []) : cs ≠ [] := by
  rintro rfl
  exact h rfl

theorem tokens_declaration (r : Bool) (t : CType) (x : Identifier) :
    tokens (Member.declaration r t x).text = declarationTokens (some x) r t := by
  rw [Member.text, tokens_trimChars]
  exact tokens_declarationText (some x) r t

theorem tokens_alias (r : Bool) (t : CType) (x : Identifier) :
    tokens (aliasText r t x) = .word "ctypedef" :: declarationTokens (some x) r t := by
  have hLead : tokens "ctypedef ".toList = [.word "ctypedef"] := by decide
  have hTokens := tokens_declarationText (some x) r t
  rw [aliasText, tokens_trimChars, tokens_append_of_endsApart (by decide), hLead]
  exact congrArg _ hTokens

theorem declarationTokens_ne_nil (x : Identifier) (r : Bool) (t : CType) :
    declarationTokens (some x) r t ≠ [] := by
  simp [declarationTokens, nameTokens]

theorem Member.isTypeText (m : Member) : IsTypeText m.text := by
  cases m with
  | declaration r t x => exact (isTypeText_declarationText (some x) r t.isTypeText_after).trim
  | function f ps result =>
    cases result with
    | none =>
      exact (isTypeText_identifier f).append ((ps.isTypeText_text.append (by decide)).cons
        (by decide))
    | some result => exact isTypeText_prototypeText f ps result.1 result.2
  | pass => decide

theorem Member.text_ne_nil (m : Member) : m.text ≠ [] := by
  cases m with
  | declaration r t x =>
    refine ne_nil_of_tokens ?_
    rw [tokens_declaration]
    exact declarationTokens_ne_nil x r t
  | function f ps result =>
    cases result with
    | none => simp [Member.text]
    | some result => simp [Member.text, prototypeText]
  | pass => decide

theorem Member.isLine (m : Member) : IsLine (String.ofList m.text) :=
  isLine_of_isTypeText m.isTypeText m.text_ne_nil

theorem isLine_alias (r : Bool) (t : CType) (x : Identifier) :
    IsLine (String.ofList (aliasText r t x)) := by
  refine isLine_of_isTypeText ?_ (ne_nil_of_tokens (by rw [tokens_alias]; simp))
  exact IsTypeText.trim (IsTypeText.append (by decide)
    (isTypeText_declarationText (some x) r t.isTypeText_after))

theorem wrote_expr {pending : List Value} (ht : IsLine text)
    (h : ∀ s out s', s.pending = pending → Gives (render v) s out s' →
      out = .text text ∧ s' = { s with pending := [] }) :
    Wrote level pending (visit (exprNode v)) [Page.margin level ++ text] := by
  intro s p s' hp hl hs hGives
  rw [visit] at hGives
  obtain ⟨shown, s₁, hShown, hLine⟩ := gives_bind.1 hGives
  have hRender := gives_after (gives_need "value" rfl s) hShown
  obtain ⟨rfl, rfl⟩ := h _ _ _ hs hRender
  exact wrote_line ht level { s with pending := [] } p s' hp hl rfl hLine

theorem gives_popPending (hs : s.pending = [v]) :
    Gives popPending s (some v) { s with pending := [] } := by
  refine Gives.get ?_
  rw [hs]
  exact Gives.bind (a := ()) (gives_modify.2 rfl) (.pure _ _)

theorem gives_popLead_text (word : String) (h : word ≠ "")
    (hs : s.pending = [.text word]) : Gives popLead s (word ++ " ") { s with pending := [] } := by
  refine Gives.bind (gives_popPending hs) ?_
  have hTrue : (Value.text word).isTrue = true := by simpa [Value.isTrue] using h
  simp only [hTrue, if_true]
  exact .pure _ _

theorem of_gives_functionText {f : Identifier} {ps : Params} {result : Option (Bool × CType)}
    {args returns excepts : Value} (hr : ResultFits result returns) (hs : s.pending = [])
    (h : Gives (functionText (Member.Fits.prototypeNode f.1 args returns excepts) f.1
      (", ".intercalate ps.texts)) s text s') :
    text = String.ofList (Member.function f ps result).text ∧ s' = s := by
  have hDepth : returns.depth < (Member.Fits.prototypeNode f.1 args returns excepts).depth := by
    simp only [Member.Fits.prototypeNode, Value.depth, Value.depthsOf]
    omega
  have h₁ := gives_after (gives_need (p := ⟨returns, hDepth⟩) "returns" rfl s) h
  cases result with
  | none =>
    rw [if_neg (by rw [show returns.isTrue = false from hr]; simp)] at h₁
    obtain ⟨rfl, rfl⟩ := gives_pure.1 h₁
    refine ⟨String.toList_inj.1 ?_, rfl⟩
    simp [Member.text, ← ps.text_eq]
  | some result =>
    obtain ⟨r, t⟩ := result
    obtain ⟨w, hw, rfl⟩ := hr
    rw [if_pos (hw.referenced_isTrue r)] at h₁
    obtain ⟨⟨marks, base⟩, _, hPeel, h₂⟩ := gives_bind.1 h₁
    obtain ⟨rfl, rfl, hBase⟩ := hw.gives_peelField "returns" hDepth rfl hPeel
    obtain ⟨type, _, hType, h₃⟩ := gives_bind.1 h₂
    obtain ⟨rfl, rfl⟩ := t.coreOnly _ hBase _ _ _ hs hType
    rw [hBase.declare_eq] at h₃
    obtain ⟨text', hText', hGives⟩ := gives_declare_wrap r t
      (f.1 ++ "(" ++ ", ".intercalate ps.texts ++ ")") _
    obtain ⟨rfl, rfl⟩ := hGives.unique h₃
    refine ⟨String.toList_inj.1 ?_, rfl⟩
    rw [hText', String.toList_ofList]
    simp only [String.toList_append, ps.text_eq, Member.text, prototypeText]
    simp

theorem Member.Fits.wrote {m : Member} (h : m.Fits v) (level : Int) :
    Wrote level [] (visit v) (m.lines level) := by
  cases m with
  | declaration r t x =>
    obtain ⟨w, hw, rfl⟩ := h
    refine wrote_expr (Member.declaration r t x).isLine fun s out s' hs hGives => ?_
    obtain ⟨rfl, rfl⟩ := t.coreOnly.gives_cName hw r x.1 (gives_popLead hs) hs hGives
    exact ⟨rfl, by rw [← hs]⟩
  | pass =>
    obtain rfl := h
    rw [visit]
    exact wrote_line (Member.isLine .pass) level
  | function f ps result =>
    obtain ⟨args, vararg, kwarg, returns, excepts, ha, hv, hk, hr, he, rfl⟩ := h
    intro s p s' hp hl hs hGives
    rw [visit] at hGives
    have h₁ := gives_after (gives_popLead hs) hGives
    have h₂ := gives_after (gives_need "name" rfl s) h₁
    obtain ⟨shown, _, hShown, h₃⟩ := gives_bind.1 h₂
    have hArgs := gives_after (gives_need "args" rfl s) hShown
    obtain ⟨rfl, rfl⟩ := (ps.onlyAs args ha).arguments hv hk _ _ _ hs hArgs
    obtain ⟨text, _, hText, h₄⟩ := gives_bind.1 h₃
    rw [String.ofList_toList] at hText
    obtain ⟨rfl, rfl⟩ := of_gives_functionText hr hs hText
    have h₅ := gives_after (gives_need "excepts" rfl _) h₄
    dsimp only at h₅
    rw [if_neg (by rw [Bool.not_eq_true]; exact he)] at h₅
    obtain ⟨text, _, hNone, h₆⟩ := gives_bind.1 h₅
    obtain ⟨rfl, rfl⟩ := gives_pure.1 hNone
    rw [String.empty_append] at h₆
    exact wrote_put (Member.function f ps result).isLine level rfl _ p s' hp hl hs h₆

/-! ### Definitions -/

theorem wrote_declared (isTypedef : Bool) {w : Value}
    (h : Wrote level [.text (leadWord isTypedef)] (visit w) ls) :
    Wrote level [] (visit (declaredNode isTypedef w)) (ls ++ if isTypedef then [""] else []) := by
  intro s p s' hp hl hs hGives
  rw [visit] at hGives
  cases isTypedef with
  | true =>
    obtain ⟨_, _, hPush, h₁⟩ := gives_bind.1 hGives
    obtain rfl := gives_modify.1 hPush
    have h₂ := gives_after (gives_need "value" rfl _) h₁
    have hAll := h.bind (wrote_newline level)
    exact hAll { s with pending := [.text "ctypedef"] } p s' hp hl rfl (by rw [hs] at h₂; exact h₂)
  | false =>
    have hNone : Gives (shownItems (declaredNode false w) "modifiers") s [] s := by
      refine Gives.bind (gives_need "modifiers" rfl s) ?_
      exact Gives.bind (by exact .pure [] s) (gives_mapM_nil.2 ⟨rfl, rfl⟩)
    have h₁ := gives_after hNone hGives
    have h₂ := gives_after (gives_joined " " ["cdef"] s) h₁
    obtain ⟨_, _, hPush, h₃⟩ := gives_bind.1 h₂
    obtain rfl := gives_modify.1 hPush
    have h₄ := gives_after (gives_need "value" rfl _) h₃
    rw [hs] at h₄
    rw [if_neg (by simp), List.append_nil]
    exact h { s with pending := [.text "cdef"] } p s' hp hl rfl h₄

theorem gives_popHead {word : String} (hs : s.pending = [.text word]) :
    Gives record.popHead s (word ++ " ") { s with pending := [] } :=
  Gives.bind (gives_popPending hs) (.pure _ _)

theorem isUnbroken_leadWord (isTypedef : Bool) : IsUnbroken (leadWord isTypedef ++ " ") := by
  cases isTypedef <;> decide

theorem wrote_record (isTypedef : Bool) {heading : String} (hLine : IsUnbroken heading)
    (h : Wrote level [] (block v sub "body") ls) :
    Wrote level [.text (leadWord isTypedef)] (record v sub heading)
      (headLine level isTypedef heading :: (ls ++ [""])) := by
  have hHead : IsLine (leadWord isTypedef ++ " " ++ heading ++ ":") :=
    ⟨by simp, ((isUnbroken_leadWord isTypedef).append hLine).append (by decide)⟩
  intro s p s' hp hl hs hGives
  have h₁ := gives_after (gives_popHead hs) hGives
  have hAll := (wrote_line hHead level).bind (h.bind (wrote_newline level))
  exact hAll { s with pending := [] } p s' hp hl rfl h₁

theorem isUnbroken_identifier (x : Identifier) : IsUnbroken x.1 :=
  fun c hc => not_isBreak_of_isTypeChar (isTypeText_identifier x c hc)

theorem isUnbroken_heading (kind : RecordKind) (x : Identifier) : IsUnbroken (kind.heading x) := by
  have hWord : IsUnbroken (kind.word ++ " ") := by cases kind <;> decide
  exact hWord.append (isUnbroken_identifier x)

theorem isUnbroken_enumHeading (x : Option Identifier) : IsUnbroken (enumHeading x) := by
  cases x with
  | none => decide
  | some x =>
    have hWord : IsUnbroken "enum " := by decide
    exact hWord.append (isUnbroken_identifier x)

theorem RecordKind.visitStep_eq (kind : RecordKind) (fields : List (String × Value))
    (sub : Part (.node kind.kind fields) → Rendering Unit) :
    visitStep (.node kind.kind fields) sub = visitNamed (.node kind.kind fields) sub kind.word := by
  cases kind <;> rfl

theorem ConstantFits.wrote {x : Option Identifier} {v : Value} (h : ConstantFits x v)
    (level : Int) : Wrote level [] (visit v) (constantLines level x) := by
  cases x with
  | none => exact Member.Fits.wrote (m := .pass) h level
  | some x =>
    obtain ⟨ctx, rfl⟩ := h
    refine wrote_expr ⟨identifier_ne_nil x, isUnbroken_identifier x⟩ fun s out s' hs hGives => ?_
    rw [render] at hGives
    have hName := gives_after (gives_need "id" rfl s) hGives
    obtain ⟨hOut, hState⟩ := gives_pure.1 hName
    exact ⟨hOut, by rw [hState, ← hs]⟩

/-- **A statement is written as its lines.** -/
theorem Statement.Fits.wrote {st : Statement} {v : Value} (h : st.Fits v) (level : Int) :
    Wrote level [] (visit v) (st.lines level) := by
  cases st with
  | member m => exact Member.Fits.wrote h level
  | synonym r t x =>
    obtain ⟨w, hw, rfl⟩ := h
    refine wrote_declared true (wrote_expr (isLine_alias r t x) fun s out s' hs hGives => ?_)
    have hLead := gives_popLead_text "ctypedef" (by decide) hs
    exact t.coreOnly.gives_cName hw r x.1 hLead rfl hGives
  | record isTypedef kind x members =>
    obtain ⟨vs, hvs, rfl⟩ := h
    have hDepth : (Value.list vs).depth <
        (Value.node kind.kind [("name", .text x.1), ("body", .list vs)]).depth := by
      simp only [Value.depth, Value.depthsOf]
      omega
    have hBlock := wrote_block (wrote_visitItems (R := Member.Fits) "body" hDepth rfl
      (fun _ _ hm => hm.wrote (level + 1)) hvs)
    have hRecord := wrote_record isTypedef (isUnbroken_heading kind x) hBlock
    have hDefinition : Wrote level [.text (leadWord isTypedef)]
        (visit (.node kind.kind [("name", .text x.1), ("body", .list vs)]))
        (headLine level isTypedef (kind.heading x) ::
          (members.flatMap (Member.lines (level + 1)) ++ [""])) := by
      rw [visit, kind.visitStep_eq]
      refine Wrote.need rfl ?_
      exact hRecord
    simpa [Statement.lines, blockTail_eq] using wrote_declared isTypedef hDefinition
  | enumeration isTypedef x constants =>
    obtain ⟨name, vs, hName, hvs, rfl⟩ := h
    have hDepth : (Value.list vs).depth <
        (Value.node .enumDef [("name", name), ("body", .list vs)]).depth := by
      simp only [Value.depth, Value.depthsOf]
      omega
    have hBlock := wrote_block (wrote_visitItems (R := ConstantFits) "body" hDepth rfl
      (fun _ _ hc => hc.wrote (level + 1)) hvs)
    have hRecord := wrote_record isTypedef (isUnbroken_enumHeading x) hBlock
    have hHeading : (if name.isTrue then "enum " ++ name.plain else "enum") = enumHeading x := by
      cases x with
      | none => rw [if_neg (by rw [show name.isTrue = false from hName]; simp)]; rfl
      | some x =>
        obtain rfl := hName
        have hTrue : (Value.text x.1).isTrue = true := by
          have := identifier_ne_nil x
          simpa [Value.isTrue, String.toList_eq_nil_iff] using this
        rw [if_pos hTrue]
        rfl
    have hDefinition : Wrote level [.text (leadWord isTypedef)]
        (visit (.node .enumDef [("name", name), ("body", .list vs)]))
        (headLine level isTypedef (enumHeading x) ::
          (constants.flatMap (constantLines (level + 1)) ++ [""])) := by
      rw [visit]
      refine Wrote.need rfl ?_
      dsimp only
      rw [hHeading]
      exact hRecord
    simpa [Statement.lines, blockTail_eq] using wrote_declared isTypedef hDefinition

/-! ### Modules -/

theorem wrote_externFrom {header : String} (hHeader : IsUnbroken header)
    {statements : List Statement} (h : FitEach Statement.Fits statements vs) : Wrote 0
      [.text "cdef"] (visit (.node .externFrom [("name", .text header), ("body", .list vs)]))
      ((Page.margin 0 ++ ("cdef extern from \"" ++ header ++ "\":")) :: "" ::
        statements.flatMap (Statement.lines 1)) := by
  have hDepth : (Value.list vs).depth <
      (Value.node .externFrom [("name", .text header), ("body", .list vs)]).depth := by
    simp only [Value.depth, Value.depthsOf]
    omega
  have hBlock : Wrote 0 [] (block _ _ "body") (statements.flatMap (Statement.lines 1)) :=
    wrote_block (wrote_visitItems (R := Statement.Fits) "body" hDepth rfl (fun _ _ hs => hs.wrote 1)
      h)
  have hStart : IsUnbroken "cdef extern from \"" := by decide
  have hLine : IsLine ("cdef extern from \"" ++ header ++ "\":") :=
    ⟨by simp, (hStart.append hHeader).append (by decide)⟩
  rw [visit]
  refine Wrote.need rfl ?_
  intro s p s' hp hl hs hGives
  have h₁ := gives_after (gives_popHead hs) hGives
  have hText : "cdef" ++ " " ++ "extern from \"" ++ header ++ "\":" =
      "cdef extern from \"" ++ header ++ "\":" := rfl
  dsimp only [plain_text] at h₁
  rw [← bind_assoc, hText] at h₁
  have hEnds : Text.copies "\n" 2 = "\n" ++ unlines [""] := rfl
  have hAll := (wrote_put hLine 0 hEnds).bind hBlock
  exact hAll { s with pending := [] } p s' hp hl rfl h₁

theorem wrote_module (h : Wrote 0 [] (do visit v; newline) ls) :
    Wrote 0 [] (visit (.node .moduleNode [("body", .list [v])])) ls := by
  have hDepth : (Value.list [v]).depth < (Value.node .moduleNode [("body", .list [v])]).depth := by
    simp only [Value.depth, Value.depthsOf]
    omega
  rw [visit]
  refine Wrote.need rfl ?_
  intro s p s' hp hl hs hGives
  obtain ⟨ps, hps, hItems⟩ := gives_items hDepth s
  have h₁ := gives_after hItems hGives
  obtain ⟨q, rfl, hq⟩ := List.map_eq_singleton_iff.1 hps
  obtain ⟨s₁, hOne, hNil⟩ := gives_forM_cons.1 h₁
  dsimp only at hOne
  rw [hq] at hOne
  rw [gives_forM_nil.1 hNil]
  exact h s p s₁ hp hl hs hOne

theorem Wrote.text_eq (h : Wrote 0 [] (visit v) ls) (hModule : v.isNode .moduleNode = true)
    (hGives : Gives (renderModule v) s text s') : text = heading ++ unlines ls := by
  unfold renderModule at hGives
  rw [if_pos hModule] at hGives
  obtain ⟨_, _, hModify, h₁⟩ := gives_bind.1 hGives
  obtain rfl := gives_modify.1 hModify
  obtain ⟨⟨⟩, s₂, hVisit, h₂⟩ := gives_bind.1 h₁
  obtain rfl := h { s with page := some .empty, pending := [] } .empty s₂ rfl rfl rfl hVisit
  obtain ⟨_, _, hGet, h₃⟩ := gives_bind.1 h₂
  obtain ⟨rfl, rfl⟩ := gives_get.1 hGet
  obtain ⟨rfl, -⟩ := gives_pure.1 h₃
  simp [Page.text, Page.writeAll, Page.write, Page.empty]

theorem Outline.Fits.text_eq {o : Outline} {v : Value} (h : o.Fits v)
    (hHeader : IsUnbroken o.header) {s s' : Sheet} {text : String}
    (hGives : Gives (renderModule v) s text s') : text = heading ++ unlines o.lines := by
  obtain ⟨vs, hvs, rfl⟩ := h
  have hAll := (wrote_declared false (wrote_externFrom hHeader hvs)).bind (wrote_newline 0)
  rw [if_neg (by simp), List.append_nil] at hAll
  exact (wrote_module hAll).text_eq rfl hGives

end PxdGen.Pxd
