import PxdGen.Proofs.Decl.Drafted
import PxdGen.Proofs.Layout.Distinct
import PxdGen.Proofs.Render.Lead
import PxdGen.Proofs.Render.Module
/-! # Blocks of drafted modules

Every block of a drafted module has a statement in it, but for that of the header if nothing of it
is declared. Where the module has an outline, its text is known line by line, and then each line
with a colon is followed by a line that is not blank and stands further to the right.
-/

namespace PxdGen.Decl

open Pxd (Kind StatementIn Within fieldOf)

variable {kind : Kind} {fields : List (String × Value)}

theorem blocks_of_mem_bodyKinds :
    ∀ kind ∈ bodyKinds, kind.blocks = ["body"] ∧ kind.isDeclaring = false := by decide

variable {name : String}

theorem Drafted.block_eq (h : Drafted (.node kind fields)) (hb : name ∈ kind.blocks) :
    ∃ ws, fieldOf fields name = .list ws ∧ ws ≠ [] ∧ ∀ w ∈ ws, Drafted w := by
  cases h with
  | plain h =>
    simp only [isPlain, Bool.and_eq_true, List.isEmpty_iff] at h
    rw [h.1] at hb
    cases hb
  | block hk hBody hNe hAll =>
    rw [(blocks_of_mem_bodyKinds kind hk).1, List.mem_singleton] at hb
    exact ⟨_, hb ▸ hBody, hNe, hAll⟩
  | words hk => cases kind <;> cases hk <;> cases hb

theorem Drafted.declared (h : Drafted (.node kind fields)) (hk : kind.isDeclaring = true) :
    Drafted (fieldOf fields "value") := by
  cases h with
  | plain h => simp [isPlain, hk] at h
  | block hb =>
    rw [(blocks_of_mem_bodyKinds kind hb).2] at hk
    cases hk
  | words _ hValue => exact hValue

theorem Drafted.within {v w : Value} (h : Drafted v) (hw : Within v w) : Drafted w := by
  induction hw with
  | self => exact h
  | inner hu _ ih =>
    cases hu with
    | block hb hList hMem =>
      obtain ⟨ws, hWs, -, hAll⟩ := h.block_eq hb
      obtain rfl := Value.list.inj (hList.symm.trans hWs)
      exact ih (hAll _ hMem)
    | declared hk => exact ih (h.declared hk)

theorem block_eq_of_within {header : Value} {stmts : List Value} (h : ∀ w ∈ stmts, Drafted w)
    (hw : Within (headerModule header stmts) (.node kind fields)) (hb : name ∈ kind.blocks) :
    ∃ ws, fieldOf fields name = .list ws ∧ (ws = [] → kind = .externFrom ∧ stmts = []) := by
  obtain - | ⟨hu, hw⟩ := hw
  · obtain rfl := List.mem_singleton.1 hb
    exact ⟨_, rfl, by simp⟩
  obtain rfl := Pxd.statementIn_moduleOf hu
  obtain - | ⟨hu, hw⟩ := hw
  · cases hb
  obtain rfl := Pxd.statementIn_value rfl hu
  obtain - | ⟨hu, hw⟩ := hw
  · obtain rfl := List.mem_singleton.1 hb
    exact ⟨_, rfl, fun hNil => ⟨rfl, hNil⟩⟩
  cases hu with
  | block hName hList hMem =>
    obtain rfl := List.mem_singleton.1 hName
    obtain rfl := Value.list.inj hList
    obtain ⟨ws, hWs, hNe, -⟩ := ((h _ hMem).within hw).block_eq hb
    exact ⟨ws, hWs, fun hNil => absurd hNil hNe⟩
  | declared hd => cases hd

end PxdGen.Decl

namespace PxdGen.Pxd

open Decl (Drafted headerModule)

variable {ls : List String} {margin : String} {cs : List Char} {α : Type} {vs : List Value}

/-! ### Lines that are followed -/

/-- The number of spaces that a line begins with. -/
def indentation (line : String) : Nat := (line.toList.takeWhile (· == ' ')).length

/-- A line on which something can be seen. -/
def HasInk (line : String) : Prop := ∃ c ∈ line.toList, Text.isBlank c = false

/-- The first line that is not empty stands further to the right than the heading. -/
def IsFollowed (head : String) (ls : List String) : Prop :=
  ∃ gap line rest, ls = gap ++ line :: rest ∧ (∀ l ∈ gap, l = "") ∧ HasInk line ∧
    indentation head < indentation line

/-- Each line with a colon is followed in this way. -/
def AreFollowed : List String → Prop
  | [] => True
  | l :: ls => (':' ∈ l.toList → IsFollowed l ls) ∧ AreFollowed ls

theorem areFollowed_of_not_colon (h : ∀ l ∈ ls, ':' ∉ l.toList) : AreFollowed ls := by
  induction ls with
  | nil => trivial
  | cons l ls ih => exact ⟨fun hc => absurd hc (h l (by simp)), ih fun m hm => h m (by simp [hm])⟩

theorem AreFollowed.append {ms : List String} (hl : AreFollowed ls) (hm : AreFollowed ms) :
    AreFollowed (ls ++ ms) := by
  induction ls with
  | nil => exact hm
  | cons l ls ih =>
    refine ⟨fun hc => ?_, ih hl.2⟩
    obtain ⟨gap, line, rest, rfl, hBoth⟩ := hl.1 hc
    exact ⟨gap, line, rest ++ ms, by simp, hBoth⟩

theorem AreFollowed.flatMap {α : Type} {f : α → List String} (as : List α)
    (h : ∀ a ∈ as, AreFollowed (f a)) : AreFollowed (as.flatMap f) := by
  induction as with
  | nil => trivial
  | cons a as ih => exact (h a (by simp)).append (ih fun b hb => h b (by simp [hb]))

theorem AreFollowed.of_split {before after : List String} {head : String}
    (h : AreFollowed (before ++ head :: after)) (hc : ':' ∈ head.toList) :
    IsFollowed head after := by
  induction before with
  | nil => exact h.1 hc
  | cons l before ih => exact ih h.2

/-- A text of spaces. -/
def IsMargin (margin : String) : Prop := ∀ c ∈ margin.toList, (c == ' ') = true

theorem le_indentation (h : IsMargin margin) (text : String) :
    margin.toList.length ≤ indentation (margin ++ text) := by
  rw [indentation, String.toList_append, List.takeWhile_append_of_pos h, List.length_append]
  omega

theorem hasInk_append {text : String} (h : HasInk text) (margin : String) :
    HasInk (margin ++ text) := by
  obtain ⟨c, hc, hInk⟩ := h
  exact ⟨c, by simp [hc], hInk⟩

theorem hasInk_of_tokens (h : tokens cs ≠ []) : HasInk (String.ofList cs) := by
  by_contra hNone
  refine h (tokens_blanks fun c hc => ?_)
  by_contra hBlank
  exact hNone ⟨c, by simpa using hc, by simpa using hBlank⟩

/-! ### Lines of an outline -/

theorem not_colon_append (hm : IsMargin margin) (h : IsTypeText cs) :
    ':' ∉ (margin ++ String.ofList cs).toList := by
  rw [String.toList_append, String.toList_ofList, List.mem_append, not_or]
  exact ⟨fun hc => absurd (hm _ hc) (by decide), fun hc => absurd (h _ hc) (by decide)⟩

theorem isMargin_one :
    IsMargin (Page.margin 1) := by simp [IsMargin, Page.margin, Text.copies, Page.step]

theorem isMargin_two : IsMargin (Page.margin (1 + 1)) := by
  simp [IsMargin, Page.margin, Text.copies, Page.step, List.replicate_succ]

theorem Member.hasInk (m : Member) : HasInk (String.ofList m.text) := by
  cases m with
  | declaration r t x =>
    refine hasInk_of_tokens ?_
    rw [tokens_declaration]
    exact declarationTokens_ne_nil x r t
  | function f ps result =>
    cases result with
    | none => exact ⟨'(', by simp [Member.text], by decide⟩
    | some result => exact ⟨'(', by simp [Member.text, prototypeText], by decide⟩
  | pass => exact ⟨'p', by decide, by decide⟩

/-- The lines of one item of a block: one that can be seen and has no colon, and empty ones. -/
def IsRow (margin : String) (lines : List String) : Prop :=
  ∃ cs tail, lines = (margin ++ String.ofList cs) :: tail ∧ IsTypeText cs ∧
    HasInk (String.ofList cs) ∧ ∀ l ∈ tail, l = ""

theorem Member.isRow (level : Int) (m : Member) : IsRow (Page.margin level) (m.lines level) :=
  ⟨_, _, rfl, m.isTypeText, m.hasInk, by cases m <;> simp [Member.tail]⟩

theorem isRow_constant (level : Int) (x : Option Identifier) :
    IsRow (Page.margin level) (constantLines level x) := by
  cases x with
  | none => exact ⟨"pass".toList, [], rfl, by decide, ⟨'p', by decide, by decide⟩, by simp⟩
  | some x =>
    refine ⟨x.1.toList, [], by simp [constantLines, constantText], isTypeText_identifier x,
      ?_, by simp⟩
    exact hasInk_of_tokens (by rw [tokens_word (isWordText_of_isIdentifier x.2)]; simp)

theorem IsRow.areFollowed (hm : IsMargin margin) {lines : List String}
    (h : IsRow margin lines) : AreFollowed lines := by
  obtain ⟨cs, tail, rfl, hType, -, hTail⟩ := h
  refine areFollowed_of_not_colon
    (List.forall_mem_cons.2 ⟨not_colon_append hm hType, fun l hl => ?_⟩)
  simp [hTail l hl]

variable {a : α} {as : List α} {R : α → Value → Prop}

theorem areFollowed_headed {rows : α → List String}
    (hRows : ∀ a, IsRow (Page.margin (1 + 1)) (rows a)) (hNe : as.isEmpty = false)
    (isTypedef : Bool) (heading : String) :
    AreFollowed (headLine 1 isTypedef heading :: (as.flatMap rows ++ blockTail isTypedef)) := by
  have hTail : ∀ isTypedef, ∀ l ∈ blockTail isTypedef, ':' ∉ l.toList := by decide
  refine ⟨fun _ => ?_, AreFollowed.append (.flatMap as fun a _ => (hRows a).areFollowed
    isMargin_two) (areFollowed_of_not_colon (hTail isTypedef))⟩
  cases as with
  | nil => cases hNe
  | cons a as =>
    obtain ⟨cs, tail, hLines, -, hInk, -⟩ := hRows a
    rw [List.flatMap_cons, hLines]
    refine ⟨[], _, tail ++ as.flatMap rows ++ blockTail isTypedef, rfl, by simp, hasInk_append hInk
      _, ?_⟩
    have hLine := le_indentation isMargin_two (String.ofList cs)
    have hHead : indentation (headLine 1 isTypedef heading) = 4 := by
      cases isTypedef <;> simp [indentation, headLine, leadWord, Page.margin, Text.copies,
        Page.step]
    rw [show (Page.margin (1 + 1)).toList.length = 8 by decide] at hLine
    omega

/-- A statement that has something in its block. -/
def Statement.isFull : Statement → Bool
  | .record _ _ _ members => !members.isEmpty
  | .enumeration _ _ constants => !constants.isEmpty
  | _ => true

variable {st : Statement}

theorem Statement.areFollowed (h : st.isFull = true) : AreFollowed (st.lines 1) := by
  cases st with
  | member m => exact (m.isRow 1).areFollowed isMargin_one
  | synonym r t x =>
    refine areFollowed_of_not_colon (List.forall_mem_cons.2 ⟨?_, by simp⟩)
    exact not_colon_append isMargin_one (isTypeText_alias r t x)
  | record isTypedef kind x members =>
    exact areFollowed_headed (Member.isRow _) (by simpa [isFull] using h) _ _
  | enumeration isTypedef x constants =>
    exact areFollowed_headed (isRow_constant _) (by simpa [isFull] using h) _ _

theorem Statement.exists_first (st : Statement) : ∃ line rest, st.lines 1 = line :: rest ∧
    HasInk line ∧ 0 < indentation line := by
  have hLine : ∀ text, HasInk text → HasInk (Page.margin 1 ++ text) ∧
      0 < indentation (Page.margin 1 ++ text) :=
    fun text hInk =>
      ⟨hasInk_append hInk _, Nat.lt_of_lt_of_le (by decide) (le_indentation isMargin_one text)⟩
  cases st with
  | member m => exact ⟨_, _, rfl, hLine _ m.hasInk⟩
  | synonym r t x => exact ⟨_, _, rfl, hLine _ (hasInk_of_tokens (by rw [tokens_alias]; simp))⟩
  | record isTypedef kind x members | enumeration isTypedef x constants =>
    exact ⟨_, _, rfl, hLine _ ⟨':', by simp, by decide⟩⟩

theorem Outline.areFollowed {o : Outline} (hNe : o.statements ≠ [])
    (h : ∀ st ∈ o.statements, st.isFull = true) : AreFollowed o.lines := by
  have hRest : AreFollowed ("" :: (o.statements.flatMap (Statement.lines 1) ++ [""])) :=
    ⟨by simp, AreFollowed.append (.flatMap _ fun st hst => (Statement.areFollowed (h st hst)))
      ⟨by simp, trivial⟩⟩
  refine ⟨fun _ => ?_, hRest⟩
  obtain ⟨st, sts, hSts⟩ := List.exists_cons_of_ne_nil hNe
  obtain ⟨line, rest, hLines, hInk, hIndentation⟩ := st.exists_first
  refine ⟨[""], line, rest ++ (sts.flatMap (Statement.lines 1) ++ [""]), ?_, by simp, hInk, ?_⟩
  · rw [hSts, List.flatMap_cons, hLines]
    simp
  · have hHead : indentation (Page.margin 0 ++ ("cdef extern from \"" ++ o.header ++ "\":")) =
        0 := by
      simp [indentation, Page.margin, Text.copies]
    omega

/-! ### Drafted modules with an outline -/

theorem FitEach.exists_of_mem (h : FitEach R as vs) (ha : a ∈ as) : ∃ v ∈ vs, R a v := by
  induction as generalizing vs with
  | nil => cases ha
  | cons b as ih =>
    obtain ⟨v, ws, hv, hws, rfl⟩ := h
    rcases List.mem_cons.1 ha with rfl | ha
    · exact ⟨v, by simp, hv⟩
    · obtain ⟨w, hw, hR⟩ := ih hws ha
      exact ⟨w, by simp [hw], hR⟩

theorem FitEach.isEmpty_eq (h : FitEach R as vs) : as.isEmpty = vs.isEmpty := by
  cases as with
  | nil => rw [show vs = [] from h]; rfl
  | cons b as =>
    obtain ⟨v, ws, -, -, rfl⟩ := h
    rfl

theorem Statement.Fits.isFull {v : Value} (h : st.Fits v) (hDrafted : Drafted v) :
    st.isFull = true := by
  -- the block of what is declared has something in it
  have hBlock : ∀ {isTypedef : Bool} {kind : Kind} {name : Value} {vs : List Value}, kind.blocks =
      ["body"] → v = declaredNode isTypedef (.node kind [("name", name), ("body", .list vs)]) →
      vs.isEmpty = false := by
    rintro isTypedef kind name vs hKind rfl
    have hValue : Drafted (.node kind [("name", name), ("body", .list vs)]) := by
      cases isTypedef <;> exact hDrafted.declared rfl
    have hBody : "body" ∈ kind.blocks := by simp [hKind]
    obtain ⟨ws, hWs, hNe, -⟩ := hValue.block_eq hBody
    obtain rfl := Value.list.inj (show Value.list vs = .list ws from hWs)
    simpa using hNe
  cases st with
  | member | synonym => rfl
  | record isTypedef kind x members =>
    obtain ⟨vs, hvs, hv⟩ := h
    rw [Statement.isFull, hvs.isEmpty_eq, hBlock (by cases kind <;> rfl) hv]
    rfl
  | enumeration isTypedef x constants =>
    obtain ⟨name, vs, -, hvs, hv⟩ := h
    rw [Statement.isFull, hvs.isEmpty_eq, hBlock rfl hv]
    rfl

theorem gives_of_rendering {x : Rendering α} {s s' : Decl.Session}
    (h : Gives (Decl.Work.rendering x) s a s') : ∃ sheet, Gives x {} a sheet := by
  unfold Decl.Work.rendering at h
  cases hRun : StateT.run (ExceptT.run x) {} with
  | mk r sheet =>
    rw [hRun] at h
    obtain ⟨_, _, -, hCheck⟩ := gives_bind.1 h
    cases r with
    | error e => exact absurd hCheck gives_throw
    | ok b =>
      obtain ⟨rfl, -⟩ := gives_pure.1 hCheck
      exact ⟨sheet, hRun⟩

/-- **The blocks of a drafted module are not empty**, whatever is declared and whoever has read it,
but for that of the header if there is nothing to declare: then the module is a heading without a
block. In the text of a module that has an outline, every other line with a colon is followed by a
line that can be seen and stands further to the right, with no line between them but empty ones. -/
theorem drafted_blocks_are_filled {v stem : Value} {header : String} {s s₁ : Decl.Session}
    {d : Decl.Draft} (hDraft : Gives (Decl.draft v (.text header) stem) s d s₁) :
    ∃ stmts, d.module = headerModule (.text header) stmts ∧
      (∀ kind fields name, Within d.module (.node kind fields) → name ∈ kind.blocks →
        ∃ ws, fieldOf fields name = .list ws ∧ (ws = [] → kind = .externFrom ∧ stmts = [])) ∧
      ∀ s₂ text s₃, IsUnbroken header → Gives d.code s₂ text s₃ →
        (stmts = [] →
        text = heading ++ unlines ["cdef extern from \"" ++ header ++ "\":", "", ""]) ∧
        ∀ o : Outline, o.Fits d.module → text = heading ++ unlines o.lines ∧
          (stmts ≠ [] → ∀ before head after, o.lines = before ++ head :: after → ':' ∈ head.toList →
            IsFollowed head after) := by
  obtain ⟨m, t, hModule, hRest⟩ := gives_bind.1 hDraft
  obtain rfl : d.module = m := by
    split at hRest
    · obtain ⟨rfl, -⟩ := gives_pure.1 hRest
      rfl
    · exact absurd hRest gives_throw
  obtain ⟨stmts, hStmts, hInner⟩ := Decl.brings_moduleOf v (.text header) s _ t hModule
  refine ⟨stmts, hStmts, fun kind fields name hw hb => ?_, fun s₂ text s₃ hHeader hCode =>
    ⟨?_, fun o hFits => ?_⟩⟩
  · exact Decl.block_eq_of_within hInner (hStmts ▸ hw) hb
  · rintro rfl
    obtain ⟨sheet, hText⟩ := gives_of_rendering hCode
    exact Outline.Fits.text_eq (o := ⟨header, []⟩) ⟨[], rfl, hStmts⟩ hHeader hText
  · obtain ⟨sheet, hText⟩ := gives_of_rendering hCode
    obtain ⟨vs, hvs, hModule⟩ := hFits
    have hSame : headerModule (.text header) stmts = headerModule (.text o.header) vs :=
      hStmts.symm.trans hModule
    simp only [headerModule, Value.node.injEq, List.cons.injEq, Prod.mk.injEq, Value.list.injEq,
      Value.text.injEq, and_true, true_and] at hSame
    obtain ⟨rfl, rfl⟩ := hSame
    refine ⟨Outline.Fits.text_eq ⟨stmts, hvs, hModule⟩ hHeader hText, fun hNe before head after
      hLines hc => ?_⟩
    have hFollowed : AreFollowed o.lines := by
      refine Outline.areFollowed (fun hNil => hNe ?_) fun st hst => ?_
      · simpa [hNil] using hvs.isEmpty_eq.symm
      · obtain ⟨w, hw, hFits⟩ := hvs.exists_of_mem hst
        exact hFits.isFull (hInner w hw)
    rw [hLines] at hFollowed
    exact hFollowed.of_split hc

/-- A struct with a number in it. -/
def pointGraph : Decl.Graph where
  entries :=
    #[⟨.struct, [("location", .nothing), ("name", .text "P"), ("members", .list [.link 1])]⟩,
      ⟨.field, [("location", .nothing), ("name", .text "x"), ("typ", .link 2)]⟩,
    ⟨.fundamentalType, [("location", .nothing), ("name", .text "num")]⟩]

def pointOutline : Outline :=
  ⟨"t.h", [.record false .struct ⟨"P", by decide⟩
    [.declaration false (.named false (.plain ⟨"num", by decide⟩)) ⟨"x", by decide⟩]]⟩

theorem draft_point : ∃ d s₁ s₂, Gives (Decl.draft (.list [.link 0]) (.text "t.h") (.text "_t"))
    { graph := pointGraph } d s₁ ∧
    (∀ kind fields name, Within d.module (.node kind fields) → name ∈ kind.blocks →
      ∃ w ws, fieldOf fields name = .list (w :: ws)) ∧
    Gives d.code {} (heading ++ unlines pointOutline.lines) s₂ ∧
    ∀ before head after, pointOutline.lines = before ++ head :: after → ':' ∈ head.toList →
      IsFollowed head after := by
  obtain ⟨d, s₁, hDraft, ⟨w, ws, hd⟩, hOk, hFits⟩ : ∃ d s₁, Gives
      (Decl.draft (.list [.link 0]) (.text "t.h") (.text "_t")) { graph := pointGraph } d s₁ ∧
      (∃ w ws, d.module = headerModule (.text "t.h") (w :: ws)) ∧
      (outcome d.code {}).1.isOk = true ∧ pointOutline.Fits d.module :=
    ⟨_, _, rfl, ⟨_, _, rfl⟩, by decide +kernel, _,
      ⟨_, _, ⟨_, ⟨_, _, ⟨_, ⟨_, _, _, rfl, rfl⟩, rfl⟩, rfl, rfl⟩, rfl⟩, rfl, rfl⟩, rfl⟩
  obtain ⟨stmts, hModule, hBlocks, hText⟩ := drafted_blocks_are_filled hDraft
  have hFull : stmts ≠ [] := by
    rintro rfl
    cases hd.symm.trans hModule
  obtain ⟨text, hCode⟩ := exists_gives_of_isOk hOk
  obtain ⟨rfl, hFollowed⟩ := (hText _ _ _ (by decide) hCode).2 pointOutline hFits
  refine ⟨d, s₁, _, hDraft, fun kind fields name hw hb => ?_, hCode, hFollowed hFull⟩
  obtain ⟨ws, hWs, hEmpty⟩ := hBlocks kind fields name hw hb
  cases ws with
  | nil => exact absurd (hEmpty rfl).2 hFull
  | cons w ws => exact ⟨w, ws, hWs⟩

end PxdGen.Pxd
