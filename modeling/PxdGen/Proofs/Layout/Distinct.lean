import Mathlib
import PxdGen.Proofs.Layout.Writing
/-! # The text of a module tells the module

Two modules with the same text have the same outline. The text falls apart into lines in one way,
and the lines into statements: each statement begins with a line that is not empty, this line tells
which statement it is, and the statement tells how many empty lines follow. The line itself is told
by its tokens. The rules of C take a function for the same thing as a declaration of a name with the
type of a function, but the latter has two more parentheses.
-/

namespace PxdGen.Pxd

variable {a b : List Char} {rest' ws : List String} {m n : Member} {st st' : Statement}
    {level : Int}

/-! ### Pieces of a text -/

/-- A text is divided in one way at the first character that does not have a property. -/
theorem append_cons_inj {p : Char → Bool} {a' b' : List Char} {c c' : Char}
    (ha : ∀ x ∈ a, p x = true) (ha' : ∀ x ∈ a', p x = true) (hc : p c = false) (hc' : p c' = false)
    (h : a ++ c :: b = a' ++ c' :: b') : a = a' ∧ c = c' ∧ b = b' := by
  induction a generalizing a' with
  | nil =>
    cases a' with
    | nil => simpa using h
    | cons x a' =>
      have hx := ha' x (by simp)
      obtain rfl : c = x := by simpa using (List.cons.inj h).1
      rw [hc] at hx
      cases hx
  | cons x a ih =>
    cases a' with
    | nil =>
      have hx := ha x (by simp)
      obtain rfl : x = c' := (List.cons.inj h).1
      rw [hc'] at hx
      cases hx
    | cons y a' =>
      rw [List.cons_append, List.cons_append, List.cons.injEq] at h
      obtain ⟨rfl, rfl, rfl⟩ := ih (fun z hz => ha z (by simp [hz]))
        (fun z hz => ha' z (by simp [hz])) h.2
      exact ⟨by rw [h.1], rfl, rfl⟩

theorem unlines_inj {ls ms : List String} (hl : ∀ l ∈ ls, ∀ c ∈ l.toList, (c != '\n') = true)
    (hm : ∀ l ∈ ms, ∀ c ∈ l.toList, (c != '\n') = true) (h : unlines ls = unlines ms) :
    ls = ms := by
  have hCons : ∀ l ls, (unlines (l :: ls)).toList = l.toList ++ '\n' :: (unlines ls).toList := by
    simp [unlines]
  induction ls generalizing ms with
  | nil =>
    cases ms with
    | nil => rfl
    | cons m ms =>
      have := congrArg String.toList h
      rw [hCons] at this
      simp [unlines] at this
  | cons l ls ih =>
    cases ms with
    | nil =>
      have := congrArg String.toList h
      rw [hCons] at this
      simp [unlines] at this
    | cons m ms =>
      have hText := congrArg String.toList h
      rw [hCons, hCons] at hText
      obtain ⟨hHead, -, hTail⟩ := append_cons_inj (hl l (by simp)) (hm m (by simp)) (by decide)
        (by decide) hText
      rw [String.toList_inj.1 hHead, ih (fun k hk => hl k (by simp [hk]))
        (fun k hk => hm k (by simp [hk])) (String.toList_inj.1 hTail)]

/-- Blocks of lines that none of the items leaves open are told apart, up to an empty line after
them. -/
theorem flatMap_inj {α : Type} {P : α → Prop} {lines : α → List String}
    (hne : ∀ a, ∃ l ls, lines a = l :: ls ∧ l ≠ "")
    (hinj : ∀ a b rest rest', P a → P b → lines a ++ rest = lines b ++ rest' → a = b ∧ rest = rest')
    {as bs : List α} (ha : ∀ a ∈ as, P a) (hb : ∀ b ∈ bs, P b) {rest : List String}
    (h : as.flatMap lines ++ "" :: rest = bs.flatMap lines ++ "" :: rest') :
    as = bs ∧ rest = rest' := by
  induction as generalizing bs with
  | nil =>
    cases bs with
    | nil => simpa using h
    | cons b bs =>
      obtain ⟨l, ls, hLines, hl⟩ := hne b
      simp only [List.flatMap_cons, List.flatMap_nil, List.nil_append, hLines, List.cons_append,
        List.cons.injEq] at h
      exact absurd h.1.symm hl
  | cons a as ih =>
    cases bs with
    | nil =>
      obtain ⟨l, ls, hLines, hl⟩ := hne a
      simp only [List.flatMap_cons, List.flatMap_nil, List.nil_append, hLines, List.cons_append,
        List.cons.injEq] at h
      exact absurd h.1 hl
    | cons b bs =>
      simp only [List.flatMap_cons, List.append_assoc] at h
      obtain ⟨rfl, hRest⟩ := hinj a b _ _ (ha a (by simp)) (hb b (by simp)) h
      obtain ⟨rfl, rfl⟩ := ih (fun c hc => ha c (by simp [hc])) (fun c hc => hb c (by simp [hc]))
        hRest
      exact ⟨rfl, rfl⟩

/-! ### Declarations -/

section

variable {x y f g : Identifier} {r r' : Bool} {t u : CType} {ps qs : Params}

theorem readDeclaration_declared (x : Identifier) (r : Bool) (t : CType) :
    readDeclaration (3 * (declarationTokens (some x) r t).length + 1)
      (declarationTokens (some x) r t) = some (⟨some x, r, t.heard⟩, []) := by
  have h := t.reads.declaration (some x) r [] rfl
  rw [show isMute (some x) r t = false from rfl] at h
  simpa using h _ (Nat.le_refl _)

theorem readDeclaration_prototype (f : Identifier) (ps : Params) (r : Bool) (t : CType) :
    readDeclaration (3 * (prototypeTokens f ps r t).length + 1) (prototypeTokens f ps r t) =
      some (⟨some f, false, .function ps.heard r t.heard⟩, []) := by
  have h := readDeclaration_prototypeTokens f ps r t [] rfl
  simpa using h _ (Nat.le_refl _)

theorem declarationTokens_inj
    (h : declarationTokens (some x) r t = declarationTokens (some y) r' u) :
    x = y ∧ r = r' ∧ t = u := by
  have hRead := readDeclaration_declared x r t
  rw [h, readDeclaration_declared y r' u] at hRead
  simp only [Option.some.injEq, Prod.mk.injEq, Declaration.mk.injEq, and_true] at hRead
  exact ⟨hRead.1.symm, hRead.2.1.symm, (CType.heard_inj hRead.2.2).symm⟩

theorem prototypeTokens_inj (h : prototypeTokens f ps r t = prototypeTokens g qs r' u) :
    f = g ∧ ps = qs ∧ r = r' ∧ t = u := by
  have hRead := readDeclaration_prototype f ps r t
  rw [h, readDeclaration_prototype g qs r' u] at hRead
  simp only [Option.some.injEq, Prod.mk.injEq, Declaration.mk.injEq, CType.function.injEq, and_true,
    true_and] at hRead
  exact ⟨hRead.1.symm, (Params.heard_inj hRead.2.1).symm, hRead.2.2.1.symm,
    (CType.heard_inj hRead.2.2.2).symm⟩

/-- A function is written without the parentheses that its type has around a name. -/
theorem declarationTokens_ne_prototypeTokens :
    declarationTokens (some x) r t ≠ prototypeTokens f ps r' u := by
  intro h
  have hRead := readDeclaration_declared x r t
  rw [h, readDeclaration_prototype f ps r' u] at hRead
  simp only [Option.some.injEq, Prod.mk.injEq, Declaration.mk.injEq, and_true] at hRead
  obtain ⟨-, rfl, hType⟩ := hRead
  obtain rfl : .function ps r' u = t := CType.heard_inj hType
  have hLength := congrArg List.length h
  simp only [declarationTokens, prototypeTokens, CType.front, CType.back, CType.specTokens,
    CType.base, nameTokens, referenceFront, referenceBack, List.length_append, List.length_cons,
    List.length_nil,
    Bool.false_eq_true, if_false, Bool.false_and] at hLength
  omega

theorem Params.tokens_inj (h : ps.tokens = qs.tokens) : ps = qs := by
  have hRead := ps.reads [] _ (Nat.le_refl _)
  rw [h, qs.reads [] _ (Nat.le_refl _)] at hRead
  simp only [Option.some.injEq, Prod.mk.injEq, and_true] at hRead
  exact (Params.heard_inj hRead).symm

end

/-! ### Members -/

theorem CType.before_word (t : CType) :
    ∃ w rest, t.before = w ++ ' ' :: rest ∧ w ≠ [] ∧ ∀ c ∈ w, Text.isWordChar c = true := by
  cases t with
  | named isConst base =>
    cases isConst with
    | true =>
      have hConst : IsWordText "const" := by decide
      exact ⟨"const".toList, base.text.toList ++ [' '], rfl, hConst.1, hConst.2⟩
    | false =>
      obtain ⟨w, ws, hw⟩ : ∃ w ws, base.words = w :: ws := by cases base <;> exact ⟨_, _, rfl⟩
      have hWord := base.words_areWords w (by simp [hw])
      have hText : ∃ rest, (" ".intercalate (w :: ws)).toList ++ [' '] = w.toList ++ ' ' ::
          rest := by
        cases ws with
        | nil => exact ⟨[], by simp⟩
        | cons v ws =>
          exact ⟨(" ".intercalate (v :: ws)).toList ++
            [' '], by simp [String.intercalate_cons_cons]⟩
      obtain ⟨rest, hText⟩ := hText
      refine ⟨w.toList, rest, ?_, hWord.1, hWord.2⟩
      rw [← hText, ← hw]
      rfl
  | pointer isConst t | function params r t =>
    obtain ⟨w, rest, hw, h⟩ := t.before_word
    exact ⟨w, _, by rw [CType.before, hw, List.append_assoc]; rfl, h⟩
  | array dim t => exact t.before_word

theorem trimChars_prefix {cs : List Char} (h : ∀ c ∈ cs.head?, Text.isBlank c = false) :
    ∃ suffix, cs = trimChars cs ++ suffix := by
  have hDrop : cs.dropWhile Text.isBlank = cs := by
    cases cs with
    | nil => rfl
    | cons c cs => rw [List.dropWhile_cons, h c rfl, if_neg (by simp)]
  obtain ⟨blanks, hb⟩ := List.dropWhile_suffix (l := cs.reverse) Text.isBlank
  refine ⟨blanks.reverse, ?_⟩
  rw [trimChars, hDrop, ← List.reverse_append, hb, List.reverse_reverse]

/-- What has a type begins with a word and a blank. -/
theorem Member.text_typed {r : Bool} {t : CType}
    (h : (∃ x, m = .declaration r t x) ∨ ∃ f ps, m = .function f ps (some (r, t))) :
    ∃ w rest suffix, m.text ++ suffix = w ++ ' ' :: rest ∧ ∀ c ∈ w, Text.isWordChar c = true := by
  obtain ⟨w, rest, hw, hne, hWord⟩ := t.before_word
  rcases h with ⟨x, rfl⟩ | ⟨f, ps, rfl⟩
  · have hText : ∃ rest', declarationText x.1 r t = w ++ ' ' :: rest' :=
      ⟨_, by rw [declarationText, hw, List.append_assoc, List.append_assoc]; rfl⟩
    obtain ⟨rest', hText⟩ := hText
    have hHead : ∀ c ∈ (declarationText x.1 r t).head?, Text.isBlank c = false := by
      intro c hc
      have hc := hWord c (by
        cases w with
        | nil => exact absurd rfl hne
        | cons a w =>
          rw [hText] at hc
          exact List.mem_cons.2 (.inl (Option.some.inj hc).symm))
      cases hb : Text.isBlank c with
      | false => rfl
      | true => rw [not_isWordChar_of_isBlank hb] at hc; cases hc
    obtain ⟨suffix, hs⟩ := trimChars_prefix hHead
    exact ⟨w, rest', suffix, by rw [Member.text, ← hs, hText], hWord⟩
  · have hText : ∃ rest', prototypeText f.1 ps r t = w ++ ' ' :: rest' :=
      ⟨_, by rw [prototypeText, hw, List.append_assoc, List.append_assoc]; rfl⟩
    obtain ⟨rest', hText⟩ := hText
    exact ⟨w, rest', [], by rw [List.append_nil, Member.text, hText], hWord⟩

theorem text_ne_untyped {r : Bool} {t : CType} {f : Identifier} {ps : Params}
    (h : (∃ x, m = .declaration r t x) ∨ ∃ f ps, m = .function f ps (some (r, t))) :
    m.text ≠ (Member.function f ps none).text := by
  intro hText
  obtain ⟨w, rest, suffix, hw, hWord⟩ := Member.text_typed h
  rw [hText, Member.text, List.append_assoc] at hw
  obtain ⟨-, hChar, -⟩ :=
    append_cons_inj (isWordText_of_isIdentifier f.2).2 hWord (by decide) (by decide) hw
  exact absurd hChar (by decide)

theorem tokens_untyped (f : Identifier) (ps : Params) :
    tokens (Member.function f ps none).text = .word f.1 :: .opening ::
    (ps.tokens ++ [.closing]) := by
  have hOpen : ∀ cs, tokens ('(' :: cs) = .opening :: tokens cs := fun cs => rfl
  rw [Member.text, tokens_append_of_startsApart (startsApart_cons (by decide) _),
    tokens_word (isWordText_of_isIdentifier f.2), hOpen, tokens_append_of_startsApart (by decide),
    ps.tokens_text]
  rfl

theorem CType.specTokens_cons (t : CType) : ∃ s ts, t.specTokens = .word s :: ts := by
  rw [CType.specTokens]
  obtain ⟨c, b⟩ := t.base
  cases c <;> cases b <;> exact ⟨_, _, rfl⟩

theorem Member.text_ne_pass (h : m ≠ .pass) : m.text ≠ Member.pass.text := by
  intro hText
  have hTokens : tokens m.text = [.word "pass"] := by rw [hText]; decide
  have hLength := congrArg List.length hTokens
  cases m with
  | declaration r t x =>
    obtain ⟨s, ts, hs⟩ := t.specTokens_cons
    rw [tokens_declaration, declarationTokens, hs] at hLength
    simp only [nameTokens, List.length_append, List.length_cons, List.length_nil] at hLength
    omega
  | function f ps result =>
    cases result with
    | none =>
      rw [tokens_untyped] at hLength
      simp at hLength
    | some result =>
      have hPrototype : tokens (Member.function f ps (some result)).text =
          prototypeTokens f ps result.1 result.2 := tokens_prototypeText f ps result.1 result.2
      rw [hPrototype, prototypeTokens] at hLength
      simp only [List.length_append, List.length_cons, List.length_nil] at hLength
      omega
  | pass => exact h rfl

/-- **The line of a member tells the member.** -/
theorem Member.text_inj (h : m.text = n.text) : m = n := by
  have hTokens := congrArg tokens h
  cases m with
  | pass =>
    cases n with
    | pass => rfl
    | _ => exact absurd h.symm (Member.text_ne_pass (by simp))
  | declaration r t x =>
    cases n with
    | pass => exact absurd h (Member.text_ne_pass (by simp))
    | declaration r' u y =>
      rw [tokens_declaration, tokens_declaration] at hTokens
      obtain ⟨rfl, rfl, rfl⟩ := declarationTokens_inj hTokens
      rfl
    | function f ps result =>
      cases result with
      | none => exact absurd h (text_ne_untyped (.inl ⟨x, rfl⟩))
      | some result =>
        rw [tokens_declaration, Member.text, tokens_prototypeText] at hTokens
        exact absurd hTokens declarationTokens_ne_prototypeTokens
  | function f ps result =>
    cases n with
    | pass => exact absurd h (Member.text_ne_pass (by simp))
    | declaration r t x =>
      cases result with
      | none => exact absurd h.symm (text_ne_untyped (.inl ⟨x, rfl⟩))
      | some result =>
        rw [tokens_declaration, Member.text, tokens_prototypeText] at hTokens
        exact absurd hTokens.symm declarationTokens_ne_prototypeTokens
    | function g qs result' =>
      cases result with
      | none =>
        cases result' with
        | none =>
          rw [tokens_untyped, tokens_untyped, List.cons.injEq, List.cons.injEq,
            Token.word.injEq] at hTokens
          obtain ⟨hf, -, hps⟩ := hTokens
          rw [Subtype.ext hf, Params.tokens_inj (List.append_cancel_right hps)]
        | some result' => exact absurd h.symm (text_ne_untyped (.inr ⟨g, qs, rfl⟩))
      | some result =>
        cases result' with
        | none => exact absurd h (text_ne_untyped (.inr ⟨f, ps, rfl⟩))
        | some result' =>
          rw [Member.text, Member.text, tokens_prototypeText, tokens_prototypeText] at hTokens
          obtain ⟨rfl, rfl, hr, ht⟩ := prototypeTokens_inj hTokens
          rw [show result = result' from Prod.ext hr ht]

/-! ### Statements -/

def Statement.first : Statement → String
  | .member m => String.ofList m.text
  | .synonym isReference t x => String.ofList (aliasText isReference t x)
  | .record isTypedef kind x _ => leadWord isTypedef ++ " " ++ kind.heading x ++ ":"
  | .enumeration isTypedef x _ => leadWord isTypedef ++ " " ++ enumHeading x ++ ":"

/-- The lines after the first. -/
def Statement.rest (level : Int) : Statement → List String
  | .member m => m.tail
  | .synonym _ _ _ => [""]
  | .record isTypedef _ _ members =>
    members.flatMap (Member.lines (level + 1)) ++ blockTail isTypedef
  | .enumeration isTypedef _ constants =>
    constants.flatMap (constantLines (level + 1)) ++ blockTail isTypedef

theorem Statement.lines_eq (st : Statement) (level : Int) :
    st.lines level = (Page.margin level ++ st.first) :: st.rest level := by
  cases st <;> rfl

theorem Statement.first_ne_nil (st : Statement) : st.first.toList ≠ [] := by
  cases st with
  | member m => exact m.isLine.1
  | synonym r t x => exact (isLine_alias r t x).1
  | record isTypedef kind x members | enumeration isTypedef x constants => simp [Statement.first]

/-- The words of a heading, which ends with a colon. -/
def Statement.headWords : Statement → Option (List String)
  | .record isTypedef kind x _ => some [leadWord isTypedef, kind.word, x.1]
  | .enumeration isTypedef (some x) _ => some [leadWord isTypedef, "enum", x.1]
  | .enumeration isTypedef none _ => some [leadWord isTypedef, "enum"]
  | _ => none

theorem Statement.first_of_headWords (h : st.headWords = some ws) :
    st.first = " ".intercalate ws ++ ":" ∧ ∀ w ∈ ws, IsWordText w := by
  have hLead : ∀ b, IsWordText (leadWord b) := by decide
  have hEnum : IsWordText "enum" := by decide
  cases st with
  | member m | synonym r t x => cases h
  | record isTypedef kind x members =>
    cases h
    have hKind : IsWordText kind.word := by cases kind <;> decide
    refine ⟨?_, by simpa using ⟨hLead _, hKind, isWordText_of_isIdentifier x.2⟩⟩
    simp [Statement.first, RecordKind.heading, String.append_assoc]
  | enumeration isTypedef x constants =>
    cases x with
    | none =>
      cases h
      refine ⟨?_, by simpa using ⟨hLead _, hEnum⟩⟩
      simp [Statement.first, enumHeading]
    | some x =>
      cases h
      refine ⟨?_, by simpa using ⟨hLead _, hEnum, isWordText_of_isIdentifier x.2⟩⟩
      simp [Statement.first, enumHeading, String.append_assoc]

theorem Statement.colon_of_headWords (h : st.headWords = some ws) : ':' ∈ st.first.toList := by
  rw [(st.first_of_headWords h).1]
  simp

theorem isTypeText_alias (r : Bool) (t : CType) (x : Identifier) : IsTypeText (aliasText r t x) :=
  IsTypeText.trim (IsTypeText.append (by decide)
    (isTypeText_declarationText (some x) r t.isTypeText_after))

theorem Statement.not_colon (h : st.headWords = none) : ':' ∉ st.first.toList := by
  have hType : ∀ cs, IsTypeText cs → ':' ∉ (String.ofList cs).toList := by
    intro cs hcs hm
    rw [String.toList_ofList] at hm
    exact absurd (hcs _ hm) (by decide)
  cases st with
  | member m => exact hType _ m.isTypeText
  | synonym r t x => exact hType _ (isTypeText_alias r t x)
  | record isTypedef kind x members => cases h
  | enumeration isTypedef x constants => cases x <;> cases h

theorem Statement.headWords_inj (h : st.first = st'.first) : st.headWords = st'.headWords := by
  cases hw : st.headWords with
  | none =>
    cases hw' : st'.headWords with
    | none => rfl
    | some ws => exact absurd (h ▸ st'.colon_of_headWords hw') (st.not_colon hw)
  | some ws =>
    cases hw' : st'.headWords with
    | none => exact absurd (h ▸ st.colon_of_headWords hw) (st'.not_colon hw')
    | some ws' =>
      have hTokens : ∀ {st : Statement} {ws : List String}, st.headWords = some ws →
          tokens st.first.toList = ws.map .word ++ [.other ':'] := by
        intro st ws hw
        obtain ⟨hFirst, hWords⟩ := st.first_of_headWords hw
        rw [hFirst, String.toList_append, tokens_append_of_startsApart (by decide),
          tokens_intercalate hWords]
        rfl
      have hSame := hTokens hw
      rw [h, hTokens hw'] at hSame
      have hMap := List.append_cancel_right hSame
      rw [(List.map_inj_right fun _ _ e => Token.word.inj e).1 hMap]

theorem append_left_inj {a b c : String} (h : a ++ b = a ++ c) : b = c := by
  have := congrArg String.toList h
  rw [String.toList_append, String.toList_append] at this
  exact String.toList_inj.1 (List.append_cancel_left this)

theorem ofList_inj (h : String.ofList a = String.ofList b) : a = b := by
  have := congrArg String.toList h
  rwa [String.toList_ofList, String.toList_ofList] at this

theorem Member.lines_inj {rest : List String}
    (h : m.lines level ++ rest = n.lines level ++ rest') : m = n ∧ rest = rest' := by
  rw [Member.lines, Member.lines, List.cons_append, List.cons_append, List.cons.injEq] at h
  obtain rfl := Member.text_inj (ofList_inj (append_left_inj h.1))
  exact ⟨rfl, List.append_cancel_left h.2⟩

theorem append_ne_empty (a : String) {b : String} (h : b.toList ≠ []) : a ++ b ≠ "" := by
  intro e
  have := congrArg String.toList e
  simp_all

theorem Member.lines_cons (level : Int) (m : Member) : ∃ l ls, m.lines level = l :: ls ∧ l ≠ "" :=
  ⟨_, _, rfl, append_ne_empty _ m.isLine.1⟩

theorem members_inj {ms ns : List Member} {rest : List String}
    (h : ms.flatMap (Member.lines level) ++ "" :: rest = ns.flatMap (Member.lines level) ++ "" ::
    rest') :
    ms = ns ∧ rest = rest' :=
  flatMap_inj (P := fun _ => True) (Member.lines_cons level) (fun _ _ _ _ _ _ => Member.lines_inj)
    (fun _ _ => trivial) (fun _ _ => trivial) h

theorem constantText_toList_ne_nil (x : Option Identifier) : (constantText x).toList ≠ [] := by
  cases x with
  | none => decide
  | some x => exact identifier_ne_nil x

theorem constantText_inj {x y : Option Identifier} (hx : ∀ z ∈ x, z.1 ≠ "pass")
    (hy : ∀ z ∈ y, z.1 ≠ "pass") (h : constantText x = constantText y) : x = y := by
  cases x with
  | none =>
    cases y with
    | none => rfl
    | some y => exact absurd h.symm (hy y rfl)
  | some x =>
    cases y with
    | none => exact absurd h (hx x rfl)
    | some y => rw [Subtype.ext h]

theorem constants_inj {xs ys : List (Option Identifier)}
    (hx : ∀ x ∈ xs, ∀ z ∈ x, z.1 ≠ "pass") (hy : ∀ y ∈ ys, ∀ z ∈ y, z.1 ≠ "pass")
    {rest : List String} (h : xs.flatMap (constantLines level) ++ "" :: rest =
      ys.flatMap (constantLines level) ++ "" :: rest') : xs = ys ∧ rest = rest' := by
  refine flatMap_inj (P := fun x => ∀ z ∈ x, z.1 ≠ "pass") ?_ ?_ hx hy h
  · exact fun x => ⟨_, _, rfl, append_ne_empty _ (constantText_toList_ne_nil x)⟩
  · intro x y rest rest' hx hy h
    simp only [constantLines, List.cons_append, List.nil_append, List.cons.injEq] at h
    exact ⟨constantText_inj hx hy (append_left_inj h.1), h.2⟩

theorem first_member_ne_alias (hm : ∀ name ∈ m.firstNames, name ∉ layoutWords) (r : Bool)
    (t : CType) (x : Identifier) : m.text ≠ aliasText r t x := by
  intro h
  have hTokens := congrArg tokens h
  rw [tokens_alias] at hTokens
  have hHead : ∀ (t : CType) (ts : List Token), (∀ name ∈ t.base.2.words, name ∉ layoutWords) →
      (t.specTokens ++ ts).head? ≠ some (.word "ctypedef") := by
    intro t ts
    rw [CType.specTokens]
    obtain ⟨c, b⟩ := t.base
    intro ht
    obtain ⟨w, ws, hw⟩ : ∃ w ws, b.words = w :: ws := by cases b <;> exact ⟨_, _, rfl⟩
    have hw' : w ≠ "ctypedef" := by
      rintro rfl
      exact ht "ctypedef" (by simp [hw]) (by decide)
    cases c <;> simp [constTokens, hw, hw']
  cases m with
  | pass =>
    have hPass : tokens Member.pass.text = [.word "pass"] := by decide
    rw [hPass, List.cons.injEq, Token.word.injEq] at hTokens
    exact absurd hTokens.1 (by decide)
  | declaration r' u y =>
    rw [tokens_declaration, declarationTokens] at hTokens
    exact hHead u _ hm (by rw [hTokens]; rfl)
  | function f ps result =>
    cases result with
    | none =>
      rw [tokens_untyped, List.cons.injEq, Token.word.injEq] at hTokens
      exact hm f.1 (by simp [Member.firstNames]) (by rw [hTokens.1]; decide)
    | some result =>
      rw [Member.text, tokens_prototypeText, prototypeTokens] at hTokens
      exact hHead result.2 _ hm (by rw [hTokens]; rfl)

theorem leadWord_inj {b b' : Bool} (h : leadWord b = leadWord b') : b = b' := by
  revert b b'
  decide

theorem RecordKind.word_inj {k k' : RecordKind} (h : k.word = k'.word) : k = k' := by
  cases k <;> cases k' <;> simp_all [RecordKind.word]

theorem Statement.blocks_inj {isTypedef : Bool} {a b rest : List String}
    (h : a ++ blockTail isTypedef ++ rest = b ++ blockTail isTypedef ++ rest') :
    a ++ "" :: ((if isTypedef then [""] else []) ++ rest) =
      b ++ "" :: ((if isTypedef then [""] else []) ++ rest') := by
  rw [blockTail_eq] at h
  simpa using h

/-- **The lines of a statement tell the statement**, and where it ends. -/
theorem Statement.lines_inj (hc : ∀ name ∈ st.firstNames, name ∉ layoutWords)
    (hc' : ∀ name ∈ st'.firstNames, name ∉ layoutWords) {rest : List String}
    (h : st.lines level ++ rest = st'.lines level ++ rest') : st = st' ∧ rest = rest' := by
  rw [st.lines_eq, st'.lines_eq, List.cons_append, List.cons_append, List.cons.injEq] at h
  have hFirst := append_left_inj h.1
  have hWords := Statement.headWords_inj hFirst
  have hRest := h.2
  have hConstants : ∀ {isTypedef : Bool} {x : Option Identifier} {cs : List (Option Identifier)},
      (∀ name ∈ (Statement.enumeration isTypedef x cs).firstNames, name ∉ layoutWords) →
      ∀ c ∈ cs, ∀ z ∈ c, z.1 ≠ "pass" := by
    intro isTypedef x cs hcs c hc z hz e
    refine hcs z.1 ?_ (by rw [e]; decide)
    rw [Option.mem_def] at hz
    exact List.mem_filterMap.2 ⟨c, hc, by rw [hz]; rfl⟩
  cases st with
  | member m =>
    cases st' with
    | member n =>
      obtain rfl := Member.text_inj (ofList_inj hFirst)
      exact ⟨rfl, List.append_cancel_left hRest⟩
    | synonym r t x => exact absurd (ofList_inj hFirst) (first_member_ne_alias hc r t x)
    | record isTypedef kind x members => cases hWords
    | enumeration isTypedef x constants => cases x <;> cases hWords
  | synonym r t x =>
    cases st' with
    | member n => exact absurd (ofList_inj hFirst).symm (first_member_ne_alias hc' r t x)
    | synonym r' u y =>
      have hTokens := congrArg tokens (ofList_inj hFirst)
      rw [tokens_alias, tokens_alias, List.cons.injEq] at hTokens
      obtain ⟨rfl, rfl, rfl⟩ := declarationTokens_inj hTokens.2
      exact ⟨rfl, List.append_cancel_left hRest⟩
    | record isTypedef kind x members => cases hWords
    | enumeration isTypedef x constants => cases x <;> cases hWords
  | record isTypedef kind x members =>
    cases st' with
    | member n | synonym r t y => cases hWords
    | record isTypedef' kind' x' members' =>
      simp only [Statement.headWords, Option.some.injEq, List.cons.injEq, and_true] at hWords
      obtain rfl := leadWord_inj hWords.1
      obtain rfl := RecordKind.word_inj hWords.2.1
      obtain rfl := Subtype.ext hWords.2.2
      obtain ⟨rfl, hTail⟩ := members_inj (Statement.blocks_inj hRest)
      exact ⟨rfl, List.append_cancel_left hTail⟩
    | enumeration isTypedef' x' constants =>
      have hKind : kind.word ≠ "enum" := by cases kind <;> decide
      cases x' <;> simp [Statement.headWords, hKind] at hWords
  | enumeration isTypedef x constants =>
    cases st' with
    | member n | synonym r t y => cases x <;> cases hWords
    | record isTypedef' kind x' members =>
      have hKind : "enum" ≠ kind.word := by cases kind <;> decide
      cases x <;> simp [Statement.headWords, hKind] at hWords
    | enumeration isTypedef' x' constants' =>
      have hNames : isTypedef = isTypedef' ∧ x = x' := by
        cases x <;> cases x' <;>
          simp only [Statement.headWords, Option.some.injEq, List.cons.injEq, and_true, true_and,
            reduceCtorEq, and_false] at hWords
        · exact ⟨leadWord_inj hWords, rfl⟩
        · exact ⟨leadWord_inj hWords.1, by rw [Subtype.ext hWords.2]⟩
      obtain ⟨rfl, rfl⟩ := hNames
      obtain ⟨rfl, hTail⟩ := constants_inj (hConstants hc) (hConstants hc')
        (Statement.blocks_inj hRest)
      exact ⟨rfl, List.append_cancel_left hTail⟩

/-! ### Modules -/

theorem Statement.isUnbroken_first (st : Statement) : IsUnbroken st.first := by
  cases st with
  | member m => exact m.isLine.2
  | synonym r t x => exact (isLine_alias r t x).2
  | record isTypedef kind x members =>
    exact ((isUnbroken_leadWord isTypedef).append (isUnbroken_heading kind x)).append (by decide)
  | enumeration isTypedef x constants =>
    exact ((isUnbroken_leadWord isTypedef).append (isUnbroken_enumHeading x)).append (by decide)

theorem Statement.isUnbroken_rest (st : Statement) : ∀ l ∈ st.rest 1, IsUnbroken l := by
  have hEmpty : IsUnbroken "" := by decide
  have hMargin : IsUnbroken (Page.margin 2) := by decide
  have hTail : ∀ b, ∀ l ∈ blockTail b, IsUnbroken l := by
    intro b l hl
    obtain rfl : l = "" := by cases b <;> simpa [blockTail] using hl
    exact hEmpty
  have hMember : ∀ m : Member, ∀ l ∈ m.tail, IsUnbroken l := by
    intro m l hl
    cases m with
    | function f ps result => rw [List.mem_singleton.1 hl]; exact hEmpty
    | _ => cases hl
  cases st with
  | member m => exact hMember m
  | synonym r t x => exact List.forall_mem_singleton.2 hEmpty
  | record isTypedef kind x members =>
    refine List.forall_mem_append.2 ⟨fun l hl => ?_, hTail isTypedef⟩
    obtain ⟨m, -, hm⟩ := List.mem_flatMap.1 hl
    rcases List.mem_cons.1 hm with rfl | hm
    · exact hMargin.append m.isLine.2
    · exact hMember m l hm
  | enumeration isTypedef x constants =>
    refine List.forall_mem_append.2 ⟨fun l hl => ?_, hTail isTypedef⟩
    obtain ⟨c, -, hc⟩ := List.mem_flatMap.1 hl
    rw [List.mem_singleton.1 hc]
    refine hMargin.append ?_
    cases c with
    | none => decide
    | some c => exact isUnbroken_identifier c

theorem Outline.IsPlain.isUnbroken {o : Outline} (h : o.IsPlain) : ∀ l ∈ o.lines, IsUnbroken l := by
  have hMargin : IsUnbroken (Page.margin 1) := by decide
  have hStart : IsUnbroken (Page.margin 0 ++ "cdef extern from \"") := by decide
  have hHead : IsUnbroken (Page.margin 0 ++ ("cdef extern from \"" ++ o.header ++ "\":")) := by
    rw [← String.append_assoc, ← String.append_assoc]
    exact (hStart.append h.header).append (by decide)
  refine List.forall_mem_cons.2 ⟨hHead, List.forall_mem_cons.2 ⟨by decide, ?_⟩⟩
  refine List.forall_mem_append.2 ⟨fun l hl => ?_, List.forall_mem_singleton.2 (by decide)⟩
  obtain ⟨st, -, hst⟩ := List.mem_flatMap.1 hl
  rw [st.lines_eq] at hst
  rcases List.mem_cons.1 hst with rfl | hst
  · exact hMargin.append st.isUnbroken_first
  · exact st.isUnbroken_rest l hst

theorem Outline.lines_inj {o o' : Outline} (h : o.IsPlain) (h' : o'.IsPlain)
    (hl : o.lines = o'.lines) : o = o' := by
  obtain ⟨header, statements⟩ := o
  obtain ⟨header', statements'⟩ := o'
  rw [Outline.lines, Outline.lines, List.cons.injEq, List.cons.injEq] at hl
  obtain ⟨hHead, -, hRest⟩ := hl
  have hHeader : header = header' := by
    have hQuoted := append_left_inj hHead
    rw [String.append_assoc, String.append_assoc] at hQuoted
    have hList := congrArg String.toList (append_left_inj hQuoted)
    rw [String.toList_append, String.toList_append] at hList
    exact String.toList_inj.1 (List.append_cancel_right hList)
  have hStatements := flatMap_inj (P := fun st => ∀ name ∈ st.firstNames, name ∉ layoutWords)
    (fun st => ⟨_, _, st.lines_eq 1, append_ne_empty _ st.first_ne_nil⟩)
    (fun _ _ _ _ ha hb => Statement.lines_inj ha hb) h.names h'.names hRest
  rw [hHeader, show statements = statements' from hStatements.1]

/-- **The text of a module tells the module.** Of two modules that are rendered, each with an
outline of its own, the texts are the same exactly if the outlines are, so if the modules are the
same up to what an outline leaves open: volatility, which values stand for constants and for what is
not given, and the contexts of names. -/
theorem text_eq_iff_outline_eq {o o' : Outline} (ho : o.IsPlain) (ho' : o'.IsPlain) {v v' : Value}
    (hv : o.Fits v) (hv' : o'.Fits v') {s s' t t' : Sheet} {text text' : String}
    (h : Gives (renderModule v) s text t) (h' : Gives (renderModule v') s' text' t') :
    text = text' ↔ o = o' := by
  rw [hv.text_eq ho.header h, hv'.text_eq ho'.header h']
  constructor
  · intro hText
    have hNotEnd : ∀ {l : String}, IsUnbroken l → ∀ c ∈ l.toList, (c != '\n') = true := by
      intro l hl c hc
      refine bne_iff_ne.2 ?_
      rintro rfl
      exact absurd (hl _ hc) (by decide)
    exact Outline.lines_inj ho ho' (unlines_inj (fun l hl => hNotEnd (ho.isUnbroken l hl))
      (fun l hl => hNotEnd (ho'.isUnbroken l hl)) (append_left_inj hText))
  · rintro rfl
    rfl

/-! ### A function and a name with its type -/

/-- One parameter, which is a function without a name. -/
def callbackParams : Params :=
  .cons none false (.function .nil false (.named false (.phrase ⟨"double", by decide⟩ []))) .nil

def countType : CType := .pointer true (.named true (.plain ⟨"count_t", by decide⟩))

def handlerOutline : Outline :=
  ⟨"events.h",
    [.member (.declaration false (.function callbackParams false countType) ⟨"handle", by decide⟩)]⟩

def prototypeOutline : Outline :=
  ⟨"events.h", [.member (.function ⟨"handle", by decide⟩ callbackParams (some (false, countType)))]⟩

def eventsModule (statement : Value) : Value :=
  .node .moduleNode [("body", .list [declaredNode false
    (.node .externFrom [("name", .text "events.h"), ("body", .list [statement])])])]

/-- The type is constant because of a number, and volatile. -/
def handlerModule : Value :=
  eventsModule (exprNode (cNameValue (.node .cFunctionType
    [("args", argumentsNode callbackParams.values .nothing (.text "")),
      ("returns", .node .pointer [("value", .node .typeName [
        ("name", .node .name [("id", .text "count_t"), ("ctx", single .load)]), ("const", .int 7),
        ("volatile", .flag true)]), ("const", .flag true), ("volatile", .nothing)])]) "handle"))

def prototypeModule : Value :=
  eventsModule (prototypeValue "handle" (argumentsValue callbackParams.values) countType.value)

theorem handlerOutline_fits : handlerOutline.Fits handlerModule := by
  refine ⟨_, ⟨_, _, ⟨_, ⟨_, .nothing, .text "", _, callbackParams.fitAll_values, rfl, rfl, ?_, rfl⟩,
    rfl⟩, rfl, rfl⟩, rfl⟩
  exact ⟨_, .flag true, .nothing, ⟨single .load, .int 7, .flag true, rfl, rfl⟩, rfl, rfl⟩

theorem prototypeOutline_fits : prototypeOutline.Fits prototypeModule :=
  ⟨_, ⟨_, _, ⟨_, .nothing, .nothing, _, .nothing, callbackParams.fitAll_values, rfl, rfl,
    ⟨_, countType.fits_value, rfl⟩, rfl, rfl⟩, rfl, rfl⟩, rfl⟩

theorem text_eq_iff_outline_eq_handler :
    ∃ text text' t t', Gives (renderModule handlerModule) {} text t ∧
      Gives (renderModule prototypeModule) {} text' t' ∧
      (text = text' ↔ handlerOutline = prototypeOutline) := by
  have h : Gives (renderModule handlerModule) {} (heading ++ unlines handlerOutline.lines)
      { page := some { body := unlines handlerOutline.lines } } := by
    unfold Gives
    cbv
  have h' : Gives (renderModule prototypeModule) {} (heading ++ unlines prototypeOutline.lines)
      { page := some { body := unlines prototypeOutline.lines } } := by
    unfold Gives
    cbv
  refine ⟨_, _, _, _, h, h', text_eq_iff_outline_eq ⟨by decide, ?_⟩ ⟨by decide, ?_⟩
    handlerOutline_fits prototypeOutline_fits h h'⟩
  · decide
  · decide

end PxdGen.Pxd
