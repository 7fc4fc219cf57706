import PxdGen.Proofs.Declarator.Reading
import PxdGen.Proofs.Identifier
import PxdGen.Text.Lines
/-! # The spelling of a type

The text of a declaration is written around the name: `CType.before` and `CType.after` are what
stands on its two sides. Before the name there is always a blank or a mark, and after it a mark or
nothing, so that words never run into one another, and the tokens of the text are those of its
pieces.
-/

namespace PxdGen.Pxd

open Text (isBlank isWordChar)

variable {c : Char} {a b cs : List Char} {s : String} {ws : List String} {t : CType}

/-! ### Tokens of pieces -/

theorem isWordChar_iff (c : Char) :
    isWordChar c = true ↔ (65 ≤ c.toNat ∧ c.toNat ≤ 90) ∨ (97 ≤ c.toNat ∧ c.toNat ≤ 122) ∨
      (48 ≤ c.toNat ∧ c.toNat ≤ 57) ∨ c.toNat = 95 := by
  have hUnderscore : c = '_' ↔ c.toNat = 95 :=
    ⟨fun e => by rw [e]; rfl, fun e => Char.ext (UInt32.toNat.inj e)⟩
  have hChar : isWordChar c = (((decide (65 ≤ c.val ∧ c.val ≤ 90) ||
      decide (97 ≤ c.val) && decide (c.val ≤ 122)) ||
      decide (48 ≤ c.val) && decide (c.val ≤ 57)) || c == '_') := rfl
  rw [hChar]
  simp only [Bool.or_eq_true, Bool.and_eq_true, decide_eq_true_eq, UInt32.le_iff_toNat_le,
    beq_iff_eq, hUnderscore]
  show (((65 ≤ c.toNat ∧ c.toNat ≤ 90) ∨ (97 ≤ c.toNat ∧ c.toNat ≤ 122)) ∨
    (48 ≤ c.toNat ∧ c.toNat ≤ 57)) ∨ c.toNat = 95 ↔ _
  rw [or_assoc, or_assoc]

theorem not_isWordChar_of_isBlank (h : isBlank c = true) : isWordChar c = false := by
  simp only [isBlank, Bool.or_eq_true, Bool.and_eq_true, decide_eq_true_eq, beq_iff_eq] at h
  rw [← Bool.not_eq_true, isWordChar_iff]
  omega

/-- A piece that does not go on with a word before it. -/
def StartsApart (cs : List Char) : Prop := ∀ c ∈ cs.head?, isWordChar c = false

/-- A piece that a word after it does not go on with. -/
def EndsApart (cs : List Char) : Prop := ∀ c ∈ cs.getLast?, isWordChar c = false

instance (cs : List Char) : Decidable (StartsApart cs) :=
  decidable_of_iff (cs.head?.all (!isWordChar ·) = true) (by simp [StartsApart, Option.all_eq_true])

instance (cs : List Char) : Decidable (EndsApart cs) :=
  decidable_of_iff (cs.getLast?.all (!isWordChar ·) = true)
    (by simp [EndsApart, Option.all_eq_true])

theorem startsApart_cons (h : isWordChar c = false) (cs : List Char) : StartsApart (c :: cs) := by
  simpa [StartsApart] using h

theorem StartsApart.append (ha : StartsApart a) (hb : StartsApart b) : StartsApart (a ++ b) := by
  cases a with
  | nil => exact hb
  | cons c a => exact startsApart_cons (ha c rfl) _

theorem EndsApart.append (ha : EndsApart a) (hb : EndsApart b) : EndsApart (a ++ b) := by
  rcases List.eq_nil_or_concat b with rfl | ⟨b', c, rfl⟩
  · rwa [List.append_nil]
  · have hc : isWordChar c = false := hb c (by simp)
    simpa [EndsApart, ← List.append_assoc] using hc

theorem tokensFrom_append_of_startsApart (a b w : List Char) (h : StartsApart b) :
    tokensFrom (a ++ b) w = tokensFrom a w ++ tokens b := by
  induction a generalizing w with
  | nil =>
    cases b with
    | nil => simp [tokens, tokensFrom, wordToken]
    | cons c b =>
      have hc : isWordChar c = false := h c rfl
      cases hb : isBlank c <;> simp [tokens, tokensFrom, wordToken, hc, hb]
  | cons c a ih =>
    cases hc : isWordChar c <;> cases hb : isBlank c <;>
      simp [tokensFrom, hc, hb, ih, List.append_assoc]

theorem tokens_append_of_startsApart (h : StartsApart b) :
    tokens (a ++ b) = tokens a ++ tokens b := tokensFrom_append_of_startsApart a b [] h

theorem tokens_append_of_endsApart (h : EndsApart a) : tokens (a ++ b) = tokens a ++ tokens b := by
  rcases List.eq_nil_or_concat a with rfl | ⟨a', c, rfl⟩
  · rfl
  · have hc : isWordChar c = false := h c (by simp)
    rw [List.concat_eq_append, List.append_assoc,
      tokens_append_of_startsApart (b := [c] ++ b) (startsApart_cons hc _),
      tokens_append_of_startsApart (b := [c]) (startsApart_cons hc _), List.append_assoc]
    cases hb : isBlank c <;> simp [tokens, tokensFrom, wordToken, hc, hb]

def IsWordText (s : String) : Prop := s.toList ≠ [] ∧ ∀ c ∈ s.toList, isWordChar c = true

instance (s : String) : Decidable (IsWordText s) :=
  decidable_of_iff ((!s.toList.isEmpty && s.toList.all isWordChar) = true) (by simp [IsWordText])

theorem tokensFrom_word (cs w : List Char) (h : ∀ c ∈ cs, isWordChar c = true) :
    tokensFrom cs w = wordToken (cs.reverse ++ w) := by
  induction cs generalizing w with
  | nil => rfl
  | cons c cs ih =>
    rw [tokensFrom, if_pos (h c (by simp)), ih _ fun d hd => h d (by simp [hd])]
    simp

theorem tokens_word (h : IsWordText s) : tokens s.toList = [.word s] := by
  rw [tokens, tokensFrom_word _ _ h.2, List.append_nil]
  cases hr : s.toList.reverse with
  | nil => exact absurd (by simpa using hr) h.1
  | cons c cs => rw [wordToken, ← hr, List.reverse_reverse, String.ofList_toList]

theorem tokens_blanks (h : ∀ c ∈ cs, isBlank c = true) : tokens cs = [] := by
  induction cs with
  | nil => rfl
  | cons c cs ih =>
    have hb := h c (by simp)
    have hr : tokensFrom cs [] = [] := ih fun d hd => h d (by simp [hd])
    simp [tokens, tokensFrom, wordToken, hb, not_isWordChar_of_isBlank hb, hr]

/-- A text without the blanks at its ends, as characters. -/
def trimChars (cs : List Char) : List Char :=
  ((cs.dropWhile isBlank).reverse.dropWhile isBlank).reverse

theorem toList_trim (s : String) : (Text.trim s).toList = trimChars s.toList := by
  simp [Text.trim, trimChars]

theorem tokens_trimChars (cs : List Char) : tokens (trimChars cs) = tokens cs := by
  have hLeft : tokens cs = tokens (cs.dropWhile isBlank) := by
    have hb : ∀ c ∈ cs.takeWhile isBlank, isBlank c = true := fun c =>
      List.all_eq_true.1 List.all_takeWhile c
    have hl : EndsApart (cs.takeWhile isBlank) := fun c hc =>
      not_isWordChar_of_isBlank (hb c (List.mem_of_getLast? hc))
    calc tokens cs = tokens (cs.takeWhile isBlank ++ cs.dropWhile isBlank) := by
          rw [List.takeWhile_append_dropWhile]
      _ = tokens (cs.dropWhile isBlank) := by
          rw [tokens_append_of_endsApart hl, tokens_blanks hb, List.nil_append]
  have hRight : ∀ ds : List Char, tokens (ds.reverse.dropWhile isBlank).reverse = tokens ds := by
    intro ds
    have hb : ∀ c ∈ (ds.reverse.takeWhile isBlank).reverse, isBlank c = true := fun c hc =>
      List.all_eq_true.1 List.all_takeWhile c (List.mem_reverse.1 hc)
    have hh : StartsApart (ds.reverse.takeWhile isBlank).reverse := fun c hc =>
      not_isWordChar_of_isBlank (hb c (List.mem_of_mem_head? hc))
    calc tokens (ds.reverse.dropWhile isBlank).reverse
        = tokens ((ds.reverse.dropWhile isBlank).reverse ++
        (ds.reverse.takeWhile isBlank).reverse) := by
          rw [tokens_append_of_startsApart hh, tokens_blanks hb, List.append_nil]
      _ = tokens ds := by
          rw [← List.reverse_append, List.takeWhile_append_dropWhile, List.reverse_reverse]
  rw [trimChars, hRight, hLeft]

/-! ### The text of a type -/

def constText (isConst : Bool) : List Char := if isConst then "const ".toList else []

def referenceBefore (isReference : Bool) (t : CType) : List Char :=
  if isReference then (if t.isLoose then ['(', '&'] else ['&']) else []

def referenceAfter (isReference : Bool) (t : CType) : List Char :=
  if isReference && t.isLoose then [')'] else []

mutual

/-- What stands before a name of the type. -/
def CType.before : CType → List Char
  | .named isConst base => constText isConst ++ base.text.toList ++ [' ']
  | .pointer isConst t =>
    t.before ++ ((if t.isArray then ['('] else []) ++ '*' :: constText isConst)
  | .array _ t => t.before
  | .function _ isReference t => t.before ++ (referenceBefore isReference t ++ ['('])

/-- What stands after a name of the type. -/
def CType.after : CType → List Char
  | .named _ _ => []
  | .pointer _ t => (if t.isArray then [')'] else []) ++ t.after
  | .array dim t => ('[' :: (Text.ofInt dim).toList ++ [']']) ++ t.after
  | .function params isReference t =>
    ')' :: '(' :: (params.text ++ ')' :: (referenceAfter isReference t ++ t.after))

/-- Parameters with commas between them. -/
def Params.text : Params → List Char
  | .nil => []
  | .cons name isReference t rest =>
    trimChars (t.before ++ (referenceBefore isReference t ++ (nameText name).toList ++
      referenceAfter isReference t) ++ t.after) ++
      (match rest with
        | .nil => []
        | .cons _ _ _ _ => ',' :: ' ' :: rest.text)

end

/-- The text of a declaration, with a blank at its end if there is no name. -/
def declarationText (name : String) (isReference : Bool) (t : CType) : List Char :=
  t.before ++ (referenceBefore isReference t ++ name.toList ++ referenceAfter isReference t) ++
    t.after

/-! ### Its tokens -/

theorem isWordText_of_isIdentifier (h : isIdentifier s = true) : IsWordText s := by
  simp only [isIdentifier, Bool.and_eq_true] at h
  refine ⟨fun hs => ?_, Text.isWordChar_of_isWord h.1⟩
  rw [hs] at h
  cases h.1

theorem isWordText_of_mem (h : s ∈ typeWords ∨ s ∈ tagWords) : IsWordText s := by
  have h1 : ∀ s ∈ typeWords, IsWordText s := by decide
  have h2 : ∀ s ∈ tagWords, IsWordText s := by decide
  exact h.elim (h1 s) (h2 s)

theorem BaseName.words_areWords (b : BaseName) : ∀ s ∈ b.words, IsWordText s := by
  cases b with
  | plain name => simpa [BaseName.words] using isWordText_of_isIdentifier name.2
  | tagged tag name =>
    refine List.forall_mem_cons.2 ⟨isWordText_of_mem (.inr tag.2), ?_⟩
    exact List.forall_mem_singleton.2 (isWordText_of_isIdentifier name.2)
  | phrase first ws =>
    refine List.forall_mem_cons.2 ⟨isWordText_of_mem (.inl first.2), ?_⟩
    intro s hs
    obtain ⟨w, _, rfl⟩ := List.mem_map.1 hs
    exact isWordText_of_mem (.inl w.2)

theorem tokens_intercalate (h : ∀ s ∈ ws, IsWordText s) :
    tokens (" ".intercalate ws).toList = ws.map .word := by
  induction ws with
  | nil => simp [tokens, tokensFrom, wordToken]
  | cons w ws ih =>
    have hw := h w (by simp)
    cases ws with
    | nil =>
      rw [String.intercalate_singleton]
      exact tokens_word hw
    | cons v ws =>
      have hr := ih fun s hs => h s (by simp [hs])
      have hb : tokens " ".toList = [] := by decide
      have ha : StartsApart (" ".toList ++ (" ".intercalate (v :: ws)).toList) :=
        startsApart_cons (by decide) _
      rw [String.intercalate_cons_cons, String.toList_append, String.toList_append,
        List.append_assoc, tokens_append_of_startsApart ha, tokens_word hw,
        tokens_append_of_endsApart (by decide), hb, hr]
      rfl

theorem tokens_baseName (b : BaseName) : tokens b.text.toList = b.words.map .word :=
  tokens_intercalate b.words_areWords

theorem tokens_nameText (name : Option Identifier) :
    tokens (nameText name).toList = nameTokens name := by
  cases name with
  | none => rfl
  | some name =>
    have h := isWordText_of_isIdentifier name.2
    exact tokens_word h

theorem tokens_toDigits (n : Nat) :
    tokens (Nat.toDigits 10 n) = [.word (String.ofList (Nat.toDigits 10 n))] := by
  have h : ∀ c ∈ Nat.toDigits 10 n, isWordChar c = true := fun c hc => by
    have hd := Nat.isDigit_of_mem_toDigits (by omega) (by omega) hc
    simp [isWordChar, Char.isAlphanum, hd]
  have hs : Nat.toDigits 10 n ≠ [] := by
    have := Nat.length_toDigits_pos (b := 10) (n := n)
    exact List.ne_nil_of_length_pos this
  have hw : IsWordText (String.ofList (Nat.toDigits 10 n)) := by
    rw [IsWordText, String.toList_ofList]
    exact ⟨hs, h⟩
  simpa using tokens_word hw

theorem tokens_dim (dim : Int) :
    tokens ('[' :: (Text.ofInt dim).toList ++ [']']) = dimTokens dim := by
  have hOpen : ∀ cs, tokens ('[' :: cs) = .openDim :: tokens cs := fun cs => rfl
  have hMinus : ∀ cs, tokens ('-' :: cs) = .minus :: tokens cs := fun cs => rfl
  rw [tokens_append_of_startsApart (by decide), hOpen]
  cases dim with
  | ofNat n =>
    rw [Text.ofInt, String.toList_ofList, tokens_toDigits]
    rfl
  | negSucc n =>
    have h : ("-" ++ String.ofList (Nat.toDigits 10 (n + 1))).toList =
      '-' :: Nat.toDigits 10 (n + 1) := by simp
    rw [Text.ofInt, h, hMinus, tokens_toDigits]
    rfl

theorem tokens_constText (c : Bool) : tokens (constText c) = constTokens c := by
  cases c <;> decide

theorem endsApart_constText (c : Bool) : EndsApart (constText c) := by
  cases c <;> decide

theorem tokens_referenceBefore (r : Bool) (t : CType) :
    tokens (referenceBefore r t) = referenceFront r t := by
  cases r <;> cases h : t.isLoose <;> simp only [referenceBefore, referenceFront, h] <;> decide

theorem tokens_referenceAfter (r : Bool) (t : CType) :
    tokens (referenceAfter r t) = referenceBack r t := by
  cases r <;> cases h : t.isLoose <;> simp only [referenceAfter, referenceBack, h] <;> decide

theorem endsApart_referenceBefore (r : Bool) (t : CType) : EndsApart (referenceBefore r t) := by
  cases r <;> cases h : t.isLoose <;> simp only [referenceBefore, h] <;> decide

theorem startsApart_referenceAfter (r : Bool) (t : CType) :
    StartsApart (referenceAfter r t) := by
  cases r <;> cases h : t.isLoose <;> simp only [referenceAfter, h] <;> decide

theorem CType.endsApart_before (t : CType) : EndsApart t.before := by
  cases t with
  | named isConst base =>
    intro c hc
    obtain rfl : ' ' = c := by simpa [CType.before] using hc
    decide
  | pointer isConst t =>
    refine t.endsApart_before.append (EndsApart.append ?_ ?_)
    · cases t.isArray <;> decide
    · exact EndsApart.append (a := ['*']) (by decide) (endsApart_constText isConst)
  | array dim t => exact t.endsApart_before
  | function params r t =>
    exact t.endsApart_before.append ((endsApart_referenceBefore r t).append (by decide))

theorem CType.startsApart_after (t : CType) : StartsApart t.after := by
  cases t with
  | named isConst base => exact nofun
  | pointer isConst t =>
    refine StartsApart.append ?_ t.startsApart_after
    cases t.isArray <;> decide
  | array dim t | function params r t => exact startsApart_cons (by decide) _

theorem tokens_declarationText_of (name : Option Identifier) (r : Bool)
    (hb : tokens t.before = t.specTokens ++ t.front) (ha : tokens t.after = t.back) :
    tokens (declarationText (nameText name) r t) = declarationTokens name r t := by
  rw [declarationText, tokens_append_of_startsApart t.startsApart_after,
    tokens_append_of_endsApart t.endsApart_before,
    tokens_append_of_startsApart (startsApart_referenceAfter r t),
    tokens_append_of_endsApart (endsApart_referenceBefore r t), hb, ha, tokens_nameText,
    tokens_referenceBefore, tokens_referenceAfter, declarationTokens]
  simp only [List.append_assoc]

theorem Params.text_cons (name : Option Identifier) (r : Bool) (t : CType) (rest : Params) :
    (Params.cons name r t rest).text = trimChars (declarationText (nameText name) r t) ++
    (match rest with
        | .nil => []
        | .cons _ _ _ _ => ',' :: ' ' :: rest.text) := by
  cases rest <;> rfl

mutual

theorem CType.tokens_before (t : CType) : tokens t.before = t.specTokens ++ t.front := by
  cases t with
  | named isConst base =>
    rw [CType.before, tokens_append_of_startsApart (by decide),
      tokens_append_of_endsApart (endsApart_constText isConst), tokens_constText, tokens_baseName]
    rfl
  | pointer isConst t =>
    have hStar : tokens ((if t.isArray then ['('] else []) ++ '*' :: constText isConst) =
        (if t.isArray then [.opening] else []) ++ .star :: constTokens isConst := by
      cases t.isArray <;> cases isConst <;> decide
    rw [CType.before, tokens_append_of_endsApart t.endsApart_before, t.tokens_before, hStar,
      CType.front, List.append_assoc]
    rfl
  | array dim t => exact t.tokens_before
  | function params r t =>
    rw [CType.before, tokens_append_of_endsApart t.endsApart_before, t.tokens_before,
      tokens_append_of_endsApart (endsApart_referenceBefore r t), tokens_referenceBefore,
      CType.front, List.append_assoc]
    rfl

theorem CType.tokens_after (t : CType) : tokens t.after = t.back := by
  cases t with
  | named isConst base => rfl
  | pointer isConst t =>
    rw [CType.after, tokens_append_of_startsApart t.startsApart_after, t.tokens_after, CType.back]
    cases t.isArray <;> rfl
  | array dim t =>
    rw [CType.after, tokens_append_of_startsApart t.startsApart_after, t.tokens_after, tokens_dim,
      CType.back]
  | function params r t =>
    have hParens : ∀ cs, tokens (')' :: '(' :: cs) = .closing :: .opening :: tokens cs :=
      fun cs => rfl
    have hClose : ∀ cs, tokens (')' :: cs) = .closing :: tokens cs := fun cs => rfl
    rw [CType.after, hParens, tokens_append_of_startsApart (startsApart_cons (by decide) _), hClose,
      tokens_append_of_startsApart t.startsApart_after, params.tokens_text, tokens_referenceAfter,
      t.tokens_after, CType.back]

theorem Params.tokens_text (ps : Params) : tokens ps.text = ps.tokens := by
  cases ps with
  | nil => rfl
  | cons name r t rest =>
    have hHead := tokens_declarationText_of name r t.tokens_before t.tokens_after
    have hComma : ∀ cs, tokens (',' :: ' ' :: cs) = .comma :: tokens cs := fun cs => rfl
    rw [Params.text_cons, Params.tokens_cons]
    cases rest with
    | nil => rw [List.append_nil, tokens_trimChars, hHead, List.append_nil]
    | cons name' r' t' rest' =>
      rw [tokens_append_of_startsApart (startsApart_cons (by decide) _), tokens_trimChars, hHead,
        hComma, (Params.cons name' r' t' rest').tokens_text]

end

/-- **The text of a declaration has its tokens.** -/
theorem tokens_declarationText (name : Option Identifier) (r : Bool) (t : CType) :
    tokens (declarationText (nameText name) r t) = declarationTokens name r t :=
  tokens_declarationText_of name r t.tokens_before t.tokens_after

/-- The text of a function that is declared by name. -/
def prototypeText (f : String) (ps : Params) (isReference : Bool) (t : CType) : List Char :=
  t.before ++ (referenceBefore isReference t ++ (f.toList ++ '(' :: (ps.text ++ [')'])) ++
    referenceAfter isReference t) ++ t.after

theorem tokens_prototypeText (f : Identifier) (ps : Params) (r : Bool) (t : CType) :
    tokens (prototypeText f.1 ps r t) = prototypeTokens f ps r t := by
  have hf := isWordText_of_isIdentifier f.2
  have hOpen : ∀ cs, tokens ('(' :: cs) = .opening :: tokens cs := fun cs => rfl
  rw [prototypeText, tokens_append_of_startsApart t.startsApart_after,
    tokens_append_of_endsApart t.endsApart_before,
    tokens_append_of_startsApart (startsApart_referenceAfter r t),
    tokens_append_of_endsApart (endsApart_referenceBefore r t), t.tokens_before, t.tokens_after,
    tokens_referenceBefore, tokens_referenceAfter,
    tokens_append_of_startsApart (startsApart_cons (by decide) _), tokens_word hf, hOpen,
    tokens_append_of_startsApart (by decide), ps.tokens_text, prototypeTokens]
  simp only [List.append_assoc]
  rfl

/-! ### The characters of a type -/

/-- The characters that types are written with. -/
def isTypeChar (c : Char) : Bool :=
  isWordChar c || [' ', '*', '&', '(', ')', '[', ']', ',', '-'].contains c

theorem not_isBreak_of_isTypeChar (h : isTypeChar c = true) : Text.isBreak c = false := by
  simp only [isTypeChar, Bool.or_eq_true, List.contains_eq_mem, decide_eq_true_eq, List.mem_cons,
    List.not_mem_nil, or_false] at h
  rcases h with h | rfl | rfl | rfl | rfl | rfl | rfl | rfl | rfl | rfl
  · rw [isWordChar_iff] at h
    simp only [Text.isBreak, Bool.or_eq_false_iff, Bool.and_eq_false_iff, decide_eq_false_iff_not,
      beq_eq_false_iff_ne]
    omega
  all_goals decide

theorem ne_brace_of_isTypeChar (h : isTypeChar c = true) : c ≠ '\x7b' := by
  rintro rfl
  exact absurd h (by decide)

def IsTypeText (cs : List Char) : Prop := ∀ c ∈ cs, isTypeChar c = true

instance (cs : List Char) : Decidable (IsTypeText cs) :=
  decidable_of_iff (cs.all isTypeChar = true) (by simp [IsTypeText])

theorem IsTypeText.append (ha : IsTypeText a) (hb : IsTypeText b) :
    IsTypeText (a ++ b) := List.forall_mem_append.2 ⟨ha, hb⟩

theorem IsTypeText.cons {c : Char} (hc : isTypeChar c = true) {cs : List Char} (h : IsTypeText cs) :
    IsTypeText (c :: cs) := List.forall_mem_cons.2 ⟨hc, h⟩

theorem isTypeText_of_forall (h : ∀ c ∈ cs, isWordChar c = true) :
    IsTypeText cs := fun c hc => by simp [isTypeChar, h c hc]

theorem isTypeText_constText (b : Bool) : IsTypeText (constText b) := by
  cases b <;> decide

theorem isTypeText_referenceBefore (r : Bool) (t : CType) : IsTypeText (referenceBefore r t) := by
  cases r <;> cases h : t.isLoose <;> simp only [referenceBefore, h] <;> decide

theorem isTypeText_referenceAfter (r : Bool) (t : CType) : IsTypeText (referenceAfter r t) := by
  cases r <;> cases h : t.isLoose <;> simp only [referenceAfter, h] <;> decide

theorem IsTypeText.trim (h : IsTypeText cs) : IsTypeText (trimChars cs) := by
  intro c hc
  have h1 := (List.dropWhile_sublist _).subset (List.mem_reverse.1 hc)
  exact h c ((List.dropWhile_sublist _).subset (List.mem_reverse.1 h1))

theorem isTypeText_intercalate (h : ∀ s ∈ ws, IsWordText s) :
    IsTypeText (" ".intercalate ws).toList := by
  induction ws with
  | nil => decide
  | cons w ws ih =>
    have hw : IsTypeText w.toList := isTypeText_of_forall (h w (by simp)).2
    cases ws with
    | nil => simpa using hw
    | cons v ws =>
      have hr := ih fun s hs => h s (by simp [hs])
      rw [String.intercalate_cons_cons, String.toList_append, String.toList_append]
      exact (hw.append (by decide)).append hr

theorem isTypeText_nameText (name : Option Identifier) : IsTypeText (nameText name).toList := by
  cases name with
  | none => decide
  | some x => exact isTypeText_of_forall (isWordText_of_isIdentifier x.2).2

theorem isTypeText_ofInt (n : Int) : IsTypeText (Text.ofInt n).toList := by
  have h : ∀ n : Nat, IsTypeText (Nat.toDigits 10 n) := fun n => isTypeText_of_forall fun c hc => by
      have hd := Nat.isDigit_of_mem_toDigits (by omega) (by omega) hc
      simp [isWordChar, Char.isAlphanum, hd]
  cases n with
  | ofNat n => simpa [Text.ofInt] using h n
  | negSucc n =>
    rw [Text.ofInt, String.toList_append]
    exact IsTypeText.append (by decide) (by simpa using h (n + 1))

theorem CType.isTypeText_before (t : CType) : IsTypeText t.before := by
  cases t with
  | named isConst base =>
    refine (IsTypeText.append (isTypeText_constText isConst) ?_).append (by decide)
    exact isTypeText_intercalate base.words_areWords
  | pointer isConst t =>
    refine t.isTypeText_before.append (IsTypeText.append ?_ ?_)
    · cases t.isArray <;> decide
    · exact (isTypeText_constText isConst).cons (by decide)
  | array dim t => exact t.isTypeText_before
  | function params r t =>
    exact t.isTypeText_before.append ((isTypeText_referenceBefore r t).append (by decide))

theorem isTypeText_declarationText (name : Option Identifier) (r : Bool)
    (h : IsTypeText t.after) : IsTypeText (declarationText (nameText name) r t) :=
  (t.isTypeText_before.append (((isTypeText_referenceBefore r t).append
    (isTypeText_nameText name)).append (isTypeText_referenceAfter r t))).append h

mutual

theorem CType.isTypeText_after (t : CType) : IsTypeText t.after := by
  cases t with
  | named isConst base => exact nofun
  | pointer isConst t =>
    refine IsTypeText.append ?_ t.isTypeText_after
    cases t.isArray <;> decide
  | array dim t =>
    refine IsTypeText.append (IsTypeText.append ?_ (by decide)) t.isTypeText_after
    exact (isTypeText_ofInt dim).cons (by decide)
  | function params r t =>
    refine IsTypeText.cons (by decide) (IsTypeText.cons (by decide) ?_)
    refine params.isTypeText_text.append (IsTypeText.cons (by decide) ?_)
    exact (isTypeText_referenceAfter r t).append t.isTypeText_after

theorem Params.isTypeText_text (ps : Params) : IsTypeText ps.text := by
  cases ps with
  | nil => exact nofun
  | cons name r t rest =>
    have hHead := (isTypeText_declarationText name r t.isTypeText_after).trim
    rw [Params.text_cons]
    cases rest with
    | nil => rwa [List.append_nil]
    | cons name' r' t' rest' =>
      have hRest := (Params.cons name' r' t' rest').isTypeText_text
      exact hHead.append ((hRest.cons (by decide)).cons (by decide))

end

theorem isTypeText_prototypeText (f : Identifier) (ps : Params) (r : Bool) (t : CType) :
    IsTypeText (prototypeText f.1 ps r t) := by
  have hCall : IsTypeText (f.1.toList ++ '(' :: (ps.text ++ [')'])) :=
    (isTypeText_nameText (some f)).append ((ps.isTypeText_text.append (by decide)).cons (by decide))
  exact (t.isTypeText_before.append (((isTypeText_referenceBefore r t).append hCall).append
    (isTypeText_referenceAfter r t))).append t.isTypeText_after

end PxdGen.Pxd
