import PxdGen.Proofs.Declarator.Reader
/-! # Reading the tokens of a type

A declarator of a type is put around what it declares: `CType.front` and `CType.back` are the tokens
before and after it, from the name outwards. The proof that the reader finds the levels again goes
by induction on the type with the declarator inside as a variable: whatever `d` is read as, `t.front
++ d ++ t.back` is read as the same with the levels of `t` around it.

What is inside has to be a direct declarator if a suffix follows it. `ReadsDirect` and
`ReadsDeclarator` keep the two apart, and parentheses lead from the one to the other.

Only a parameter that is a function without a name is not read as what it is: the parentheses around
nothing are taken for an empty list of parameters. `CType.heard` is what a type is read as.
-/

namespace PxdGen.Pxd

variable {s : String} {rest d ts : List Token} {D : Declarator} {ps : Params} {t : CType}

/-! ### The tokens of a type -/

def dimTokens : Int → List Token
  | .ofNat n => [.openDim, .word (String.ofList (Nat.toDigits 10 n)), .closeDim]
  | .negSucc n => [.openDim, .minus, .word (String.ofList (Nat.toDigits 10 (n + 1))), .closeDim]

def constTokens (isConst : Bool) : List Token := if isConst then [.word "const"] else []

def nameTokens : Option Identifier → List Token
  | some name => [.word name.1]
  | none => []

namespace CType

/-- A pointer or an array that a reference mark is kept apart from. -/
def isLoose : CType → Bool
  | .pointer isConst _ => !isConst
  | .array _ _ => true
  | _ => false

/-- The named type under all levels. -/
def base : CType → Bool × BaseName
  | .named isConst base => (isConst, base)
  | .pointer _ t | .array _ t | .function _ _ t => t.base

def specTokens (t : CType) : List Token := constTokens t.base.1 ++ t.base.2.words.map .word

end CType

/-- The tokens before a name that is declared by reference. -/
def referenceFront (isReference : Bool) (t : CType) : List Token :=
  if isReference then (if t.isLoose then [.opening, .amp] else [.amp]) else []

def referenceBack (isReference : Bool) (t : CType) : List Token :=
  if isReference && t.isLoose then [.closing] else []

mutual

/-- The tokens between the named type and the name. -/
def CType.front : CType → List Token
  | .named _ _ => []
  | .pointer isConst t =>
    t.front ++ ((if t.isArray then [.opening] else []) ++ .star :: constTokens isConst)
  | .array _ t => t.front
  | .function _ isReference t => t.front ++ (referenceFront isReference t ++ [.opening])

/-- The tokens after the name. -/
def CType.back : CType → List Token
  | .named _ _ => []
  | .pointer _ t => (if t.isArray then [.closing] else []) ++ t.back
  | .array dim t => dimTokens dim ++ t.back
  | .function params isReference t =>
    .closing :: .opening :: (params.tokens ++ .closing :: (referenceBack isReference t ++ t.back))

def Params.tokens : Params → List Token
  | .nil => []
  | .cons name isReference t rest =>
    t.specTokens ++ (t.front ++ (referenceFront isReference t ++ nameTokens name ++
      referenceBack isReference t) ++ t.back) ++
      (match rest with
        | .nil => []
        | .cons _ _ _ _ => .comma :: rest.tokens)

end

def declarationTokens (name : Option Identifier) (isReference : Bool) (t : CType) : List Token :=
  t.specTokens ++ (t.front ++ (referenceFront isReference t ++ nameTokens name ++
    referenceBack isReference t) ++ t.back)

def referenceLevels (isReference : Bool) : List Level := if isReference then [.reference] else []

/-- The levels of a type, the outermost first. -/
def CType.levels : CType → List Level
  | .named _ _ => []
  | .pointer isConst t => .pointer isConst :: t.levels
  | .array dim t => .array dim :: t.levels
  | .function params isReference t =>
    .function params :: (referenceLevels isReference ++ t.levels)

/-- The levels of a type make it from its named type. -/
theorem CType.foldrM_levels (t : CType) :
    t.levels.foldrM Level.apply? (false, .named t.base.1 t.base.2) = some (false, t) := by
  cases t with
  | named isConst base => rfl
  | pointer isConst t | array dim t =>
    rw [CType.levels, List.foldrM_cons]
    show (t.levels.foldrM Level.apply? (false, .named t.base.1 t.base.2) >>= _) = _
    rw [t.foldrM_levels]
    rfl
  | function params isReference t =>
    rw [CType.levels, List.foldrM_cons, List.foldrM_append]
    show (t.levels.foldrM Level.apply? (false, .named t.base.1 t.base.2) >>= _) >>= _ = _
    rw [t.foldrM_levels]
    cases isReference <;> rfl

theorem foldrM_referenceLevels (r : Bool) (t : CType) :
    (referenceLevels r ++ t.levels).foldrM Level.apply? (false, .named t.base.1 t.base.2) =
      some (r, t) := by
  rw [List.foldrM_append, t.foldrM_levels]
  cases r <;> rfl

/-! ### What is heard of a type -/

/-- Whether a parameter is a function that nothing stands in the parentheses of. -/
def isMute (name : Option Identifier) (isReference : Bool) (t : CType) : Bool :=
  !(name.isSome || isReference) && t.isFunction

mutual

/-- What a type is read as. -/
def CType.heard : CType → CType
  | .named isConst base => .named isConst base
  | .pointer isConst t => .pointer isConst t.heard
  | .array dim t => .array dim t.heard
  | .function params isReference t => .function params.heard isReference t.heard

def Params.heard : Params → Params
  | .nil => .nil
  | .cons name isReference t rest =>
    .cons name isReference (if isMute name isReference t then .function .nil false t.heard else
      t.heard) rest.heard

end

theorem CType.isFunction_heard (t : CType) : t.heard.isFunction = t.isFunction := by
  cases t <;> rfl

theorem CType.base_heard (t : CType) : t.heard.base = t.base := by
  cases t with
  | named isConst base => rfl
  | pointer isConst t | array dim t | function params r t => exact t.base_heard

mutual

/-- Different types are heard differently. -/
theorem CType.heard_inj {t u : CType} (h : t.heard = u.heard) : t = u := by
  cases t with
  | named isConst base => cases u <;> cases h; rfl
  | pointer isConst t =>
    cases u with
    | pointer isConst' u =>
      rw [CType.heard, CType.heard, CType.pointer.injEq] at h
      rw [h.1, t.heard_inj h.2]
    | _ => cases h
  | array dim t =>
    cases u with
    | array dim' u =>
      rw [CType.heard, CType.heard, CType.array.injEq] at h
      rw [h.1, t.heard_inj h.2]
    | _ => cases h
  | function params r t =>
    cases u with
    | function params' r' u =>
      rw [CType.heard, CType.heard, CType.function.injEq] at h
      rw [params.heard_inj h.1, h.2.1, t.heard_inj h.2.2]
    | _ => cases h

theorem Params.heard_inj {ps qs : Params} (h : ps.heard = qs.heard) : ps = qs := by
  cases ps with
  | nil => cases qs <;> cases h; rfl
  | cons name r t ps =>
    cases qs with
    | nil => cases h
    | cons name' r' u qs =>
      rw [Params.heard, Params.heard, Params.cons.injEq] at h
      obtain ⟨rfl, rfl, hType, hRest⟩ := h
      have hType : t.heard = u.heard := by
        cases hn : name.isSome || r with
        | true => simpa [isMute, hn] using hType
        | false =>
          -- both are functions, heard with one more function around them, or neither is
          have hMute : ∀ w : CType, isMute name r w = w.isFunction := fun w => by simp [isMute, hn]
          have hFunction : ∀ w : CType,
              (if w.isFunction then CType.function .nil false w.heard else w.heard).isFunction =
                w.isFunction := by
            intro w
            cases hw : w.isFunction
            · exact w.isFunction_heard.trans hw
            · rfl
          rw [hMute, hMute] at hType
          have hSame : t.isFunction = u.isFunction := by rw [← hFunction t, hType, hFunction u]
          rw [hSame] at hType
          cases hu : u.isFunction <;> simpa [hu] using hType
      rw [t.heard_inj hType, ps.heard_inj hRest]

end

mutual

theorem CType.heard_of_isSpoken {t : CType} (h : t.isSpoken = true) : t.heard = t := by
  cases t with
  | named isConst base => rfl
  | pointer isConst t | array dim t => rw [CType.heard, t.heard_of_isSpoken h]
  | function params r t =>
    simp only [CType.isSpoken, Bool.and_eq_true] at h
    rw [CType.heard, params.heard_of_areSpoken h.1, t.heard_of_isSpoken h.2]

theorem Params.heard_of_areSpoken {ps : Params} (h : ps.areSpoken = true) : ps.heard = ps := by
  cases ps with
  | nil => rfl
  | cons name r t ps =>
    simp only [Params.areSpoken, Bool.and_eq_true] at h
    have hMute : isMute name r t = false := by
      rw [isMute, ← Bool.not_eq_true', Bool.not_and, Bool.not_not]
      exact h.1.1
    rw [Params.heard, hMute, t.heard_of_isSpoken h.1.2, ps.heard_of_areSpoken h.2]
    rfl

end

/-! ### Parts of a declaration -/

theorem readNatural?_toDigits (n : Nat) :
    readNatural? (String.ofList (Nat.toDigits 10 n)) = some n := by
  have h : ∀ c ∈ Nat.toDigits 10 n, c.isDigit = true := fun c hc =>
    Nat.isDigit_of_mem_toDigits (by omega) (by omega) hc
  rw [readNatural?, String.toList_ofList, if_pos (List.all_eq_true.2 h),
    Nat.ofDigitChars_ten_toDigits]

theorem readDim?_dimTokens (dim : Int) (rest : List Token) :
    readDim? ((dimTokens dim).tail ++ rest) = some (dim, rest) := by
  cases dim with
  | ofNat n => simp [dimTokens, readDim?, readNatural?_toDigits]
  | negSucc n =>
    simp only [dimTokens, List.tail_cons, List.cons_append, List.nil_append, readDim?,
      readNatural?_toDigits]
    rfl

theorem isIdentifier_not_keyword (h : isIdentifier s = true) : s ∉ keywords := by
  simp only [isIdentifier, Bool.and_eq_true, Bool.not_eq_true', List.contains_eq_mem,
    decide_eq_false_iff_not] at h
  exact h.2

theorem keyword_of_mem_typeWords (h : s ∈ typeWords) : s ∈ keywords := by
  revert s
  decide

theorem keyword_of_mem_tagWords (h : s ∈ tagWords) : s ∈ keywords ∧ s ∉ typeWords := by
  revert s
  decide

/-- No further word of a type name comes next. -/
def endsPhrase : List Token → Bool
  | .word s :: _ => !typeWords.contains s
  | _ => true

theorem readPhrase_append (ws : List TypeWord) (h : endsPhrase rest = true) :
    readPhrase ((ws.map (·.1)).map .word ++ rest) = (ws, rest) := by
  induction ws with
  | nil =>
    cases rest with
    | nil => rfl
    | cons t rest =>
      cases t with
      | word s =>
        have hs : s ∉ typeWords := by simpa [endsPhrase] using h
        show readPhrase (.word s :: rest) = _
        rw [readPhrase, dif_neg hs]
      | _ => rfl
  | cons w ws ih =>
    simp only [List.map_cons, List.cons_append, readPhrase, dif_pos w.2, ih]

theorem readBase?_append (b : BaseName) (h : endsPhrase rest = true) :
    readBase? (b.words.map .word ++ rest) = some (b, rest) := by
  cases b with
  | plain name =>
    have hk := isIdentifier_not_keyword name.2
    have h1 : name.1 ∉ typeWords := fun hm => hk (keyword_of_mem_typeWords hm)
    have h2 : name.1 ∉ tagWords := fun hm => hk (keyword_of_mem_tagWords hm).1
    simp [BaseName.words, readBase?, h1, h2, readIdentifier?, name.2]
  | tagged tag name =>
    have h1 := (keyword_of_mem_tagWords tag.2).2
    simp [BaseName.words, readBase?, h1, tag.2, readIdentifier?, name.2]
  | phrase first ws =>
    have hp := readPhrase_append ws h
    simp only [BaseName.words, List.map_cons, List.cons_append, readBase?, dif_pos first.2, hp]

theorem readConst_constTokens (c : Bool) (h : rest.head? ≠ some (.word "const")) :
    readConst (constTokens c ++ rest) = (c, rest) := by
  cases c with
  | true => simp [constTokens, readConst]
  | false =>
    cases rest with
    | nil => rfl
    | cons t rest =>
      cases t with
      | word s =>
        have hs : s ≠ "const" := fun e => h (by rw [e]; rfl)
        simp [constTokens, readConst, hs]
      | _ => rfl

theorem words_ne_const (b : BaseName) (rest : List Token) :
    (b.words.map Token.word ++ rest).head? ≠ some (.word "const") := by
  have hw : ∀ s : String, s ∈ typeWords → s ≠ "const" := by decide
  have ht : ∀ s : String, s ∈ tagWords → s ≠ "const" := by decide
  cases b with
  | plain name =>
    have hk := isIdentifier_not_keyword name.2
    simp only [BaseName.words, List.map_cons, List.cons_append, List.head?_cons, ne_eq,
      Option.some.injEq, Token.word.injEq]
    intro e
    rw [e] at hk
    exact hk (by decide)
  | tagged tag name => simpa [BaseName.words] using ht _ tag.2
  | phrase first ws => simpa [BaseName.words] using hw _ first.2

/-! ### What a sequence of tokens is read as -/

/-- A declarator can end here. -/
def endsHere : List Token → Bool
  | [] | .closing :: _ | .comma :: _ => true
  | _ => false

/-- The tokens `d` are read as a direct declarator, whatever suffixes are read behind them. If there
are none, the next token must not be taken for the beginning of one. -/
structure ReadsDirect (d : List Token) (D : Declarator) : Prop where
  head : d.head? ≠ some .star ∧ d.head? ≠ some .amp
  group : d ≠ [] → opensGroup d = true
  read : ∀ (rest : List Token) (r : Declarator × List Token) (n : Nat),
    (d = [] → endsHere rest = true ∨ rest.head? = some .openDim) →
    (∀ m, 3 * rest.length + 1 ≤ m → readSuffixes m D rest = some r) →
    3 * (d ++ rest).length + 2 ≤ n → readDirect n (d ++ rest) = some r

/-- The tokens `d` are read as a declarator that ends behind them. -/
structure ReadsDeclarator (d : List Token) (D : Declarator) : Prop where
  group : d ≠ [] → opensGroup d = true
  read : ∀ (rest : List Token) (n : Nat), endsHere rest = true →
    3 * (d ++ rest).length + 3 ≤ n → readDeclarator n (d ++ rest) = some (D, rest)

/-- The tokens `ts` are read as parameters. -/
def ReadsParams (ts : List Token) (ps : Params) : Prop :=
  ∀ (rest : List Token) (n : Nat), 3 * (ts ++ .closing :: rest).length + 3 ≤ n →
    readParams n (ts ++ .closing :: rest) = some (ps, rest)

theorem opensGroup_append (h : d ≠ []) (rest : List Token) :
    opensGroup (d ++ rest) = opensGroup d := by
  cases d with
  | nil => exact absurd rfl h
  | cons t d => cases t <;> rfl

theorem readSuffixes_of_endsHere (h : endsHere rest = true) (D : Declarator)
    {m : Nat} (hm : 1 ≤ m) : readSuffixes m D rest = some (D, rest) := by
  obtain ⟨m, rfl⟩ : ∃ k, m = k + 1 := ⟨m - 1, by omega⟩
  cases rest with
  | nil => simp [readSuffixes]
  | cons t rest => cases t <;> simp_all [endsHere, readSuffixes]

theorem readsDirect_name (x : Identifier) : ReadsDirect [.word x.1] ⟨some x, []⟩ := by
  refine ⟨by simp, fun _ => x.2, ?_⟩
  intro rest r n _ hs hn
  obtain ⟨n, rfl⟩ : ∃ k, n = k + 1 := ⟨n - 1, by omega⟩
  simp only [List.cons_append, List.nil_append, List.length_cons] at hn ⊢
  simp only [readDirect, readIdentifier?, dif_pos x.2, Option.bind_eq_bind, Option.bind_some]
  exact hs n (by omega)

theorem readsDirect_nil : ReadsDirect [] ⟨none, []⟩ := by
  refine ⟨by simp, fun h => absurd rfl h, ?_⟩
  intro rest r n he hs hn
  obtain ⟨n, rfl⟩ : ∃ k, n = k + 1 := ⟨n - 1, by omega⟩
  have hr := hs n (by simp only [List.nil_append] at hn; omega)
  have he := he rfl
  cases rest with
  | nil => simpa only [List.nil_append, readDirect] using hr
  | cons t rest => cases t <;> simp_all [endsHere, readDirect]

theorem ReadsDirect.declarator {d : List Token} {D : Declarator} (h : ReadsDirect d D) :
    ReadsDeclarator d D := by
  refine ⟨h.group, ?_⟩
  intro rest n he hn
  obtain ⟨n, rfl⟩ : ∃ k, n = k + 1 := ⟨n - 1, by omega⟩
  have hd := h.read rest (D, rest) n (fun _ => .inl he)
    (fun m hm => readSuffixes_of_endsHere he D (by omega)) (by omega)
  -- the first token is no mark, so the declarator is a direct one
  have hHead : (d ++ rest).head? ≠ some .star ∧ (d ++ rest).head? ≠ some .amp := by
    cases d with
    | nil =>
      cases rest with
      | nil => simp
      | cons t rest => cases t <;> simp_all [endsHere]
    | cons t d => simpa using h.head
  cases hts : d ++ rest with
  | nil => simpa only [readDeclarator, hts] using hd
  | cons t ts =>
    rw [hts] at hd hHead
    cases t <;> simp_all [readDeclarator]

theorem ReadsDirect.dim {d : List Token} {D : Declarator} (h : ReadsDirect d D) (dim : Int) :
    ReadsDirect (d ++ dimTokens dim) (D.under (.array dim)) := by
  have hTokens : dimTokens dim = .openDim :: (dimTokens dim).tail := by cases dim <;> rfl
  refine ⟨?_, ?_, ?_⟩
  · cases d with
    | nil => rw [hTokens]; simp
    | cons t d => simpa using h.head
  · intro _
    cases d with
    | nil => rw [hTokens]; rfl
    | cons t d => rw [opensGroup_append (by simp)]; exact h.group (by simp)
  · intro rest r n _ hs hn
    rw [List.append_assoc] at hn ⊢
    refine h.read _ r n (fun _ => .inr (by rw [hTokens]; rfl)) ?_ hn
    intro m hm
    obtain ⟨m, rfl⟩ : ∃ k, m = k + 1 := ⟨m - 1, by omega⟩
    rw [hTokens] at hm ⊢
    simp only [List.cons_append, List.length_cons, List.length_append] at hm
    simp only [List.cons_append, readSuffixes, readDim?_dimTokens, Option.bind_eq_bind,
      Option.bind_some]
    exact hs m (by omega)

theorem ReadsDirect.call (h : ReadsDirect d D) (hd : d ≠ []) (hps : ReadsParams ts ps) :
    ReadsDirect (d ++ .opening :: (ts ++ [.closing])) (D.under (.function ps)) := by
  refine ⟨?_, ?_, ?_⟩
  · cases d with
    | nil => exact absurd rfl hd
    | cons t d => simpa using h.head
  · intro _
    rw [opensGroup_append hd]
    exact h.group hd
  · intro rest r n _ hs hn
    rw [List.append_assoc] at hn ⊢
    refine h.read _ r n (fun e => absurd e hd) ?_ hn
    intro m hm
    obtain ⟨m, rfl⟩ : ∃ k, m = k + 1 := ⟨m - 1, by omega⟩
    simp only [List.cons_append, List.append_assoc, List.nil_append, List.length_cons,
      List.length_append] at hm ⊢
    have hp := hps rest m (by simp only [List.length_append, List.length_cons]; omega)
    simp only [readSuffixes, hp, Option.bind_eq_bind, Option.bind_some]
    exact hs m (by omega)

/-- Parentheses around nothing are read as parameters themselves. -/
theorem readsDirect_mute (hps : ReadsParams ts ps) :
    ReadsDirect (.opening :: .closing :: .opening :: (ts ++ [.closing]))
      ⟨none, [.function .nil, .function ps]⟩ := by
  refine ⟨by simp, fun _ => rfl, ?_⟩
  intro rest r n _ hs hn
  simp only [List.cons_append, List.append_assoc, List.nil_append, List.length_cons,
    List.length_append] at hn ⊢
  obtain ⟨n, rfl⟩ : ∃ k, n = k + 3 := ⟨n - 3, by omega⟩
  have hp := hps rest n (by simp only [List.length_append, List.length_cons]; omega)
  simp only [readDirect, opensGroup, readSuffixes, readParams, hp, Declarator.under,
    Option.bind_eq_bind, Option.bind_some, Bool.false_eq_true, if_false]
  exact hs n (by omega)

theorem ReadsDeclarator.grouped (h : ReadsDeclarator d D)
    (hd : d ≠ []) : ReadsDirect (.opening :: (d ++ [.closing])) D := by
  refine ⟨by simp, fun _ => rfl, ?_⟩
  intro rest r n _ hs hn
  obtain ⟨n, rfl⟩ : ∃ k, n = k + 1 := ⟨n - 1, by omega⟩
  simp only [List.cons_append, List.append_assoc, List.nil_append, List.length_cons,
    List.length_append] at hn ⊢
  have hg : opensGroup (d ++ .closing :: rest) = true := by
    rw [opensGroup_append hd]
    exact h.group hd
  have hr := h.read (.closing :: rest) n rfl
    (by simp only [List.length_append, List.length_cons]; omega)
  simp only [readDirect, hg, if_true, hr, Option.bind_eq_bind, Option.bind_some]
  exact hs n (by omega)

theorem ReadsDeclarator.pointer {d : List Token} {D : Declarator} (h : ReadsDeclarator d D)
    (c : Bool) : ReadsDeclarator (.star :: (constTokens c ++ d)) (D.under (.pointer c)) := by
  refine ⟨fun _ => rfl, ?_⟩
  intro rest n he hn
  obtain ⟨n, rfl⟩ : ∃ k, n = k + 1 := ⟨n - 1, by omega⟩
  simp only [List.cons_append, List.append_assoc, List.length_cons, List.length_append] at hn ⊢
  have hHead : (d ++ rest).head? ≠ some (.word "const") := by
    cases d with
    | nil =>
      cases rest with
      | nil => simp
      | cons t rest => cases t <;> simp_all [endsHere]
    | cons t d =>
      have hg := h.group (by simp)
      intro e
      simp only [List.cons_append, List.head?_cons, Option.some.injEq] at e
      rw [e] at hg
      exact absurd (show isIdentifier "const" = true from hg) (by decide)
  have hr := h.read rest n he (by simp only [List.length_append]; omega)
  simp only [readDeclarator, readConst_constTokens c hHead, hr, Option.bind_eq_bind,
    Option.bind_some]

theorem ReadsDeclarator.reference {d : List Token} {D : Declarator} (h : ReadsDeclarator d D) :
    ReadsDeclarator (.amp :: d) (D.under .reference) := by
  refine ⟨fun _ => rfl, ?_⟩
  intro rest n he hn
  obtain ⟨n, rfl⟩ : ∃ k, n = k + 1 := ⟨n - 1, by omega⟩
  simp only [List.cons_append, List.length_cons] at hn ⊢
  have hr := h.read rest n he (by omega)
  simp only [readDeclarator, hr, Option.bind_eq_bind, Option.bind_some]

theorem Declarator.under_eq (d : Declarator) (l : Level) (ls : List Level) :
    (⟨(d.under l).name, (d.under l).levels ++ ls⟩ : Declarator) =
    ⟨d.name, d.levels ++ l :: ls⟩ := by
  simp [Declarator.under]

theorem readDeclaration_eq {r : Bool} {name : Option Identifier}
    (h : ReadsDeclarator d ⟨name, referenceLevels r ++ t.levels⟩) (he : endsHere rest = true)
    {n : Nat} (hn : 3 * (t.specTokens ++ d ++ rest).length + 1 ≤ n) :
    readDeclaration n (t.specTokens ++ d ++ rest) = some (⟨name, r, t⟩, rest) := by
  obtain ⟨n, rfl⟩ : ∃ k, n = k + 1 := ⟨n - 1, by omega⟩
  have hPhrase : endsPhrase (d ++ rest) = true := by
    cases d with
    | nil =>
      cases rest with
      | nil => rfl
      | cons t rest => cases t <;> simp_all [endsHere, endsPhrase]
    | cons t d =>
      have hg := h.group (by simp)
      cases t with
      | word s =>
        have hk := isIdentifier_not_keyword (show isIdentifier s = true from hg)
        have : s ∉ typeWords := fun hs => hk (keyword_of_mem_typeWords hs)
        simpa [endsPhrase] using this
      | _ => rfl
  have hWords : 1 ≤ t.base.2.words.length := by
    cases t.base.2 <;> simp [BaseName.words]
  have hRead := h.read rest n he (by
    simp only [CType.specTokens, List.length_append, List.length_map] at hn ⊢
    omega)
  rw [readDeclaration, CType.specTokens, List.append_assoc, List.append_assoc,
    readConst_constTokens _ (words_ne_const _ _)]
  simp only [readBase?_append _ hPhrase, hRead, Option.bind_eq_bind, Option.bind_some,
    foldrM_referenceLevels]

theorem readsDirect_nameTokens (name : Option Identifier) :
    ReadsDirect (nameTokens name) ⟨name, []⟩ := by
  cases name with
  | none => exact readsDirect_nil
  | some x => exact readsDirect_name x

theorem ReadsDirect.referenced (h : ReadsDirect d D) (r : Bool) (t : CType) :
    ReadsDeclarator (referenceFront r t ++ d ++ referenceBack r t)
        ⟨D.name, D.levels ++ referenceLevels r⟩ ∧
      (t.isArray = true → ReadsDirect (referenceFront r t ++ d ++ referenceBack r t)
        ⟨D.name, D.levels ++ referenceLevels r⟩) := by
  cases r with
  | false =>
    have hd : ReadsDirect ([] ++ d ++ []) ⟨D.name, D.levels ++ []⟩ := by simpa using h
    exact ⟨hd.declarator, fun _ => hd⟩
  | true =>
    have hd : ReadsDeclarator (.amp :: d) ⟨D.name, D.levels ++ [.reference]⟩ :=
      h.declarator.reference
    cases hl : t.isLoose with
    | true =>
      have hg := hd.grouped (by simp)
      simp only [referenceFront, referenceBack, referenceLevels, hl, if_true, Bool.and_self]
      exact ⟨hg.declarator, fun _ => hg⟩
    | false =>
      have ha : t.isArray = false := by
        cases t <;> simp_all [CType.isLoose, CType.isArray]
      simp only [referenceFront, referenceBack, referenceLevels, hl, ha, if_true, Bool.and_false,
        Bool.false_eq_true, if_false, List.append_nil]
      exact ⟨hd, fun e => absurd e (by simp)⟩

/-- The levels of a type are read around whatever stands in it: a direct declarator if the next
level is a suffix, and something at all if the next level puts it in parentheses. A function that
nothing stands in is read too, but not as what it is. -/
structure CType.Reads (t : CType) : Prop where
  around : ∀ (d : List Token) (D : Declarator), ReadsDeclarator d D →
    (t.isArray = true → ReadsDirect d D) → (t.isFunction = true → d ≠ []) →
    ReadsDeclarator (t.front ++ d ++ t.back) ⟨D.name, D.levels ++ t.heard.levels⟩
  mute : t.isFunction = true →
    ReadsDeclarator (t.front ++ t.back) ⟨none, .function .nil :: t.heard.levels⟩

theorem CType.Reads.result (h : t.Reads) (hd : ReadsDirect d D) (hne : d ≠ []) (r : Bool) :
    ReadsDeclarator (t.front ++ (referenceFront r t ++ d ++ referenceBack r t) ++ t.back)
      ⟨D.name, D.levels ++ (referenceLevels r ++ t.heard.levels)⟩ := by
  obtain ⟨hr, ha⟩ := hd.referenced r t
  have := h.around _ _ hr ha (by simp [hne])
  simpa using this

theorem CType.specTokens_heard (t : CType) : t.heard.specTokens = t.specTokens := by
  rw [CType.specTokens, CType.specTokens, t.base_heard]

theorem CType.Reads.declaration (h : t.Reads) (name : Option Identifier) (r : Bool)
    (rest : List Token) (he : endsHere rest = true) (n : Nat)
    (hn : 3 * (declarationTokens name r t ++ rest).length + 1 ≤ n) :
    readDeclaration n (declarationTokens name r t ++ rest) =
      some (⟨name, r, if isMute name r t then .function .nil false t.heard else t.heard⟩,
      rest) := by
  cases hm : isMute name r t with
  | true =>
    simp only [isMute, Bool.and_eq_true, Bool.not_eq_true', Bool.or_eq_false_iff] at hm
    obtain ⟨⟨hName, rfl⟩, hf⟩ := hm
    obtain rfl : name = none := by simpa using hName
    have hTokens : declarationTokens none false t =
        (CType.function .nil false t.heard).specTokens ++ (t.front ++ t.back) := by
      have hSpec : (CType.function .nil false t.heard).specTokens = t.specTokens :=
        t.specTokens_heard
      rw [hSpec]
      simp [declarationTokens, referenceFront, referenceBack, nameTokens]
    rw [hTokens] at hn ⊢
    exact readDeclaration_eq (r := false) (h.mute hf) he hn
  | false =>
    obtain ⟨hd, ha⟩ := (readsDirect_nameTokens name).referenced r t
    have hTokens : declarationTokens name r t = t.heard.specTokens ++ (t.front ++
        (referenceFront r t ++ nameTokens name ++ referenceBack r t) ++ t.back) := by
      rw [t.specTokens_heard, declarationTokens]
    rw [hTokens] at hn ⊢
    refine readDeclaration_eq (h.around _ _ hd ha ?_) he hn
    intro hf
    cases name with
    | some x => simp [nameTokens]
    | none =>
      have hr : r = true := by simpa [isMute, hf] using hm
      cases t <;> simp_all [referenceFront, CType.isLoose, CType.isFunction]

theorem Params.tokens_cons (name : Option Identifier) (r : Bool) (t : CType) (rest : Params) :
    (Params.cons name r t rest).tokens = declarationTokens name r t ++ (match rest with
        | .nil => []
        | .cons _ _ _ _ => .comma :: rest.tokens) := by
  cases rest <;> rfl

theorem CType.specTokens_ne_closing (t : CType) (rest : List Token) :
    (t.specTokens ++ rest).head? ≠ some .closing := by
  cases hb : t.base with
  | mk c b => cases c <;> cases b <;> simp [CType.specTokens, constTokens, BaseName.words, hb]

theorem readParams_of_list (h : ts.head? ≠ some .closing) (n : Nat) :
    readParams (n + 1) ts = readParamList n ts := by
  cases ts with
  | nil => simp [readParams]
  | cons t ts => cases t <;> simp_all [readParams]

theorem readsParams_of_list {qs : Params} (hNil : ps = .nil → qs = .nil)
    (h : ps ≠ .nil → ∀ (rest : List Token) (n : Nat), 3 * (ps.tokens ++ .closing :: rest).length +
        2 ≤ n → readParamList n (ps.tokens ++ .closing :: rest) = some (qs, rest)) :
    ReadsParams ps.tokens qs := by
  intro rest n hn
  obtain ⟨n, rfl⟩ : ∃ k, n = k + 1 := ⟨n - 1, by omega⟩
  cases ps with
  | nil => simp [Params.tokens, readParams, hNil rfl]
  | cons name r t ps =>
    have hHead : ((Params.cons name r t ps).tokens ++ .closing :: rest).head? ≠ some .closing := by
      rw [Params.tokens_cons, declarationTokens, List.append_assoc, List.append_assoc]
      exact t.specTokens_ne_closing _
    rw [readParams_of_list hHead]
    exact h (by simp) rest n (by omega)

mutual

/-- **The tokens of a type are read as what is heard of it.** -/
theorem CType.reads (t : CType) : t.Reads := by
  cases t with
  | named isConst base =>
    refine ⟨fun d D h _ _ => ?_, nofun⟩
    simpa [CType.front, CType.back, CType.heard, CType.levels] using h
  | pointer isConst t =>
    refine ⟨fun d D h _ _ => ?_, nofun⟩
    have hp := h.pointer isConst
    cases ha : t.isArray with
    | true =>
      have hg := hp.grouped (by simp)
      have hr := t.reads.around _ _ hg.declarator (fun _ => hg) (by simp)
      rw [Declarator.under_eq] at hr
      simpa [CType.front, CType.back, CType.heard, CType.levels, ha] using hr
    | false =>
      have hr := t.reads.around _ _ hp (by simp [ha]) (by simp)
      rw [Declarator.under_eq] at hr
      simpa [CType.front, CType.back, CType.heard, CType.levels, ha] using hr
  | array dim t =>
    refine ⟨fun d D h hArray _ => ?_, nofun⟩
    have hd := (hArray rfl).dim dim
    have hn : d ++ dimTokens dim ≠ [] := by cases dim <;> simp [dimTokens]
    have hr := t.reads.around _ _ hd.declarator (fun _ => hd) (fun _ => hn)
    rw [Declarator.under_eq] at hr
    simpa [CType.front, CType.back, CType.heard, CType.levels] using hr
  | function params isReference t =>
    have hps := params.reads
    refine ⟨fun d D h _ hFunction => ?_, fun _ => ?_⟩
    · have hc := (h.grouped (hFunction rfl)).call (by simp) hps
      have hr := t.reads.result hc (by simp) isReference
      simpa [CType.front, CType.back, CType.heard, CType.levels, Declarator.under] using hr
    · have hr := t.reads.result (readsDirect_mute hps) (by simp) isReference
      simpa [CType.front, CType.back, CType.heard, CType.levels] using hr

theorem Params.reads (ps : Params) : ReadsParams ps.tokens ps.heard :=
  readsParams_of_list (by rintro rfl; rfl) fun hne => ps.readsList hne

theorem Params.readsList (ps : Params) (hne : ps ≠ .nil) (rest : List Token) (n : Nat)
    (hn : 3 * (ps.tokens ++ .closing :: rest).length + 2 ≤ n) :
    readParamList n (ps.tokens ++ .closing :: rest) = some (ps.heard, rest) := by
  obtain ⟨n, rfl⟩ : ∃ k, n = k + 1 := ⟨n - 1, by omega⟩
  cases ps with
  | nil => exact absurd rfl hne
  | cons name r t ps =>
    have hd := t.reads.declaration name r
    cases ps with
    | nil =>
      rw [Params.tokens_cons, List.append_nil] at hn ⊢
      have hr := hd (.closing :: rest) rfl n (by omega)
      simp only [readParamList, hr, Option.bind_eq_bind, Option.bind_some]
      rfl
    | cons name' r' t' ps' =>
      rw [Params.tokens_cons, List.append_assoc, List.cons_append] at hn ⊢
      have hr := hd (.comma :: ((Params.cons name' r' t' ps').tokens ++ .closing :: rest)) rfl n
        (by omega)
      have hl := Params.readsList (.cons name' r' t' ps') (by simp) rest n (by
        simp only [List.length_append, List.length_cons] at hn ⊢
        omega)
      simp only [readParamList, hr, hl, Option.bind_eq_bind, Option.bind_some]
      rfl

end

/-- The tokens of a function that is declared by name. -/
def prototypeTokens (f : Identifier) (ps : Params) (isReference : Bool) (t : CType) : List Token :=
  t.specTokens ++ (t.front ++ (referenceFront isReference t ++
    (.word f.1 :: .opening :: (ps.tokens ++ [.closing])) ++ referenceBack isReference t) ++ t.back)

theorem readDeclaration_prototypeTokens (f : Identifier) (ps : Params) (r : Bool) (t : CType)
    (rest : List Token) (he : endsHere rest = true) (n : Nat)
    (hn : 3 * (prototypeTokens f ps r t ++ rest).length + 1 ≤ n) :
    readDeclaration n (prototypeTokens f ps r t ++ rest) =
      some (⟨some f, false, .function ps.heard r t.heard⟩, rest) := by
  have hc := (readsDirect_name f).call (by simp) ps.reads
  have hr := t.reads.result hc (by simp) r
  have hSpec : (CType.function ps.heard r t.heard).specTokens = t.specTokens := t.specTokens_heard
  rw [prototypeTokens, ← hSpec] at hn ⊢
  refine readDeclaration_eq (t := .function ps.heard r t.heard) ?_ he hn
  simpa [Declarator.under, CType.levels, referenceLevels] using hr

end PxdGen.Pxd
