import PxdGen.Text.Name
/-! # Names spelled as identifiers

A mangled name is made of letters, digits, underscores, dollar signs and dots. Spelling it leaves
word characters only (`isWordChar_of_mem_spell`), and what `identifier?` then puts before it makes
it a word that does not begin with two underscores. Such a word is spelled as itself.
-/

namespace PxdGen.Text

variable {c : Char} {cs : List Char} {s : String}

def isMangledChar (c : Char) : Bool := isWordChar c || c == '$' || c == '.'

/-- A word begins with any of its characters but a digit. -/
theorem isWordStart_iff : isWordStart c = true ↔ isWordChar c = true ∧ ¬ c.isDigit = true := by
  have hAlpha : c.isAlpha = (decide (65 ≤ c.val ∧ c.val ≤ 90) ||
      decide (97 ≤ c.val) && decide (c.val ≤ 122)) := rfl
  have hDigit : c.isDigit = (decide (48 ≤ c.val) && decide (c.val ≤ 57)) := rfl
  by_cases hc : c = '_'
  · subst hc
    decide
  · simp only [isWordStart, isWordChar, Char.isAlphanum]
    grind

/-! ### Spelling -/

theorem isWordChar_of_mem_spell (h : cs.all isMangledChar = true) (hc : c ∈ spell cs) :
    isWordChar c = true := by
  obtain ⟨d, hd, hc⟩ := List.mem_flatMap.1 hc
  have hMangled := List.all_eq_true.1 h d hd
  unfold spellChar at hc
  split at hc
  · exact List.all_eq_true.1 (show "DOLLAR".toList.all isWordChar = true by decide) c hc
  split at hc
  · exact List.all_eq_true.1 (show "DOT".toList.all isWordChar = true by decide) c hc
  · rw [List.mem_singleton.1 hc]
    simp_all [isMangledChar]

theorem spell_ne_nil (h : cs ≠ []) : spell cs ≠ [] := by
  obtain ⟨c, cs, rfl⟩ := List.exists_cons_of_ne_nil h
  intro e
  have hc : spellChar c = [] := List.flatMap_eq_nil_iff.1 e c List.mem_cons_self
  unfold spellChar at hc
  split at hc
  · simp at hc
  · split at hc <;> simp at hc

theorem spell_of_isWordChar (h : ∀ c ∈ cs, isWordChar c = true) : spell cs = cs := by
  induction cs with
  | nil => rfl
  | cons c cs ih =>
    obtain ⟨hc, hcs⟩ := List.forall_mem_cons.1 h
    have hDollar : c ≠ '$' := fun e => by subst e; exact absurd hc (by decide)
    have hDot : c ≠ '.' := fun e => by subst e; exact absurd hc (by decide)
    have ih : cs.flatMap spellChar = cs := ih hcs
    simp [spell, spellChar, hDollar, hDot, ih]

/-! ### Words -/

theorem isWord_cons : isWord (c :: cs) = true ↔ isWordStart c = true ∧
    ∀ d ∈ cs, isWordChar d = true := by
  rw [isWord, Bool.and_eq_true, List.all_eq_true]

theorem isWordChar_of_isWord (h : isWord cs = true) : ∀ c ∈ cs, isWordChar c = true := by
  cases cs with
  | nil => cases h
  | cons d cs =>
    have h := isWord_cons.1 h
    exact List.forall_mem_cons.2 ⟨(isWordStart_iff.1 h.1).1, h.2⟩

theorem identifier?_of_isWord (h : isWord cs = true) (hu : ¬ ['_', '_'] <+: cs) :
    identifier? (String.ofList cs) = some (String.ofList cs) := by
  unfold identifier?
  rw [String.toList_ofList, spell_of_isWordChar (isWordChar_of_isWord h)]
  split
  · cases h
  · exact absurd (by simp) hu
  · rw [if_neg ((isWordStart_iff.1 (isWord_cons.1 h).1).2)]

theorem exists_isWord_of_spell (h : spell s.toList ≠ [])
    (hw : ∀ c ∈ spell s.toList, isWordChar c = true) :
    ∃ cs, identifier? s = some (String.ofList cs) ∧ spell s.toList <:+ cs ∧ isWord cs = true ∧
      ¬ ['_', '_'] <+: cs := by
  unfold identifier?
  split
  · contradiction
  · next rest e =>
    rw [e] at hw ⊢
    exact ⟨_, rfl, ⟨['_', 'X'], rfl⟩,
      isWord_cons.2 ⟨by decide, List.forall_mem_cons.2 ⟨by decide, hw⟩⟩, by simp⟩
  · next d rest hUnder e =>
    rw [e] at hw ⊢
    by_cases hd : d.isDigit = true
    · rw [if_pos hd]
      refine ⟨_, rfl, ⟨['_'], rfl⟩, isWord_cons.2 ⟨by decide, hw⟩, fun hp => ?_⟩
      have hd' : d = '_' := by simpa [eq_comm] using hp
      exact absurd (hd' ▸ hd) (by decide)
    · rw [if_neg hd]
      obtain ⟨hStart, hRest⟩ := List.forall_mem_cons.1 hw
      refine ⟨_, rfl, ⟨[], rfl⟩, isWord_cons.2 ⟨isWordStart_iff.2 ⟨hStart, hd⟩, hRest⟩, ?_⟩
      rintro ⟨l, hl⟩
      obtain ⟨hFirst, hSecond⟩ := List.cons.inj hl
      exact hUnder l hFirst.symm hSecond.symm

/-- **Every mangled name has an identifier**: its spelling or what ends with that, a word that does
not begin with two underscores and is its own identifier. -/
theorem exists_identifier_of_mangled (hs : s ≠ "") (hm : s.toList.all isMangledChar = true) :
    ∃ t, identifier? s = some t ∧ spell s.toList <:+ t.toList ∧ isWord t.toList = true ∧
      word? t = some t ∧ ¬ ['_', '_'] <+: t.toList ∧ identifier? t = some t := by
  have hNonempty : s.toList ≠ [] := by simpa using hs
  obtain ⟨cs, hcs, hSpell, hWord, hUnder⟩ :=
    exists_isWord_of_spell (spell_ne_nil hNonempty) fun _ => isWordChar_of_mem_spell hm
  refine ⟨_, hcs, ?_, ?_, ?_, ?_, identifier?_of_isWord hWord hUnder⟩
  · rwa [String.toList_ofList]
  · rwa [String.toList_ofList]
  · simp [word?, hWord]
  · rwa [String.toList_ofList]

theorem exists_identifier_of_mangled_dollar : ∃ t, identifier? "__1.$" = some t ∧
    spell "__1.$".toList <:+ t.toList ∧ isWord t.toList = true ∧ word? t = some t ∧
      ¬ ['_', '_'] <+: t.toList ∧ identifier? t = some t :=
  exists_identifier_of_mangled (by decide) (by decide)

end PxdGen.Text
