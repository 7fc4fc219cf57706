import PxdGen.Proofs.Declarator.Rendering
/-! # Declarations are read as what was declared

The text of a declaration, read by the rules of C, gives back the name and the type, whatever the
nesting of pointers, arrays and functions. The same holds for the statement that declares a
function.

The only bound is on the sizes of arrays: integers of more than `Text.maxDigits` digits are not
written at all.
-/

namespace PxdGen.Pxd

open Rendering

theorem readText_of_tokens {text : String} {ts : List Token} {d : Declaration}
    (ht : tokens text.toList = ts)
    (h : readDeclaration (3 * ts.length + 1) ts = some (d, [])) : readText text = some d := by
  simp only [readText, ht, h]

theorem readText_declarationText (x : Identifier) (r : Bool) {t : CType} (ht : t.isSpoken = true) :
    readText (String.ofList (trimChars (declarationText x.1 r t))) = some ⟨some x, r, t⟩ := by
  have hTokens : tokens (String.ofList (trimChars (declarationText x.1 r t))).toList =
      declarationTokens (some x) r t := by
    rw [String.toList_ofList, tokens_trimChars]
    exact tokens_declarationText (some x) r t
  refine readText_of_tokens hTokens ?_
  have h := t.reads.declaration (some x) r [] rfl
  rw [t.heard_of_isSpoken ht, show isMute (some x) r t = false from rfl] at h
  simpa using h _ (Nat.le_refl _)

theorem readText_prototypeText (f : Identifier) {ps : Params} (hps : ps.areSpoken = true) (r : Bool)
    {t : CType} (ht : t.isSpoken = true) :
    readText (String.ofList (prototypeText f.1 ps r t)) =
        some ⟨some f, false, .function ps r t⟩ := by
  have hTokens : tokens (String.ofList (prototypeText f.1 ps r t)).toList = prototypeTokens f ps r
      t := by
    rw [String.toList_ofList]
    exact tokens_prototypeText f ps r t
  refine readText_of_tokens hTokens ?_
  have h := readDeclaration_prototypeTokens f ps r t [] rfl
  rw [ps.heard_of_areSpoken hps, t.heard_of_isSpoken ht] at h
  simpa using h _ (Nat.le_refl _)

/-- **Declarations are read as what was declared.** A name of a type can be built and rendered
where no words are pending, and its text is read as that name with that type. A function can be
built and written at any level of a page, and its line is read as that function. -/
theorem readText_rendered (r : Bool) (t : CType) (ht : t.isSpoken = true)
    (hw : t.isWritable = true) (s : Sheet) (hs : s.pending = []) :
    (∀ x : Identifier, ∃ v text, buildDeclaration r t x = .ok v ∧
      Gives (render v) s (.text text) s ∧ readText text = some ⟨some x, r, t⟩) ∧
    ∀ (f : Identifier) (ps : Params) (p : Page), ps.areSpoken = true → ps.areWritable = true →
      s.page = some p → p.marginFault? = none →
      ∃ v text, buildPrototype f ps r t = .ok v ∧
        Gives (visit v) s () { s with page := some (p.writeStatement text) } ∧
        readText text = some ⟨some f, false, .function ps r t⟩ := by
  constructor
  · intro x
    refine ⟨_, _, buildDeclaration_eq r t x, ?_, readText_declarationText x r ht⟩
    exact gives_render_cName hw (t.rendersCore hw) r x.1 hs
  · intro f ps p hps hpw hp hm
    refine ⟨_, _, buildPrototype_eq f ps r t, ?_, readText_prototypeText f hps r ht⟩
    exact gives_visit_prototype f hpw r hw hs hp hm

/-- Four constant pointers to functions that take a pointer by reference and an array without a
name. -/
def callbacks : CType :=
  let word : CType := .named true (.phrase ⟨"unsigned", by decide⟩ [⟨"long", by decide⟩])
  .array 4 (.pointer true (.function
    (.cons (some ⟨"p", by decide⟩) true (.pointer false word)
      (.cons none false (.array (-1) (.pointer false word)) .nil)) false (.pointer false word)))

theorem readText_rendered_callbacks :
    callbacks.isSpoken = true ∧ callbacks.isWritable = true ∧
    (∃ v text, buildDeclaration true callbacks ⟨"table", by decide⟩ = .ok v ∧
      Gives (render v) { page := some {} } (.text text) { page := some {} } ∧
      readText text = some ⟨some ⟨"table", by decide⟩, true, callbacks⟩) ∧
    ∃ v text, buildPrototype ⟨"find", by decide⟩ (.cons none true callbacks .nil) true callbacks =
      .ok v ∧ Gives (visit v) { page := some {} } () { page := some (Page.writeStatement {} text)
      } ∧
      readText text = some
        ⟨some ⟨"find", by decide⟩, false, .function (.cons none true callbacks .nil) true
        callbacks⟩ := by
  have hs : callbacks.isSpoken = true := by decide
  have hw : callbacks.isWritable = true := by decide +kernel
  have h := readText_rendered true callbacks hs hw { page := some {} } rfl
  refine ⟨hs, hw, h.1 _, h.2 _ _ {} ?_ ?_ rfl rfl⟩
  · decide
  · decide +kernel

/-! ### Sizes that are too long -/

theorem not_isWritable_pow : Text.isWritable (.ofNat (Nat.pow 10 Text.maxDigits)) = false := by
  rw [Text.isWritable, Int.natAbs, decide_eq_false_iff_not,
    Nat.length_toDigits_le_iff (by omega) (by decide)]
  exact Nat.lt_irrefl _

theorem peel_array_of_not_isWritable {dim : Int} (h : Text.isWritable dim = false) (t : CType) :
    peel (CType.array dim t).value = .error .malformed := by
  have hl : peelLevels (CType.array dim t).value = .error .malformed :=
    peelLevels_array_of_not_isWritable rfl rfl rfl h
  have hr : (CType.array dim t).value.isNode .reference = false := rfl
  simp only [peel, hr, hl, Bool.false_eq_true, if_false]

theorem not_gives_render_cName {w : Value} {e : Fault} (h : peel w = .error e) (name : String)
    (s : Sheet) (out : Value) (s' : Sheet) : ¬ Gives (render (cNameValue w name)) s out s' := by
  have hw : w.depth < (cNameValue w name).depth := by
    simp only [cNameValue, Value.depth, Value.depthsOf]
    omega
  intro hr
  rw [render] at hr
  obtain ⟨lead, s₁, -, hr⟩ := gives_bind.1 hr
  obtain ⟨_, s₂, hPeel, -⟩ := gives_bind.1 hr
  obtain ⟨p, s₃, hp, hFault⟩ := gives_bind.1 hPeel
  obtain ⟨rfl, rfl⟩ := hp.unique (gives_need (p := ⟨w, hw⟩) "ctype" rfl s₁)
  simp only [h] at hFault
  exact gives_throw hFault

/-- An array with a size that has one more digit than can be written. -/
def longArray : CType :=
  .array (.ofNat (Nat.pow 10 Text.maxDigits)) (.named false (.phrase ⟨"int", by decide⟩ []))

/-- **Not every declaration has a text.** -/
theorem not_gives_render_longArray :
    longArray.isSpoken = true ∧ ∃ v, buildDeclaration false longArray ⟨"x", by decide⟩ = .ok v ∧
      ∀ out s, ¬ Gives (render v) {} out s := by
  refine ⟨by decide, _, buildDeclaration_eq false longArray _, ?_⟩
  exact not_gives_render_cName (peel_array_of_not_isWritable not_isWritable_pow _) "x" {}

end PxdGen.Pxd
