import PxdGen.Proofs.Declarator.Spelling
import PxdGen.Proofs.Run
import PxdGen.Pxd.Statement
/-! # Rendering of C types

A type is rendered in two parts: its marks, which are peeled off and put around the name, and the
type under them, its core. The core is a named type, which stands before the name, or a function,
whose text has a hole for the name. Put together the two are `declarationText`.

Rendering a type writes nothing on the page and takes no pending words if there are none.
-/

namespace PxdGen.Pxd

open Rendering Value

variable {t : CType} {v : Value} {s : Sheet} {vs : List Value} {ps : Params} {p : Page}

/-! ### Marks -/

/-- The marks of the levels that are peeled off, without parentheses. -/
def CType.marks : CType → List String
  | .pointer isConst t => if isConst then "const" :: "*" :: t.marks else "*" :: t.marks
  | .array dim t => ("[" ++ Text.ofInt dim ++ "]") :: t.marks
  | _ => []

/-- The type under the marks. -/
def CType.core : CType → CType
  | .pointer _ t | .array _ t => t.core
  | t => t

def referenceMarks (isReference : Bool) : List String := if isReference then ["&"] else []

def CType.markBefore : CType → List Char
  | .pointer isConst t =>
    t.markBefore ++ ((if t.isArray then ['('] else []) ++ '*' :: constText isConst)
  | .array _ t => t.markBefore
  | _ => []

def CType.markAfter : CType → List Char
  | .pointer _ t => (if t.isArray then [')'] else []) ++ t.markAfter
  | .array dim t => ('[' :: (Text.ofInt dim).toList ++ [']']) ++ t.markAfter
  | _ => []

theorem CType.before_eq (t : CType) : t.before = t.core.before ++ t.markBefore := by
  cases t with
  | pointer isConst t =>
    rw [CType.before, t.before_eq, CType.markBefore, List.append_assoc]
    rfl
  | array dim t => exact t.before_eq
  | named isConst base | function params r t => simp [CType.core, CType.markBefore]

theorem CType.after_eq (t : CType) : t.after = t.markAfter ++ t.core.after := by
  cases t with
  | pointer isConst t | array dim t =>
    rw [CType.after, t.after_eq, CType.markAfter, ← List.append_assoc]
    rfl
  | named isConst base | function params r t => simp [CType.core, CType.markAfter]

theorem isArrayMark_dim (s : String) : isArrayMark ("[" ++ s ++ "]") = true := by
  simp [isArrayMark, String.front_eq, String.back_eq, String.front?_eq, String.back?_eq,
    List.getLast?_cons]

theorem dim_ne {s m : String} (h : m.toList.head? ≠ some '[') : "[" ++ s ++ "]" ≠ m := by
  rintro rfl
  simp at h

theorem parenthesize_dim (s : String) (ms : List String) :
    parenthesize (("[" ++ s ++ "]") :: ms) = ("[" ++ s ++ "]") :: parenthesize ms := by
  cases ms with
  | nil => rfl
  | cons m ms => simp [parenthesize, isArrayMark_dim]

theorem parenthesize_const (ms : List String) :
    parenthesize ("const" :: ms) = "const" :: parenthesize ms := by
  cases ms with
  | nil => rfl
  | cons m ms => simp [parenthesize]

/-- A pointer is kept apart from an array under it. -/
theorem parenthesize_star (t : CType) : parenthesize ("*" :: t.marks) =
    "*" :: ((if t.isArray then ["()"] else []) ++ parenthesize t.marks) := by
  have hStar : isArrayMark "*" = false := by decide
  cases t with
  | named isConst base | function params r t => rfl
  | pointer isConst t => cases isConst <;> simp [CType.marks, CType.isArray, parenthesize, hStar]
  | array dim t =>
    have h1 := dim_ne (s := Text.ofInt dim) (m := "const") (by decide)
    have h2 := dim_ne (s := Text.ofInt dim) (m := "*") (by decide)
    simp [CType.marks, CType.isArray, parenthesize, hStar, h1, h2.symm]

theorem parenthesize_amp (t : CType) : parenthesize ("&" :: t.marks) =
    "&" :: ((if t.isLoose then ["()"] else []) ++ parenthesize t.marks) := by
  have hAmp : isArrayMark "&" = false := by decide
  cases t with
  | named isConst base | function params r t => rfl
  | pointer isConst t => cases isConst <;> simp [CType.marks, CType.isLoose, parenthesize, hAmp]
  | array dim t =>
    have h1 := dim_ne (s := Text.ofInt dim) (m := "const") (by decide)
    have h2 := dim_ne (s := Text.ofInt dim) (m := "&") (by decide)
    simp [CType.marks, CType.isLoose, parenthesize, hAmp, h1, h2.symm]

/-! ### Putting marks around a name -/

theorem wrap_cons (m : String) (ms : List String) (name : String) :
    wrap (m :: ms) name = wrap ms (wrapMark name m) := rfl

theorem wrap_append (ms ns : List String) (name : String) :
    wrap (ms ++ ns) name = wrap ns (wrap ms name) := List.foldl_append

theorem wrapMark_dim (name s : String) :
    wrapMark name ("[" ++ s ++ "]") = name ++ ("[" ++ s ++ "]") := by
  have h1 := dim_ne (s := s) (m := "*") (by decide)
  have h2 := dim_ne (s := s) (m := "&") (by decide)
  have h3 := dim_ne (s := s) (m := "()") (by decide)
  have h4 := dim_ne (s := s) (m := "const") (by decide)
  simp [wrapMark, h1, h2, h3, h4]

theorem wrap_parens (b : Bool) (name : String) :
    (wrap (if b then ["()"] else []) name).toList =
      (if b then ['('] else []) ++ name.toList ++ (if b then [')'] else []) := by
  cases b <;> simp [wrap, wrapMark]

theorem toList_wrap_marks (t : CType) (name : String) :
    (wrap (parenthesize t.marks) name).toList = t.markBefore ++ name.toList ++ t.markAfter := by
  cases t with
  | named isConst base => simp [CType.marks, parenthesize, wrap, CType.markBefore, CType.markAfter]
  | function params r t =>
    simp [CType.marks, parenthesize, wrap, CType.markBefore, CType.markAfter]
  | array dim t =>
    rw [CType.marks, parenthesize_dim, wrap_cons, toList_wrap_marks t, wrapMark_dim]
    simp [CType.markBefore, CType.markAfter]
  | pointer isConst t =>
    have hStar : ∀ name : String, (wrap (parenthesize ("*" :: t.marks)) name).toList =
          (CType.pointer false t).markBefore ++ name.toList ++
          (CType.pointer false t).markAfter := by
      intro name
      rw [parenthesize_star, wrap_cons, wrap_append, toList_wrap_marks t, wrap_parens]
      simp [wrapMark, CType.markBefore, CType.markAfter, constText]
    cases isConst with
    | false => exact hStar name
    | true =>
      rw [CType.marks, if_pos rfl, parenthesize_const, wrap_cons, hStar]
      simp [wrapMark, CType.markBefore, CType.markAfter, constText]

theorem toList_wrap (r : Bool) (t : CType) (name : String) :
    (wrap (parenthesize (referenceMarks r ++ t.marks)) name).toList =
      t.markBefore ++ (referenceBefore r t ++ name.toList ++ referenceAfter r t) ++
      t.markAfter := by
  cases r with
  | false => simpa [referenceMarks, referenceBefore, referenceAfter] using toList_wrap_marks t name
  | true =>
    show (wrap (parenthesize ("&" :: t.marks)) name).toList = _
    rw [parenthesize_amp, wrap_cons, wrap_append, toList_wrap_marks t, wrap_parens]
    cases h : t.isLoose <;> simp [wrapMark, referenceBefore, referenceAfter, h]

/-! ### Peeling -/

theorem peelLevels_value {t : CType} (ht : t.isWritable = true) :
    ∃ h, peelLevels t.value = .ok (t.marks, ⟨t.core.value, h⟩) := by
  cases t with
  | named isConst base | function params r t =>
    exact ⟨Nat.le_refl _, peelLevels_of_kind nofun nofun⟩
  | pointer isConst t =>
    obtain ⟨h, ih⟩ := peelLevels_value (t := t) ht
    exact peelLevels_pointer (v := (CType.pointer isConst t).value) rfl rfl rfl ih
  | array dim t =>
    simp only [CType.isWritable, Bool.and_eq_true] at ht
    obtain ⟨h, ih⟩ := peelLevels_value (t := t) ht.2
    exact peelLevels_array (v := (CType.array dim t).value) rfl rfl rfl ht.1 ih

theorem peel_referenced (ht : t.isWritable = true) (r : Bool) : ∃ h, peel (referenced r t.value) =
      .ok (parenthesize (referenceMarks r ++ t.marks), ⟨t.core.value, h⟩) := by
  obtain ⟨h, hp⟩ := peelLevels_value ht
  cases r with
  | false =>
    have hr : t.value.isNode .reference = false := by cases t <;> rfl
    exact ⟨h, by simp [peel, referenced, hr, hp, referenceMarks]⟩
  | true =>
    refine ⟨?_, ?_⟩
    · simp only [referenced, if_true, Value.depth, Value.depthsOf]
      omega
    · simp [peel, referenced, Value.isNode, Value.kind?, Value.field?, Value.lookupPart?, hp,
        referenceMarks]

/-! ### Filling the hole -/

theorem fill_of_not_mem (h : Char) (hs d cs : List Char) (hc : h ∉ cs) :
    fill (h :: hs) d cs = cs := by
  induction cs with
  | nil => rw [fill]
  | cons c cs ih =>
    have hne : (h == c) = false := by
      simp only [List.mem_cons, not_or] at hc
      simpa using hc.1
    rw [fill, List.isPrefixOf_cons_cons, hne, Bool.false_and, if_neg (by simp), ih]
    exact fun hm => hc (by simp [hm])

theorem fill_hole (h : Char) (hs d a b : List Char) (ha : h ∉ a) (hb : h ∉ b) :
    fill (h :: hs) d (a ++ (h :: hs) ++ b) = a ++ d ++ b := by
  induction a with
  | nil =>
    have hp : (h :: hs).isPrefixOf (h :: (hs ++ b)) = true :=
      List.isPrefixOf_iff_prefix.2 ⟨b, rfl⟩
    have hd : (hs ++ b).drop ((h :: hs).length - 1) = b := by simp
    show fill (h :: hs) d (h :: (hs ++ b)) = d ++ b
    rw [fill, if_pos hp, hd, fill_of_not_mem h hs d b hb]
  | cons c a ih =>
    have hne : (h == c) = false := by
      simp only [List.mem_cons, not_or] at ha
      simpa using ha.1
    have hr := ih fun hm => ha (by simp [hm])
    show fill (h :: hs) d (c :: (a ++ (h :: hs) ++ b)) = c :: (a ++ d ++ b)
    rw [fill, List.isPrefixOf_cons_cons, hne, Bool.false_and, if_neg (by simp), hr]

theorem toList_fillName {pattern : String} {a b : List Char} (d : String)
    (h : pattern.toList = a ++ nameHole.toList ++ b) (ha : IsTypeText a) (hb : IsTypeText b) :
    (fillName pattern d).toList = a ++ d.toList ++ b := by
  have hn : ∀ cs : List Char, IsTypeText cs → '\x7b' ∉ cs := fun cs hcs hm =>
    ne_brace_of_isTypeChar (hcs _ hm) rfl
  rw [fillName, String.toList_ofList, h]
  exact fill_hole '\x7b' "__name__\x7d".toList d.toList a b (hn a ha) (hn b hb)

/-! ### Rendering -/

theorem plain_text (s : String) : (Value.text s).plain = s := rfl

theorem gives_need (name : String) {p : Part v} (h : v.field? name = some p)
    (s : Sheet) : Gives (need v name) s p s := by
  rw [need, h]
  exact .pure p s

theorem gives_popLead (h : s.pending = []) : Gives popLead s "" s := by
  have hNone : Gives popPending s none s := by
    refine Gives.get ?_
    rw [h]
    exact .pure none s
  exact Gives.bind hNone (.pure _ _)

/-- What a type is rendered as without a name: the name of a named type, and a function with a
hole. -/
def CType.coreText : CType → List Char
  | .named isConst base => constText isConst ++ base.text.toList
  | .function params r t =>
    (CType.function params r t).before ++ nameHole.toList ++ (CType.function params r t).after
  | _ => []

/-- The core of a type is rendered, and nothing else happens. -/
def CType.RendersCore (t : CType) : Prop :=
  ∀ s : Sheet, s.pending = [] →
    Gives (render t.core.value) s (.text (String.ofList t.core.coreText)) s

theorem CType.core_cases (t : CType) :
    (∃ isConst base, t.core = .named isConst base) ∨ ∃ ps r u, t.core = .function ps r u := by
  cases t with
  | pointer isConst t | array dim t => exact t.core_cases
  | named isConst base => exact .inl ⟨isConst, base, rfl⟩
  | function ps r u => exact .inr ⟨ps, r, u, rfl⟩

theorem gives_declare_core (t : CType) (d : String) (s : Sheet) :
    ∃ text : String, text.toList = t.core.before ++ d.toList ++ t.core.after ∧
      Gives (declare t.core.value (.text (String.ofList t.core.coreText)) (.text d)) s text s := by
  rcases t.core_cases with ⟨isConst, base, h⟩ | ⟨ps, r, u, h⟩
  · rw [h]
    refine ⟨_, ?_, .pure _ s⟩
    simp [Value.plain, Value.display, CType.coreText, CType.before, CType.after]
  · rw [h]
    refine ⟨_, ?_, Gives.bind (.pure _ s) (Gives.bind (.pure _ s) (.pure _ s))⟩
    refine toList_fillName d (String.toList_ofList) ?_ ?_
    · exact CType.isTypeText_before _
    · exact CType.isTypeText_after _

theorem gives_declare_wrap (r : Bool) (t : CType) (d : String) (s : Sheet) :
    ∃ text : String, text.toList = t.before ++ (referenceBefore r t ++ d.toList ++
        referenceAfter r t) ++ t.after ∧
      Gives (declare t.core.value (.text (String.ofList t.core.coreText))
        (.text (wrap (parenthesize (referenceMarks r ++ t.marks)) d))) s text s := by
  obtain ⟨text, hText, h⟩ :=
    gives_declare_core t (wrap (parenthesize (referenceMarks r ++ t.marks)) d) s
  refine ⟨text, ?_, h⟩
  rw [hText, toList_wrap, t.before_eq, t.after_eq]
  simp only [List.append_assoc]

theorem gives_peelField (field : String) {r : Bool} (hw : (referenced r t.value).depth < v.depth)
    (hp : v.field? field = some ⟨referenced r t.value, hw⟩) (ht : t.isWritable = true) (s : Sheet) :
    ∃ h, Gives (peelField v field) s
      (parenthesize (referenceMarks r ++ t.marks), ⟨t.core.value, h⟩) s := by
  obtain ⟨h, hPeel⟩ := peel_referenced ht r
  refine ⟨Nat.lt_of_le_of_lt h hw, Gives.bind (gives_need field hp s) ?_⟩
  simp only [hPeel]
  exact .pure _ s

theorem gives_render_cName (ht : t.isWritable = true) (hc : t.RendersCore) (r : Bool)
    (name : String) (hs : s.pending = []) :
      Gives (render (cNameValue (referenced r t.value) name)) s
      (.text (String.ofList (trimChars (declarationText name r t)))) s := by
  have hw : (referenced r t.value).depth < (cNameValue (referenced r t.value) name).depth := by
    simp only [cNameValue, Value.depth, Value.depthsOf]
    omega
  obtain ⟨h, hPeel⟩ := gives_peelField "ctype" hw rfl ht s
  obtain ⟨text, hText, hDeclare⟩ := gives_declare_wrap r t name s
  have hName : ∀ marks, declarator marks (.text name) = .text (wrap marks name) := by
    intro marks
    cases marks <;> rfl
  have hTrim : String.ofList (trimChars (declarationText name r t)) = Text.trim ("" ++ text) := by
    apply String.toList_inj.1
    rw [String.toList_ofList, toList_trim, String.toList_append, hText]
    rfl
  rw [render, hTrim]
  refine Gives.bind (gives_popLead hs) (Gives.bind hPeel ?_)
  refine Gives.bind (gives_need "name" rfl s) (Gives.bind (hc s hs) ?_)
  simp only [hName]
  exact Gives.bind hDeclare (.pure _ s)

/-! ### Arguments -/

def Params.texts : Params → List String
  | .nil => []
  | .cons name r t rest =>
    String.ofList (trimChars (declarationText (nameText name) r t)) :: rest.texts

theorem Params.text_eq (ps : Params) : (", ".intercalate ps.texts).toList = ps.text := by
  cases ps with
  | nil => rfl
  | cons name r t rest =>
    rw [Params.text_cons, Params.texts]
    cases rest with
    | nil => simp [Params.texts]
    | cons name' r' t' rest' =>
      rw [← Params.text_eq, Params.texts, String.intercalate_cons_cons]
      simp

theorem gives_joined (separator : String) (texts : List String) (s : Sheet) :
    Gives (joined separator (texts.map .text)) s (separator.intercalate texts) s := by
  have h : Gives ((texts.map Value.text).mapM textOf) s texts s := by
    induction texts with
    | nil => exact gives_mapM_nil.2 ⟨rfl, rfl⟩
    | cons t texts ih => exact gives_mapM_cons.2 ⟨t, s, texts, .pure t s, ih, rfl⟩
  exact Gives.bind h (.pure _ s)

/-- Each value is rendered as the text across from it, and nothing else happens. -/
inductive RenderAs : List Value → List String → Prop where
  | nil : RenderAs [] []
  | cons {v : Value} {text : String} {vs : List Value} {texts : List String}
    (head : ∀ s : Sheet, s.pending = [] → Gives (render v) s (.text text) s)
    (tail : RenderAs vs texts) : RenderAs (v :: vs) (text :: texts)

theorem gives_items (h : (Value.list vs).depth < v.depth) (s : Sheet) :
    ∃ ps : List (Part v), ps.map (·.1) = vs ∧ Gives (items ⟨.list vs, h⟩) s ps s := by
  refine ⟨_, ?_, .pure _ s⟩
  rw [List.map_map]
  exact List.attach_map_subtype_val vs

theorem gives_mapM_render {ps : List (Part v)} {texts : List String}
    (h : RenderAs (ps.map (·.1)) texts) (hs : s.pending = []) :
    Gives ((ps.zip (List.replicate ps.length none)).mapM
      fun ((arg, default) : Part v × Option (Part v)) => do
        let a ← render arg.1
        match default with
        | none => pure a
        | some d => pure (.text (a.plain ++ "=" ++ (← render d.1).plain))) s
      (texts.map .text) s := by
  induction ps generalizing texts with
  | nil =>
    cases h
    exact gives_mapM_nil.2 ⟨rfl, rfl⟩
  | cons p ps ih =>
    rw [List.map_cons] at h
    cases h with
    | cons hp hr =>
      exact gives_mapM_cons.2 ⟨_, s, _, Gives.bind (hp s hs) (.pure _ s), ih hr, rfl⟩

theorem gives_render_arguments {texts : List String} (h : RenderAs vs texts) (hs : s.pending = []) :
    Gives (render (argumentsValue vs)) s (.text (", ".intercalate texts)) s := by
  have hArgs : (Value.list vs).depth < (argumentsValue vs).depth := by
    simp only [argumentsValue, Value.depth, Value.depthsOf]
    omega
  obtain ⟨ps, hps, hItems⟩ := gives_items hArgs s
  have hAll : RenderAs (ps.map (·.1)) texts := by rwa [hps]
  have hShown := gives_mapM_render hAll hs
  have hFillers : List.replicate ps.length (none : Option (Part (argumentsValue vs))) =
      List.replicate (ps.length - 0) none ++ [] := by simp
  rw [hFillers] at hShown
  rw [render]
  refine Gives.bind (gives_need "args" rfl s) (Gives.bind (gives_need "defaults" rfl s) ?_)
  refine Gives.bind hItems (Gives.bind (.pure [] s) (Gives.bind hShown ?_))
  -- neither extra arguments nor named ones are given
  refine Gives.bind (Gives.bind (gives_need "vararg" rfl s) (by exact .pure [] s)) ?_
  refine Gives.bind (Gives.bind (gives_need "kwarg" rfl s) (by exact .pure [] s)) ?_
  rw [List.append_nil, List.append_nil]
  exact Gives.bind (gives_joined _ _ s) (.pure _ s)

/-! ### Types -/

theorem gives_render_named (isConst : Bool) (base : BaseName) :
    (CType.named isConst base).RendersCore := by
  intro s _
  have hName : Gives (render (.node .name [("id", .text base.text), ("ctx", single .param)])) s
      (.text base.text) s := by
    rw [render]
    exact Gives.bind (gives_need "id" rfl s) (by exact .pure _ s)
  have hText : String.ofList (CType.named isConst base).core.coreText =
      if (Value.flag isConst).isTrue then "const " ++ base.text else base.text := by
    apply String.toList_inj.1
    cases isConst <;> simp [CType.core, CType.coreText, constText, Value.isTrue]
  have hCore : (CType.named isConst base).core = .named isConst base := rfl
  rw [hText, hCore, CType.value, render]
  refine Gives.bind (gives_need "const" rfl s) ?_
  refine Gives.bind (Gives.bind (gives_need "name" rfl s) (by exact hName)) ?_
  exact Gives.bind (.pure _ s) (.pure _ s)

theorem gives_render_function (hps : RenderAs ps.values ps.texts)
    (ht : t.isWritable = true) (hc : t.RendersCore) (r : Bool) :
    (CType.function ps r t).RendersCore := by
  intro s hs
  have hw : (referenced r t.value).depth < (Value.node .cFunctionType
      [("args", argumentsValue ps.values), ("returns", referenced r t.value)]).depth := by
    simp only [Value.depth, Value.depthsOf]
    omega
  obtain ⟨h, hPeel⟩ := gives_peelField "returns" hw rfl ht s
  obtain ⟨text, hText, hDeclare⟩ := gives_declare_wrap r t
    ("(" ++ nameHole ++ ")(" ++ ", ".intercalate ps.texts ++ ")") s
  have hCore : (CType.function ps r t).core = .function ps r t := rfl
  have hResult : String.ofList (CType.function ps r t).coreText = text := by
    apply String.toList_inj.1
    rw [hText, String.toList_ofList]
    simp only [String.toList_append, ps.text_eq]
    simp [CType.coreText, CType.before, CType.after]
  rw [hCore, hResult, CType.value, render]
  refine Gives.bind (Gives.bind (gives_need "args" rfl s)
    (by exact gives_render_arguments hps hs)) (Gives.bind hPeel (Gives.bind (hc s hs) ?_))
  rw [plain_text]
  exact Gives.bind hDeclare (.pure _ s)

mutual

/-- **Every type that can be written is rendered.** -/
theorem CType.rendersCore (t : CType) (ht : t.isWritable = true) : t.RendersCore := by
  cases t with
  | named isConst base => exact gives_render_named isConst base
  | pointer isConst t => exact t.rendersCore ht
  | array dim t =>
    simp only [CType.isWritable, Bool.and_eq_true] at ht
    exact t.rendersCore ht.2
  | function ps r t =>
    simp only [CType.isWritable, Bool.and_eq_true] at ht
    exact gives_render_function (ps.renderAs ht.1) ht.2 (t.rendersCore ht.2) r

theorem Params.renderAs (ps : Params) (hps : ps.areWritable = true) :
    RenderAs ps.values ps.texts := by
  cases ps with
  | nil => exact .nil
  | cons name r t rest =>
    simp only [Params.areWritable, Bool.and_eq_true] at hps
    refine .cons ?_ (rest.renderAs hps.2)
    exact fun s hs => gives_render_cName hps.1 (t.rendersCore hps.1) r (nameText name) hs

end

/-! ### Prototypes -/

theorem linesFrom_of_not_isBreak {cs : List Char} (h : ∀ c ∈ cs, Text.isBreak c = false)
    (line : List Char) (hne : cs ≠ [] ∨ line ≠ []) :
    Text.linesFrom cs line = [String.ofList (line.reverse ++ cs)] := by
  induction cs generalizing line with
  | nil =>
    cases line with
    | nil => simp at hne
    | cons c line => simp [Text.linesFrom]
  | cons c cs ih =>
    have hc := h c (by simp)
    have hr : c ≠ '\r' := by
      rintro rfl
      exact absurd hc (by decide)
    rw [Text.linesFrom.eq_4 _ _ _ (fun rest hcr _ => hr hcr), hc,
      if_neg (by simp), ih (fun d hd => h d (by simp [hd])) _ (by simp)]
    simp

theorem lines_of_not_isBreak {s : String} (h : ∀ c ∈ s.toList, Text.isBreak c = false)
    (hne : s.toList ≠ []) : Text.lines s = [s] := by
  rw [Text.lines, linesFrom_of_not_isBreak h [] (.inl hne)]
  simp

/-- The page behind a statement of one line that is followed by an empty one. -/
def Page.writeStatement (p : Page) (text : String) : Page :=
  p.write (margin p.level ++ text ++ "\n\n")

theorem Page.newline_writeLines {s : String}
    (h : ∀ c ∈ s.toList, Text.isBreak c = false) (hne : s.toList ≠ []) :
    (p.writeLines s).newline 2 = p.writeStatement s := by
  have h2 : Text.copies "\n" 2 = "\n\n" := by decide
  simp [Page.writeLines, Page.writeStatement, Page.newline, Page.write, lines_of_not_isBreak h hne,
    h2, String.append_assoc]

/-- A function is declared by a statement of one line. -/
theorem gives_visit_prototype (f : Identifier) (hps : ps.areWritable = true)
    (r : Bool) (ht : t.isWritable = true) (hs : s.pending = [])
    (hp : s.page = some p) (hm : p.marginFault? = none) :
    Gives (visit (prototypeValue f.1 (argumentsValue ps.values) (referenced r t.value))) s ()
      { s with page := some (p.writeStatement (String.ofList (prototypeText f.1 ps r t))) } := by
  have hw : (referenced r t.value).depth <
      (prototypeValue f.1 (argumentsValue ps.values) (referenced r t.value)).depth := by
    simp only [prototypeValue, Value.depth, Value.depthsOf]
    omega
  obtain ⟨h, hPeel⟩ := gives_peelField "returns" hw rfl ht s
  obtain ⟨text, hText, hDeclare⟩ := gives_declare_wrap r t
    (f.1 ++ "(" ++ ", ".intercalate ps.texts ++ ")") s
  have hEq : text.toList = prototypeText f.1 ps r t := by
    rw [hText]
    simp only [String.toList_append, ps.text_eq, prototypeText]
    simp
  have hChars : ∀ c ∈ text.toList, Text.isBreak c = false := by
    rw [hEq]
    exact fun c hc => not_isBreak_of_isTypeChar (isTypeText_prototypeText f ps r t c hc)
  have hne : text.toList ≠ [] := by
    rw [hEq]
    simp [prototypeText]
  have hCall : Gives (functionText (prototypeValue f.1 (argumentsValue ps.values)
      (referenced r t.value)) f.1 (", ".intercalate ps.texts)) s text s := by
    refine Gives.bind (gives_need "returns" rfl s) ?_
    rw [if_pos (referenced_isTrue r t)]
    exact Gives.bind hPeel (Gives.bind (t.rendersCore ht s hs) hDeclare)
  have hPut : Gives (put text) s () { s with page := some (p.writeLines text) } := by
    refine Gives.get ?_
    simp only [hp, Option.bind_some, hm]
    refine Gives.get ?_
    simp only [hp]
    exact gives_modify.2 rfl
  rw [← hEq, String.ofList_toList, ← Page.newline_writeLines hChars hne, visit]
  refine Gives.bind (gives_popLead hs) (Gives.bind (gives_need "name" rfl s) ?_)
  refine Gives.bind (Gives.bind (gives_need "args" rfl s)
    (by exact gives_render_arguments (ps.renderAs hps) hs)) ?_
  refine Gives.bind (by exact hCall) (Gives.bind (gives_need "excepts" rfl s) ?_)
  refine Gives.bind (a := text) (by exact .pure text s) ?_
  simp only [String.empty_append]
  refine Gives.bind hPut (Gives.get ?_)
  exact gives_modify.2 rfl

end PxdGen.Pxd
