import PxdGen.Proofs.Declarator.Rendering
/-! # Values that fit a type

The node of a type holds more than its text tells: whether it is volatile, the context of its name,
and which value stands for a constant or for arguments that are not given. `CType.Fits` leaves these
open. All values that fit a type are rendered alike, if they are rendered at all, and leave the page
as it is.
-/

namespace PxdGen.Pxd

open Rendering Value

def argumentsNode (args : List Value) (vararg kwarg : Value) : Value :=
  .node .arguments
    [("args", .list args), ("vararg", vararg), ("kwarg", kwarg), ("defaults", .list [])]

mutual

/-- The node of the type, up to what its text does not tell. -/
def CType.Fits : CType → Value → Prop
  | .named isConst base, v => ∃ ctx const volatile, const.isTrue = isConst ∧
      v = .node .typeName [("name", .node .name [("id", .text base.text), ("ctx", ctx)]),
        ("const", const), ("volatile", volatile)]
  | .pointer isConst t, v => ∃ w const volatile, t.Fits w ∧ const.isTrue = isConst ∧
      v = .node .pointer [("value", w), ("const", const), ("volatile", volatile)]
  | .array dim t, v => ∃ w, t.Fits w ∧ v = .node .array [("value", w), ("dim", .int dim)]
  | .function params isReference t, v => ∃ args vararg kwarg w, params.FitAll args ∧
      vararg.isTrue = false ∧ kwarg.isTrue = false ∧ t.Fits w ∧
      v = .node .cFunctionType [("args", argumentsNode args vararg kwarg),
        ("returns", referenced isReference w)]

def Params.FitAll : Params → List Value → Prop
  | .nil, vs => vs = []
  | .cons name isReference t rest, vs => ∃ w ws, t.Fits w ∧ rest.FitAll ws ∧
      vs = cNameValue (referenced isReference w) (nameText name) :: ws

end

variable {t : CType} {v w : Value}

namespace CType.Fits

theorem isNode (h : t.Fits v) : v.isTrue = true ∧ v.isNode .reference = false ∧
    v.isNode .cFunctionType = t.isFunction := by
  cases t with
  | named isConst base => obtain ⟨_, _, _, -, rfl⟩ := h; exact ⟨rfl, rfl, rfl⟩
  | pointer isConst t => obtain ⟨_, _, _, -, -, rfl⟩ := h; exact ⟨rfl, rfl, rfl⟩
  | array dim t => obtain ⟨_, -, rfl⟩ := h; exact ⟨rfl, rfl, rfl⟩
  | function params r t => obtain ⟨_, _, _, _, -, -, -, -, rfl⟩ := h; exact ⟨rfl, rfl, rfl⟩

theorem referenced_isTrue (h : t.Fits v) (r : Bool) : (referenced r v).isTrue = true := by
  cases r with
  | true => rfl
  | false => exact h.isNode.1

end CType.Fits

mutual

theorem CType.fits_value (t : CType) : t.Fits t.value := by
  cases t with
  | named isConst base => exact ⟨_, _, _, rfl, rfl⟩
  | pointer isConst t => exact ⟨_, _, _, t.fits_value, rfl, rfl⟩
  | array dim t => exact ⟨_, t.fits_value, rfl⟩
  | function params r t => exact ⟨_, _, _, _, params.fitAll_values, rfl, rfl, t.fits_value, rfl⟩

theorem Params.fitAll_values (ps : Params) : ps.FitAll ps.values := by
  cases ps with
  | nil => rfl
  | cons name r t rest => exact ⟨_, _, t.fits_value, rest.fitAll_values, rfl⟩

end

/-! ### Peeling -/

theorem CType.Fits.peelLevels {t : CType} {v : Value} (h : t.Fits v) {marks : List String}
    {base : Core v} (hp : peelLevels v = .ok (marks, base)) :
    marks = t.marks ∧ t.core.Fits base.1 := by
  cases t with
  | named isConst name =>
    obtain ⟨ctx, const, volatile, hc, rfl⟩ := h
    rw [peelLevels_of_kind (by simp [Value.kind?]) (by simp [Value.kind?])] at hp
    cases hp
    exact ⟨rfl, ctx, const, volatile, hc, rfl⟩
  | function params r t =>
    obtain ⟨args, vararg, kwarg, w, ha, hv, hk, hw, rfl⟩ := h
    rw [peelLevels_of_kind (by simp [Value.kind?]) (by simp [Value.kind?])] at hp
    cases hp
    exact ⟨rfl, args, vararg, kwarg, w, ha, hv, hk, hw, rfl⟩
  | pointer isConst t =>
    obtain ⟨w, const, volatile, hw, rfl, rfl⟩ := h
    obtain ⟨marks', base', hp', hb, rfl⟩ := of_peelLevels_pointer rfl rfl rfl hp
    obtain ⟨rfl, hCore⟩ := CType.Fits.peelLevels hw hp'
    rw [hb]
    exact ⟨rfl, hCore⟩
  | array dim t =>
    obtain ⟨w, hw, rfl⟩ := h
    obtain ⟨marks', base', hp', hb, rfl⟩ := of_peelLevels_array rfl rfl rfl hp
    obtain ⟨rfl, hCore⟩ := CType.Fits.peelLevels hw hp'
    rw [hb]
    exact ⟨rfl, hCore⟩

theorem CType.Fits.peel (h : t.Fits w) {r : Bool} {marks : List String}
    {base : Core (referenced r w)} (hp : peel (referenced r w) = .ok (marks, base)) :
    marks = parenthesize (referenceMarks r ++ t.marks) ∧ t.core.Fits base.1 := by
  cases r with
  | false =>
    have hr : (referenced false w).isNode .reference = false := h.isNode.2.1
    rw [Pxd.peel, hr, if_neg (by simp)] at hp
    cases hl : Pxd.peelLevels (referenced false w) with
    | error e => simp only [hl, reduceCtorEq] at hp
    | ok l =>
      simp only [hl, Except.ok.injEq, Prod.mk.injEq] at hp
      obtain ⟨hm, hb⟩ := h.peelLevels hl
      rw [← hp.1, ← hp.2, hm]
      exact ⟨rfl, hb⟩
  | true =>
    have hr : (referenced true w).isNode .reference = true := rfl
    have hw : w.depth < (referenced true w).depth := by
      simp only [referenced, if_true, Value.depth, Value.depthsOf]
      omega
    have hv : (referenced true w).field? "value" = some ⟨w, hw⟩ := rfl
    rw [Pxd.peel, hr, if_pos rfl] at hp
    simp only [hv] at hp
    cases hl : Pxd.peelLevels w with
    | error e => simp only [hl, reduceCtorEq] at hp
    | ok l =>
      simp only [hl, Except.ok.injEq, Prod.mk.injEq] at hp
      obtain ⟨hm, hb⟩ := h.peelLevels hl
      rw [← hp.1, ← hp.2, hm]
      exact ⟨rfl, hb⟩

theorem CType.Fits.gives_peelField (h : t.Fits w) (field : String) {r : Bool}
    (hw : (referenced r w).depth < v.depth)
    (hp : v.field? field = some ⟨referenced r w, hw⟩) {s s' : Sheet} {out : List String × Part v}
    (hGives : Gives (peelField v field) s out s') :
    s' = s ∧ out.1 = parenthesize (referenceMarks r ++ t.marks) ∧ t.core.Fits out.2.1 := by
  have hGives := gives_after (gives_need field hp s) hGives
  cases hl : Pxd.peel (referenced r w) with
  | error e =>
    simp only [hl] at hGives
    exact absurd hGives gives_throw
  | ok l =>
    simp only [hl] at hGives
    obtain ⟨rfl, rfl⟩ := gives_pure.1 hGives
    exact ⟨rfl, h.peel hl⟩

/-! ### Rendering -/

/-- Whenever the work ends, it has given this text and changed nothing. -/
def Only (x : Rendering Value) (text : List Char) : Prop :=
  ∀ s out s', s.pending = [] → Gives x s out s' → out = .text (String.ofList text) ∧ s' = s

theorem CType.Fits.declare_eq (h : t.core.Fits w) (type d : Value) :
    declare w type d = declare t.core.value type d := by
  simp only [declare, h.isNode.2.2, t.core.fits_value.isNode.2.2]

/-- The core of the type is rendered only as its text. -/
def CType.CoreOnly (t : CType) : Prop := ∀ w, t.core.Fits w → Only (render w) t.core.coreText

theorem coreOnly_named (isConst : Bool) (base : BaseName) :
    (CType.named isConst base).CoreOnly := by
  rintro w ⟨ctx, const, volatile, hc, rfl⟩ s out s' - h
  have hName : ∀ s, Gives (render (.node .name [("id", .text base.text), ("ctx", ctx)])) s
      (.text base.text) s := by
    intro s
    rw [render]
    exact Gives.bind (gives_need "id" rfl s) (by exact .pure _ s)
  rw [render] at h
  have h := gives_after (gives_need "const" rfl s) h
  obtain ⟨shown, _, hField, h⟩ := gives_bind.1 h
  have hShown := gives_after (gives_need "name" rfl s) hField
  obtain ⟨rfl, rfl⟩ := (hName s).unique hShown
  obtain ⟨name, _, hText, h⟩ := gives_bind.1 h
  obtain ⟨rfl, rfl⟩ := gives_pure.1 hText
  obtain ⟨hOut, hState⟩ := gives_pure.1 h
  refine ⟨hOut.trans ?_, hState⟩
  show Value.text (if const.isTrue then "const " ++ base.text else base.text) =
    .text (String.ofList (constText isConst ++ base.text.toList))
  rw [hc, Value.text.injEq]
  apply String.toList_inj.1
  cases isConst <;> simp [constText]

/-- A name that is declared with a fitting type is rendered only as its declaration, behind the
pending words. -/
theorem CType.CoreOnly.gives_cName (hc : t.CoreOnly) (hf : t.Fits w) (r : Bool) (name : String)
    {s s₁ s' : Sheet} {lead : String} {out : Value} (hLead : Gives popLead s lead s₁)
    (hs : s₁.pending = []) (h : Gives (render (cNameValue (referenced r w) name)) s out s') :
    out = .text (String.ofList (trimChars (lead.toList ++ declarationText name r t))) ∧
        s' = s₁ := by
  have hw : (referenced r w).depth < (cNameValue (referenced r w) name).depth := by
    simp only [cNameValue, Value.depth, Value.depthsOf]
    omega
  rw [render] at h
  have h := gives_after hLead h
  obtain ⟨⟨marks, base⟩, s₂, hPeel, h⟩ := gives_bind.1 h
  obtain ⟨hState, rfl, hBase⟩ := hf.gives_peelField "ctype" hw rfl hPeel
  rw [hState] at h
  have h := gives_after (gives_need "name" rfl s₁) h
  obtain ⟨type, s₃, hType, h⟩ := gives_bind.1 h
  obtain ⟨rfl, hState⟩ := hc _ hBase _ _ _ hs hType
  rw [hState] at h
  obtain ⟨text, _, hText, h⟩ := gives_bind.1 h
  have hName : ∀ marks, declarator marks (.text name) = .text (wrap marks name) := by
    intro marks
    cases marks <;> rfl
  simp only [hName] at hText
  rw [hBase.declare_eq] at hText
  obtain ⟨text', hText', hGives⟩ := gives_declare_wrap r t name s₁
  obtain ⟨rfl, rfl⟩ := hGives.unique hText
  obtain ⟨rfl, rfl⟩ := gives_pure.1 h
  refine ⟨?_, rfl⟩
  congr 1
  apply String.toList_inj.1
  rw [String.toList_ofList, toList_trim, String.toList_append, hText']
  rfl

/-- Each value is rendered only as the text across from it. -/
inductive OnlyAs : List Value → List String → Prop where
  | nil : OnlyAs [] []
  | cons {v : Value} {text : String} {vs : List Value} {texts : List String}
    (head : Only (render v) text.toList) (tail : OnlyAs vs texts) : OnlyAs (v :: vs) (text :: texts)

theorem OnlyAs.of_mapM {ps : List (Part v)} {texts : List String}
    (h : OnlyAs (ps.map (·.1)) texts) {s s' : Sheet} (hs : s.pending = []) {outs : List Value}
    (hGives : Gives ((ps.zip (List.replicate ps.length none)).mapM
      fun ((arg, default) : Part v × Option (Part v)) => do
        let a ← render arg.1
        match default with
        | none => pure a
        | some d => pure (.text (a.plain ++ "=" ++ (← render d.1).plain))) s outs s') :
    outs = texts.map .text ∧ s' = s := by
  induction ps generalizing texts outs with
  | nil =>
    cases h
    exact gives_mapM_nil.1 hGives
  | cons p ps ih =>
    rw [List.map_cons] at h
    cases h with
    | cons hp hr =>
      obtain ⟨out, t, outs', hHead, hTail, rfl⟩ := gives_mapM_cons.1 hGives
      have hHead : Gives (render p.1 >>= fun a => Pure.pure a) s out t := hHead
      obtain ⟨a, s₁, ha, hHead⟩ := gives_bind.1 hHead
      obtain ⟨rfl, rfl⟩ := gives_pure.1 hHead
      obtain ⟨rfl, rfl⟩ := hp _ _ _ hs ha
      obtain ⟨rfl, rfl⟩ := ih hr hTail
      simp

theorem OnlyAs.arguments {vs : List Value} {texts : List String} (h : OnlyAs vs texts)
    {vararg kwarg : Value} (hv : vararg.isTrue = false) (hk : kwarg.isTrue = false) :
    Only (render (argumentsNode vs vararg kwarg)) (", ".intercalate texts).toList := by
  intro s out s' hs hGives
  have hArgs : (Value.list vs).depth < (argumentsNode vs vararg kwarg).depth := by
    simp only [argumentsNode, Value.depth, Value.depthsOf]
    omega
  obtain ⟨ps, hps, hItems⟩ := gives_items hArgs s
  have hStarred : ∀ mark name {p : Part (argumentsNode vs vararg kwarg)},
      (argumentsNode vs vararg kwarg).field? name = some p → p.1.isTrue = false →
      Gives (renderStarred (argumentsNode vs vararg kwarg) (fun p => render p.1) mark name) s []
          s := by
    intro mark name p hp hFalse
    refine Gives.bind (gives_need name hp s) ?_
    rw [hFalse]
    exact .pure [] s
  rw [render] at hGives
  have h₁ := gives_after (gives_need "args" rfl s) hGives
  have h₂ := gives_after (gives_need "defaults" rfl s) h₁
  have h₃ := gives_after hItems h₂
  obtain ⟨given, _, hGiven, h₄⟩ := gives_bind.1 h₃
  obtain ⟨rfl, rfl⟩ := gives_pure.1 hGiven
  obtain ⟨shown, s₁, hShown, h₅⟩ := gives_bind.1 h₄
  have hFillers : List.replicate ps.length (none : Option (Part (argumentsNode vs vararg kwarg))) =
      List.replicate (ps.length - 0) none ++ [] := by simp
  have hAll : OnlyAs (ps.map (·.1)) texts := by rwa [hps]
  obtain ⟨rfl, rfl⟩ := hAll.of_mapM hs (by rw [hFillers]; exact hShown)
  have h₆ := gives_after (hStarred "*" "vararg" rfl hv) h₅
  have h₇ := gives_after (hStarred "**" "kwarg" rfl hk) h₆
  obtain ⟨text, _, hJoined, h₈⟩ := gives_bind.1 h₇
  rw [List.append_nil, List.append_nil] at hJoined
  obtain ⟨rfl, rfl⟩ := (gives_joined ", " texts _).unique hJoined
  obtain ⟨hOut, hState⟩ := gives_pure.1 h₈
  rw [String.ofList_toList]
  exact ⟨hOut, hState⟩

theorem coreOnly_function {ps : Params} (hps : ∀ vs, ps.FitAll vs → OnlyAs vs ps.texts) {t : CType}
    (hc : t.CoreOnly) (r : Bool) : (CType.function ps r t).CoreOnly := by
  rintro w ⟨args, vararg, kwarg, u, hArgs, hv, hk, hu, rfl⟩ s out s' hs h
  have hw : (referenced r u).depth < (Value.node .cFunctionType
      [("args", argumentsNode args vararg kwarg), ("returns", referenced r u)]).depth := by
    simp only [Value.depth, Value.depthsOf]
    omega
  rw [render] at h
  obtain ⟨_, _, hField, h₁⟩ := gives_bind.1 h
  have hShown := gives_after (gives_need "args" rfl s) hField
  obtain ⟨rfl, rfl⟩ := (hps args hArgs).arguments hv hk _ _ _ hs hShown
  obtain ⟨⟨marks, base⟩, _, hPeel, h₂⟩ := gives_bind.1 h₁
  obtain ⟨rfl, rfl, hBase⟩ := hu.gives_peelField "returns" hw rfl hPeel
  obtain ⟨_, _, hType, h₃⟩ := gives_bind.1 h₂
  obtain ⟨rfl, rfl⟩ := hc _ hBase _ _ _ hs hType
  obtain ⟨text, _, hText, h₄⟩ := gives_bind.1 h₃
  rw [hBase.declare_eq, String.ofList_toList, plain_text] at hText
  obtain ⟨text', hText', hGives⟩ := gives_declare_wrap r t
    ("(" ++ nameHole ++ ")(" ++ ", ".intercalate ps.texts ++ ")") _
  obtain ⟨rfl, rfl⟩ := hGives.unique hText
  obtain ⟨hOut, hState⟩ := gives_pure.1 h₄
  refine ⟨hOut.trans ?_, hState⟩
  rw [Value.text.injEq]
  apply String.toList_inj.1
  rw [hText', String.toList_ofList]
  simp only [String.toList_append, ps.text_eq]
  simp [CType.core, CType.coreText, CType.before, CType.after]

mutual

/-- **Whatever fits a type is rendered only as the text of the type.** -/
theorem CType.coreOnly (t : CType) : t.CoreOnly := by
  cases t with
  | named isConst base => exact coreOnly_named isConst base
  | pointer isConst t | array dim t => exact t.coreOnly
  | function ps r t => exact coreOnly_function ps.onlyAs t.coreOnly r

theorem Params.onlyAs (ps : Params) : ∀ vs, ps.FitAll vs → OnlyAs vs ps.texts := by
  cases ps with
  | nil =>
    rintro vs rfl
    exact .nil
  | cons name r t rest =>
    rintro vs ⟨w, ws, hw, hws, rfl⟩
    refine .cons ?_ (rest.onlyAs ws hws)
    intro s out s' hs h
    have hName := t.coreOnly.gives_cName hw r (nameText name) (gives_popLead hs) hs h
    simpa using hName

end

end PxdGen.Pxd
