import PxdGen.Proofs.Declarator.RoundTrip
import PxdGen.Proofs.Render.Statement
/-! # Rendering made modules

The checks that nodes are made with are what rendering needs, with few exceptions. Two statements
stop it wherever they stand. Apart from them a made module is rendered, unless a number in it is too
long to be written, an import has too many dots, or its blocks are nested too deep for a margin.
-/

namespace PxdGen.Pxd

open Rendering Value

variable {v w statement : Value} {kind : Kind} {fields : List (String × Value)}

theorem gives_visit_of_renderModule (hv : v.isNode .moduleNode = true) {s s' : Sheet}
    {text : String} (h : Gives (renderModule v) s text s') : ∃ t t', Gives (visit v) t () t' := by
  unfold renderModule at h
  rw [if_pos hv] at h
  obtain ⟨_, _, -, h⟩ := gives_bind.1 h
  obtain ⟨_, _, hVisit, -⟩ := gives_bind.1 h
  exact ⟨_, _, hVisit⟩

theorem fails_renderModule (hv : v.isNode .moduleNode = true)
    (hw : Within v w) (hb : Breaks w) (s : Sheet) : Fails (renderModule v) s := by
  refine fails_iff.2 fun text s' hGives => ?_
  obtain ⟨_, _, hVisit⟩ := gives_visit_of_renderModule hv hGives
  obtain ⟨t, t', hGives⟩ := hw.reaches _ _ _ hVisit
  exact hb.not_gives_visit hGives

/-- A made module is rendered if its statements have room and none of them stops the work. -/
theorem Made.gives_renderModule_of_nests (h : Made v) (hv : v.isNode .moduleNode = true)
    (hm : isModest v = true) {n : Nat} (hn : n < 0x2000000000000000) (hNests : Nests n v)
    (s : Sheet) :
    ∃ text s', Gives (renderModule v) s text s' := by
  have hRoom : Page.empty.Room n := ⟨rfl, Int.le_refl 0, by simp [Page.empty]; omega⟩
  obtain ⟨u, s', p', hVisit, -, hPage, -⟩ := h.writes_of_nests hm hNests
    { s with page := some .empty, pending := [] } .empty rfl hRoom
  refine ⟨p'.text, s', ?_⟩
  unfold renderModule
  rw [if_pos hv]
  refine Gives.bind (a := ()) (gives_modify.2 rfl) (hVisit.bind ?_)
  refine Gives.get ?_
  rw [hPage]
  exact .pure _ s'

/-- **A made module is rendered unless something in it stops the work**: rendering it fails exactly
if a definition of a C function or a `raise` with a traceback stands in it, and otherwise gives its
text. -/
theorem fails_renderModule_iff {v : Value} (hv : v.isNode .moduleNode = true) (hMade : Made v)
    (hm : isModest v = true)
    (hNests : (∀ w, Within v w → ¬ Breaks w) → ∃ n < 0x2000000000000000, Nests n v) (s : Sheet) :
    (Fails (renderModule v) s ↔ ∃ w, Within v w ∧ Breaks w) ∧
      ((¬ ∃ w, Within v w ∧ Breaks w) → ∃ text s', Gives (renderModule v) s text s') := by
  have hGives : (¬ ∃ w, Within v w ∧ Breaks w) → ∃ text s', Gives (renderModule v) s text s' := by
    intro hNone
    obtain ⟨n, hn, h⟩ := hNests fun w hw hb => hNone ⟨w, hw, hb⟩
    exact hMade.gives_renderModule_of_nests hv hm hn h s
  refine ⟨⟨fun hFails => Classical.byContradiction fun hNone => ?_, ?_⟩, hGives⟩
  · obtain ⟨text, s', hText⟩ := hGives hNone
    exact fails_iff.1 hFails text s' hText
  · rintro ⟨w, hw, hb⟩
    exact fails_renderModule hv hw hb s

/-! ### Examples -/

theorem made_of_fields (h : build kind (fields.map (·.2)) = .ok (.node kind fields))
    (hl : ∀ name ∈ kind.lists, ∃ ws, fieldOf fields name = .list ws)
    (hp : ∀ x ∈ fields.map (·.2), ∀ w, Carries x w → w.kind?.isSome = true → Made w) :
    Made (.node kind fields) := .built h hl hp

theorem made_of_plain {x : Value} (hx : x.kind? = none) (hl : ∀ ws, x ≠ .list ws) :
    ∀ w, Carries x w → w.kind?.isSome = true → Made w := by
  intro w hw hk
  cases hw with
  | self => simp [hx] at hk
  | item => exact absurd rfl (hl _)

theorem made_of_node (h : Made (.node kind fields)) :
    ∀ w, Carries (.node kind fields) w → w.kind?.isSome = true → Made w := by
  intro w hw _
  cases hw with
  | self => exact h

theorem made_of_list {ws : List Value} (h : ∀ w ∈ ws, Made w) :
    ∀ w, Carries (.list ws) w → w.kind?.isSome = true → Made w := by
  intro w hw hk
  cases hw with
  | self => cases hk
  | item hw => exact h w hw

/-- Raises an exception again if `x`, and otherwise has an empty typedef. -/
def guardedRaise : Value :=
  .node .ifStmt [
    ("test", .node .name [("id", .text "x"), ("ctx", single .load)]),
    ("body",
      .list [.node .raiseStmt [("type", .nothing), ("inst", .nothing), ("tback", .nothing)]]),
    ("orelse", .list [.node .cTypedefDecl [("value", single .passStmt)]])]

theorem made_name (id : String) {ctx : Kind} (h : Made (single ctx))
    (hBuild : build .name [.text id, single ctx] =
    .ok (.node .name [("id", .text id), ("ctx", single ctx)])) :
    Made (.node .name [("id", .text id), ("ctx", single ctx)]) := by
  refine made_of_fields hBuild (fun _ h => by cases h) ?_
  simp only [List.map, List.forall_mem_cons]
  exact ⟨made_of_plain rfl (by simp), made_of_node h, by simp⟩

theorem made_guardedRaise : Made guardedRaise := by
  have hName : Made (.node .name [("id", .text "x"), ("ctx", single .load)]) :=
    made_name _ (.single rfl) rfl
  have hRaise :
      Made (.node .raiseStmt [("type", .nothing), ("inst", .nothing), ("tback", .nothing)]) := by
    refine made_of_fields rfl (fun _ h => by cases h) ?_
    simp only [List.map, List.forall_mem_cons]
    exact ⟨made_of_plain rfl (by simp), made_of_plain rfl (by simp), made_of_plain rfl (by simp), by
      simp⟩
  have hTypedef : Made (.node .cTypedefDecl [("value", single .passStmt)]) := by
    refine made_of_fields rfl (fun _ h => by cases h) ?_
    simp only [List.map, List.forall_mem_cons]
    exact ⟨made_of_node (.single rfl), by simp⟩
  refine made_of_fields rfl ?_ ?_
  · intro name hname
    have hNames : name ∈ ["body", "orelse"] := hname
    simp only [List.mem_cons, List.not_mem_nil, or_false] at hNames
    rcases hNames with rfl | rfl <;> exact ⟨_, rfl⟩
  · simp only [List.map, List.forall_mem_cons]
    exact ⟨made_of_node hName, made_of_list (by simpa using hRaise),
      made_of_list (by simpa using hTypedef), by simp⟩

def moduleOf (statement : Value) : Value := .node .moduleNode [("body", .list [statement])]

theorem made_moduleOf (h : Made statement) (hs : statement.isOf .stmt = true) :
    Made (moduleOf statement) := by
  have hBody : ∀ w ∈ [statement], (Want.family .stmt).admits w = true :=
    List.forall_mem_singleton.2 hs
  refine made_of_fields ?_ ?_ ?_
  · exact build_eq .moduleNode (by simp) (by simp) rfl rfl
      (List.forall_mem_singleton.2 (run_field_every rfl hBody))
  · simp [Kind.lists, Kind.signature, Check.listed?, Demand.stmts, fieldOf]
  · simp only [List.map, List.forall_mem_cons]
    exact ⟨made_of_list (by simpa using h), by simp⟩

theorem renderModule_guardedRaise : (moduleOf guardedRaise).isNode .moduleNode = true ∧
    Made (moduleOf guardedRaise) ∧ isModest (moduleOf guardedRaise) = true ∧
    ((∀ w, Within (moduleOf guardedRaise) w → ¬ Breaks w) →
      ∃ n < 0x2000000000000000, Nests n (moduleOf guardedRaise)) ∧
    (Fails (renderModule (moduleOf guardedRaise)) {} ↔ ∃ w, Within (moduleOf guardedRaise) w ∧
      Breaks w) ∧
    ((¬ ∃ w, Within (moduleOf guardedRaise) w ∧ Breaks w) →
      ∃ text s', Gives (renderModule (moduleOf guardedRaise)) {} text s') := by
  have hMade := made_moduleOf made_guardedRaise rfl
  have hNests : (∀ w, Within (moduleOf guardedRaise) w → ¬ Breaks w) →
      ∃ n < 0x2000000000000000, Nests n (moduleOf guardedRaise) := by
    refine fun hBreaks => ⟨_, ?_, hMade.nests_depth hBreaks⟩
    rw [show (moduleOf guardedRaise).depth = 6 from rfl]
    omega
  exact ⟨rfl, hMade, rfl, hNests, fails_renderModule_iff rfl hMade rfl hNests {}⟩

/-- The declaration of an array whose size is too long to be written. -/
def longDeclaration : Value := .node .exprStmt [("value", cNameValue longArray.value "x")]

theorem made_longDeclaration : Made longDeclaration := by
  have hName : Made (.node .name [("id", .text "int"), ("ctx", single .param)]) :=
    made_name _ (.single rfl) rfl
  have hType : Made (CType.named false (.phrase ⟨"int", by decide⟩ [])).value := by
    refine made_of_fields rfl (fun _ h => by cases h) ?_
    simp only [List.map, List.forall_mem_cons]
    exact ⟨made_of_node hName, made_of_plain rfl (by simp), made_of_plain rfl (by simp), by simp⟩
  have hArray : Made longArray.value := by
    refine made_of_fields rfl (fun _ h => by cases h) ?_
    simp only [List.map, List.forall_mem_cons]
    exact ⟨made_of_node hType, made_of_plain rfl (fun _ h => by cases h), fun _ h => by cases h⟩
  have hDeclared : Made (cNameValue longArray.value "x") := by
    refine made_of_fields rfl (fun _ h => by cases h) ?_
    simp only [List.map, List.forall_mem_cons]
    exact ⟨made_of_node hArray, made_of_plain rfl (by simp), fun _ h => by cases h⟩
  refine made_of_fields rfl (fun _ h => by cases h) ?_
  simp only [List.map, List.forall_mem_cons]
  exact ⟨made_of_node hDeclared, by simp⟩

theorem statementIn_moduleOf (h : StatementIn (moduleOf statement) w) : w = statement := by
  cases h with
  | block hName hList hw =>
    obtain rfl := List.mem_singleton.1 hName
    obtain rfl : [statement] = _ := by simpa [fieldOf] using hList
    exact List.mem_singleton.1 hw
  | declared hd => cases hd

/-- **Not every made module without such statements is rendered**: a number can be too long. -/
theorem fails_renderModule_longDeclaration : (moduleOf longDeclaration).isNode .moduleNode = true ∧
    Made (moduleOf longDeclaration) ∧ (¬ ∃ w, Within (moduleOf longDeclaration) w ∧ Breaks w) ∧
    Fails (renderModule (moduleOf longDeclaration)) {} := by
  refine ⟨rfl, made_moduleOf made_longDeclaration rfl, ?_, fails_iff.2 fun text s' hGives => ?_⟩
  · rintro ⟨w, hw, fields, hb⟩
    cases hw with
    | self => simp [moduleOf] at hb
    | inner hu hw =>
      obtain rfl := statementIn_moduleOf hu
      cases hw with
      | self => simp [longDeclaration] at hb
      | inner hu _ =>
        cases hu with
        | block hName => cases hName
        | declared hd => cases hd
  · obtain ⟨_, _, hVisit⟩ := gives_visit_of_renderModule rfl hGives
    have hIn : StatementIn (moduleOf longDeclaration) longDeclaration :=
      .block (List.mem_singleton.2 rfl) rfl (List.mem_singleton.2 rfl)
    obtain ⟨t, t', hVisit⟩ := hIn.reaches _ _ _ hVisit
    rw [visit] at hVisit
    obtain ⟨_, _, hShown, -⟩ := gives_bind.1 hVisit
    obtain ⟨p, _, hp, hRender⟩ := gives_bind.1 hShown
    rw [show p.1 = cNameValue longArray.value "x" from fieldOf_of_gives_need ⟨_, _, hp⟩] at hRender
    exact not_gives_render_cName (peel_array_of_not_isWritable not_isWritable_pow _) "x" _ _ _
      hRender

end PxdGen.Pxd
