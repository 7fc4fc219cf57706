import PxdGen.Decl.Result
import PxdGen.Proofs.Flatten.Container
import PxdGen.Proofs.Unit.Define
/-! # The module of a flat unit

A unit is read, its declarations are collected, the toplevel ones are prepared, and a module is made
of them. For a flat unit each of these steps succeeds, and the module has the statements of the
declarations that are shown, in the order in which they are declared.
-/

namespace PxdGen.Index

open Decl Decl.Work

variable {tree : Tree} {s : Session} {items : List Item} {file : Nat}

variable {vs : List Value} {g : Graph} {v : Value} {n : Nat} {type : UnitType}

/-- Reads a unit and makes a module for a header of what it declares. -/
def translate (tree : Tree) (header : String) : Work Value := do
  startReading
  let _ ← readUnit tree
  let found ← result
  let ready ← prepare (.list found)
  moduleOf ready (.text header)

/-! ### Collecting -/

theorem gives_namesOf (h : ∀ v ∈ vs, ∃ name, s.graph.field? v "name" = some (.text name)) :
    ∃ names, Gives (namesOf vs) s names s := by
  unfold namesOf
  generalize ({} : Table Key Value) = names
  induction vs generalizing names with
  | nil => exact ⟨names, .pure _ s⟩
  | cons v vs ih =>
    obtain ⟨name, hname⟩ := h v (by simp)
    obtain ⟨names', hRest⟩ := ih (fun w hw => h w (by simp [hw]))
      (names.insert (.named (.text name)) v)
    refine ⟨names', ?_⟩
    rw [List.foldlM_cons]
    have hField : Gives (field? v "name") s (some (.text name)) s := by
      rw [← hname]
      rfl
    exact Gives.bind (Gives.bind hField (.pure _ s)) hRest

/-- The interesting declarations in the table. -/
def collected (s : Session) : List Value :=
  s.table.values.filter fun v => (s.graph.form? v).any (·.isInteresting s.graph.origin)

theorem Stored.gives_result (h : Stored tree file items s.graph s.table)
    (hSections : s.sections = {}) : Gives result s (collected s) s := by
  have hText : ∀ name, Gives (sectionText name) s .nothing s := by
    intro name
    refine Gives.get ?_
    rw [hSections]
    exact .pure _ s
  obtain ⟨names, hNames⟩ := gives_namesOf (s := s) fun v (hv : v ∈ collected s) => by
    obtain ⟨id, name, _, hname, _⟩ := h.values v (List.mem_filter.1 hv).1
    exact ⟨name, hname⟩
  refine Gives.bind gives_origin ?_
  rw [h.origin]
  refine Gives.bind (hText _) (Gives.bind (.pure () s) (Gives.get ?_))
  refine Gives.bind hNames (Gives.bind (hText _) (Gives.bind (.pure () s) ?_))
  exact .pure _ s

theorem Progress.gives_findToplevel (h : Progress tree file items s.graph s.table) :
    Gives (findToplevel (.list (collected s))) s (.list (listed tree s.table items items)) s := by
  have hFile := h.stored.isFile
  have hMem : Value.link file ∈ collected s := by
    refine List.mem_filter.2 ⟨Table.mem_values_of_get? _ h.stored.root, ?_⟩
    rw [hFile]
    rfl
  -- the file is the only declaration of its form
  have hFind : (collected s).find? (s.graph.hasForm · .file) = some (.link file) := by
    cases hf : (collected s).find? (s.graph.hasForm · .file) with
    | none =>
      have := List.find?_eq_none.1 hf _ hMem
      simp [Graph.hasForm, hFile] at this
    | some v =>
      obtain ⟨id, _, rfl, _, hOnly⟩ := h.stored.values v
        (List.mem_filter.1 (List.mem_of_find?_eq_some hf)).1
      rw [hOnly (by simpa [Graph.hasForm] using List.find?_some hf)]
  refine Gives.get (Gives.bind (gives_items rfl) ?_)
  simp only [h.stored.origin, hFind]
  exact gives_field h.members

/-! ### Flattening -/

/-- No field is a struct or union itself. -/
theorem isContainer_of_holdsFields {fields : List Member}
    (h : List.Forall₂ (HoldsField g) vs fields) : ∀ v ∈ vs, g.isContainer v = false := by
  induction h with
  | nil => simp
  | cons hv _ ih =>
    refine List.forall_mem_cons.2 ⟨?_, ih⟩
    simp [Graph.isContainer, hv.form, Form.isContainer]

/-- A struct or union of a flat unit has nothing to be lifted out. -/
theorem Holds.gives_flattenContainer {i : Item}
    (h : Holds tree file s.graph s.table v i) (hi : i.isRecord = true)
    (hNamed : i.name ≠ "" ∨ (s.graph.field? v "typedef_name").isSome) :
    Gives (flattenContainer (n + 1) v) s [v] s := by
  obtain ⟨id, rfl, _⟩ := exists_link_of_form? h.form
  have hContent := h.content
  unfold Item.isRecord at hi
  cases hc : i.content with
  | record isUnion fields =>
    rw [hc] at hContent
    obtain ⟨hContext, vs, hMembers, hAll⟩ := hContent
    refine gives_flattenContainer_of_flat hMembers (isContainer_of_holdsFields hAll) hContext
      ⟨_, h.name, fun _ => ?_⟩
    exact hNamed.imp (by simp [Value.isTrue]) Option.isSome_iff_exists.1
  | _ => simp [hc] at hi

theorem Holds.isContainer_eq {i : Item} (h : Holds tree file s.graph s.table v i) :
    s.graph.isContainer v = i.isRecord := by
  rw [Graph.isContainer, h.form, Item.isRecord]
  cases i.content with
  | record isUnion fields => cases isUnion <;> rfl
  | _ => rfl

/-- The declarations of a type are neither a typedef nor, if it is not tagged, a container. -/
theorem Shows.form_cases {low : Nat} (h : Shows g low v type) : g.hasForm v .typedef = false ∧
      (g.isContainer v = true → ∃ d own, type = .tagged d own) := by
  cases h with
  | @tagged _ _ _ form h1 h2 =>
    refine ⟨?_, fun _ => ⟨_, _, rfl⟩⟩
    rw [Graph.hasForm, h1]
    cases form <;> first | rfl | cases h2
  | plain _ _ h1 | pointer _ _ h1 =>
    simp [Graph.hasForm, Graph.isContainer, g.form?_of_get? h1, qualifiedEntry, Form.isContainer]
  | array _ h1 =>
    simp [Graph.hasForm, Graph.isContainer, g.form?_of_get? h1, arrayEntry, Form.isContainer]
  | function _ h1 =>
    simp [Graph.hasForm, Graph.isContainer, g.form?_of_get? h1, functionTypeEntry, Form.isContainer]

theorem gives_flattenOne_of_other (hc : s.graph.isContainer v = false)
    (hf : s.graph.hasForm v .typedef = false) : Gives (flattenOne (n + 1) v) s [v] s := by
  refine Gives.bind (gives_isContainer v) ?_
  rw [hc]
  refine Gives.bind gives_origin (Gives.bind (gives_hasForm v .typedef) ?_)
  rw [hf, Bool.and_false]
  exact .pure _ s

section Flatten

variable (hUnit : FlatUnit tree items) (hs : Stored tree file items s.graph s.table) {i : Item}
  (hi : i ∈ items)

include hUnit hs hi

/-- What a typedef stands for is left as it is. -/
theorem FlatUnit.gives_flattenOne_target {w : Value}
    (hTypedef : i.content = .typedef type) (hHolds : Holds tree file s.graph s.table v i)
    (hw : s.graph.field? v "typ" = some w) : Gives (flattenOne (n + 2) w) s [w] s := by
  have hContent := hHolds.content
  rw [hTypedef] at hContent
  obtain ⟨w', hw', hShows, hTagged⟩ := hContent
  obtain rfl : w' = w := Option.some.inj (hw'.symm.trans hw)
  obtain ⟨hForm, hTag⟩ := hShows.shows.form_cases
  cases hc : s.graph.isContainer w' with
  | false => exact gives_flattenOne_of_other hc hForm
  | true =>
    obtain ⟨d, own, rfl⟩ := hTag hc
    obtain ⟨hTable, hName⟩ := hTagged d own rfl
    obtain ⟨j, hj, _, rfl, hIsTag, _⟩ := hUnit.find_tag hi hTypedef
    obtain ⟨id, hKnown, hHolds'⟩ := hs.known hj hIsTag
    obtain rfl : w' = .link id := Option.some.inj (hTable.symm.trans hKnown.table)
    refine Gives.bind (gives_isContainer _) ?_
    rw [hc]
    exact hHolds'.gives_flattenContainer (hHolds'.isContainer_eq.symm.trans hc) (.inr hName)

/-- **Flattening leaves a declaration that is shown as it is.** -/
theorem FlatUnit.gives_flattenOne (hShown : i.isShown items = true) :
    Gives (flattenOne (n + 3) (nodeOf tree s.table i)) s [nodeOf tree s.table i] s := by
  obtain ⟨id, hid, hHolds⟩ := hs.node i hi (isShown_of_redundant hShown)
  rw [Stored.nodeOf_eq hid]
  cases hc : s.graph.isContainer (.link id) with
  | true =>
    have hRecord : i.isRecord = true := hHolds.isContainer_eq.symm.trans hc
    -- an unnamed struct or union is not shown, as it has a typedef
    have hNamed : i.name ≠ "" := by
      intro hEmpty
      obtain ⟨j, hj, hTag⟩ := hUnit.unnamed i hi hRecord hEmpty
      unfold Item.isShown at hShown
      unfold Item.isRecord at hRecord
      have hAny : items.any (fun j => j.tag? == some (i.cursor, "")) = true :=
        List.any_eq_true.2 ⟨j, hj, by simp [hTag]⟩
      cases hContent : i.content with
      | record isUnion fields => simp [hContent, hEmpty, hAny] at hShown
      | _ => simp [hContent] at hRecord
    refine Gives.bind (gives_isContainer _) ?_
    rw [hc]
    exact hHolds.gives_flattenContainer hRecord (.inl hNamed)
  | false =>
    cases hf : s.graph.hasForm (.link id) .typedef with
    | false => exact gives_flattenOne_of_other hc hf
    | true =>
      have hForm := hHolds.form
      rw [show s.graph.form? (.link id) = some .typedef by simpa [Graph.hasForm] using hf] at hForm
      obtain ⟨type, hTypedef⟩ : ∃ type, i.content = .typedef type := by
        cases hContent : i.content with
        | typedef type => exact ⟨type, rfl⟩
        | record isUnion fields => cases isUnion <;> simp [hContent, Content.form] at hForm
        | _ => simp [hContent, Content.form] at hForm
      have hContent := hHolds.content
      rw [hTypedef] at hContent
      obtain ⟨w, hw, _⟩ := hContent
      have hInner := hUnit.gives_flattenOne_target hs hi hTypedef hHolds hw (n := n)
      refine Gives.bind (gives_isContainer _) ?_
      rw [hc]
      refine Gives.bind gives_origin (Gives.bind (gives_hasForm _ .typedef) ?_)
      rw [hs.origin, hf]
      exact Gives.bind (gives_field hw) (Gives.bind hInner (.pure _ s))

end Flatten

theorem gives_mapM_singletons {α : Type} {f : Value → Work (List Value)} {a : α → Value}
    {b : α → Value} (l : List α) (h : ∀ x ∈ l, Gives (f (a x)) s [b x] s) :
    Gives ((l.map a).mapM f) s (l.map fun x => [b x]) s := by
  induction l with
  | nil => exact gives_mapM_nil.2 ⟨rfl, rfl⟩
  | cons x l ih =>
    exact gives_mapM_cons.2 ⟨_, s, _, h x (by simp), ih fun y hy => h y (by simp [hy]), rfl⟩

theorem Progress.gives_prepare (hUnit : FlatUnit tree items)
    (h : Progress tree file items s.graph s.table) :
    Gives (prepare (.list (collected s))) s (.list (listed tree s.table items items)) s := by
  obtain ⟨n, hn⟩ : ∃ n, s.graph.entries.size + 2 = n + 3 :=
    ⟨s.graph.entries.size - 1, by have := s.graph.lt_size_of_form? h.stored.isFile; omega⟩
  have hEach := gives_mapM_singletons (s := s) (f := flattenOne (s.graph.entries.size + 2))
    (a := nodeOf tree s.table) (b := nodeOf tree s.table) (items.filter (Item.isShown items))
    fun i hi => by
      obtain ⟨hi, hShown⟩ := List.mem_filter.1 hi
      rw [hn]
      exact hUnit.gives_flattenOne h.stored hi hShown
  have hFlat : ((items.filter (Item.isShown items)).map fun i => [nodeOf tree s.table i]).flatten =
      listed tree s.table items items := by
    rw [listed, ← List.flatMap_def, List.map_eq_flatMap]
  refine Gives.bind h.gives_findToplevel (Gives.bind gives_origin ?_)
  rw [h.stored.origin]
  refine Gives.bind gives_steps (Gives.bind (gives_items rfl) (Gives.bind hEach ?_))
  rw [hFlat]
  exact .pure _ s

/-! ### The module -/

theorem Item.statement_isOf (items : List Item) (i : Item) :
    (i.statement items).isOf .stmt = true := by
  unfold Item.statement
  split <;> rfl

theorem Progress.gives_moduleOf (hUnit : FlatUnit tree items)
    (h : Progress tree file items s.graph s.table) (header : String) :
    Gives (moduleOf (.list (listed tree s.table items items)) (.text header)) s
      (flatModule header items) s := by
  let shown := items.filter (Item.isShown items)
  have hEach := gives_mapM_singletons (s := s) (a := nodeOf tree s.table)
    (b := Item.statement items) (f := fun item => do
      if ← isElsewhere (.text header) item then pure []
      else define (s.graph.entries.size + 1) (s.graph.entries.size + 1) item) shown fun i hi => by
      obtain ⟨hi, hShown⟩ := List.mem_filter.1 hi
      have hNew := isShown_of_redundant hShown
      obtain ⟨id, hid, hHolds⟩ := h.stored.node i hi hNew
      obtain ⟨location, hLocation⟩ := Option.isSome_iff_exists.1 hHolds.location
      have hElsewhere : Gives (isElsewhere (.text header) (nodeOf tree s.table i)) s false s := by
        rw [Stored.nodeOf_eq hid]
        refine Gives.bind (gives_field hLocation) (Gives.bind gives_origin ?_)
        rw [h.stored.origin]
        exact .pure _ s
      exact Gives.bind hElsewhere (hUnit.gives_define h.stored hi hNew (Nat.le_refl _))
  have hFlat :
      (shown.map fun i => [i.statement items]).flatten = shown.map (Item.statement items) := by
    rw [← List.flatMap_def, List.map_eq_flatMap]
  have hStmts : ∀ v ∈ shown.map (Item.statement items), v.isOf .stmt = true :=
    List.forall_mem_map.2 fun i _ => i.statement_isOf items
  refine Gives.bind gives_steps (Gives.bind (gives_items rfl) (Gives.bind hEach ?_))
  rw [hFlat]
  refine Gives.bind (gives_build (build_externFrom_eq header hStmts)) ?_
  refine Gives.bind (gives_build (build_cdefDecl_eq rfl)) ?_
  exact gives_build (build_moduleNode_eq (List.forall_mem_singleton.2 rfl))

theorem yields_tellDiagnostics (ds : List DiagnosticData) :
    Yields (ds.forM tellDiagnostic) s () s := by
  induction ds with
  | nil => exact .pure _ s
  | cons d ds ih =>
    have hOne : Yields (tellDiagnostic d) s () s :=
      (yields_say _).bind <| (yields_say _).bind <| (yields_say _).bind <| (yields_say _).bind <|
        (yields_say _).bind (yields_say _)
    exact hOne.bind ih

/-- A flat unit is read, and its declarations are then translated. -/
theorem FlatUnit.exists_translate (h : FlatUnit tree items) (ho : s.graph.origin = .unit)
    (header : String) : ∃ s', Gives (translate tree header) s (flatModule header items) s' := by
  let s₀ : Session := { s with context := [], table := {}, sections := {}, openText := none,
                               openKey := none, revision := none }
  obtain ⟨file, g, t, context, hTree, hp⟩ := h.yields_readTree (s := s₀) ho rfl rfl rfl
  have hUnit : Yields (readUnit tree) s₀ (.link file) _ :=
    Yields.bind (yields_tellDiagnostics tree.diagnostics.toList) hTree
  obtain ⟨k, hRead⟩ := hUnit.gives
  let s₁ : Session := { s₀ with graph := g, table := t, context := context, console := k }
  have hp₁ : Progress tree file items s₁.graph s₁.table := hp
  refine ⟨s₁, Gives.bind (a := ()) (gives_modify.2 rfl) (Gives.bind hRead ?_)⟩
  refine Gives.bind (hp₁.stored.gives_result rfl) (Gives.bind (hp₁.gives_prepare h) ?_)
  exact hp₁.gives_moduleOf h header

/-- **The module of a flat unit** has the statements of the declarations that are shown, in their
order. -/
theorem FlatUnit.gives_translate (h : FlatUnit tree items) (ho : s.graph.origin = .unit)
    (header : String) : ∃ s', Gives (translate tree header) s (flatModule header items) s' :=
  h.exists_translate ho header

/-! ### A typedef that repeats a name -/

/-- A struct `S` with a pointer to `S`, a typedef `S` of it, and a function `f` from `S` to pointers
to `S`. -/
def repeatedName : Tree where
  cursors := #[
    { kind := 300, hash := 1, children := [1, 3, 4] },
    { kind := 2, spelling := "S", hash := 2, location := { file := some "t.h" }, children := [2] },
    { kind := 6, spelling := "next", hash := 3, location := { file := some "t.h" },
      type := some 0 },
    { kind := 20, spelling := "S", hash := 4, location := { file := some "t.h" },
      underlying := some 1 },
    { kind := 8, spelling := "f", hash := 5, location := { file := some "t.h" }, type := some 2,
      arguments := [5] },
    { kind := 10, spelling := "x", hash := 6, location := { file := some "t.h" }, type := some 3 }]
  types := #[
    { kind := 101, pointee := some 1 },
    { kind := 105, declaration := some 1 },
    { kind := 111, result := some 4 },
    { kind := 107, declaration := some 3 },
    { kind := 101, pointee := some 3 }]

def repeatedNameItems : List Item :=
  [⟨1, "S", .record false [⟨2, "next", .pointer (.tagged 1 "S") false false⟩]⟩,
    ⟨3, "S", .typedef (.tagged 1 "S")⟩,
    ⟨4, "f", .function (.pointer (.plain "S" false false) false false)
      [⟨5, "x", .plain "S" false false⟩]⟩]

theorem repeatedName_declares : ∀ i ∈ repeatedNameItems, repeatedName.Declares i := by
  have hStruct : repeatedName.Denotes (some 1) (.tagged 1 "S") := .tagged rfl (.inl rfl) rfl rfl
  have hTypedef : repeatedName.Denotes (some 3) (.plain "S" false false) := .typedef rfl rfl rfl
  refine List.forall_mem_cons.2 ⟨⟨⟨⟨_, rfl, rfl⟩, rfl, ⟨_, rfl⟩, _, rfl⟩, rfl, ?_⟩, ?_⟩
  · refine List.forall_mem_singleton.2 ⟨⟨⟨_, rfl, rfl⟩, rfl, ⟨_, rfl⟩, _, rfl⟩, ?_, rfl⟩
    exact .pointer rfl ⟨_, rfl⟩ rfl hStruct
  refine List.forall_mem_cons.2 ⟨⟨⟨⟨_, rfl, rfl⟩, rfl, ⟨_, rfl⟩, _, rfl⟩, hStruct⟩, ?_⟩
  refine List.forall_mem_singleton.2 ⟨⟨⟨_, rfl, rfl⟩, rfl, ⟨_, rfl⟩, _, rfl⟩, ?_, rfl, ?_⟩
  · exact .pointer rfl ⟨_, rfl⟩ rfl hTypedef
  · exact List.forall_mem_singleton.2 ⟨⟨_, rfl⟩, rfl, hTypedef⟩

theorem flatUnit_repeatedName : FlatUnit repeatedName repeatedNameItems where
  root := ⟨_, rfl, rfl⟩
  rootType := ⟨_, rfl⟩
  children := rfl
  declares := repeatedName_declares
  hashes := by decide
  tags := by
    intro before i after h type hType d hd
    rcases before with _ | ⟨x, _ | ⟨y, _ | ⟨z, _⟩⟩⟩ <;>
      simp only [repeatedNameItems, List.nil_append, List.cons_append, List.cons.injEq,
        List.nil_eq, List.append_eq_nil_iff, reduceCtorEq, and_false] at h
    · obtain ⟨rfl, -⟩ := h
      obtain rfl := List.mem_singleton.1 hType
      obtain rfl := List.mem_singleton.1 hd
      exact ⟨_, rfl, rfl, .inr rfl⟩
    · obtain ⟨rfl, rfl, -⟩ := h
      obtain rfl := List.mem_singleton.1 hType
      obtain rfl := List.mem_singleton.1 hd
      exact ⟨_, rfl, rfl, .inl (List.mem_singleton_self _)⟩
    · obtain ⟨-, -, rfl, -⟩ := h
      rcases List.mem_cons.1 hType with rfl | hType
      · cases hd
      · obtain rfl := List.mem_singleton.1 hType
        cases hd
  named := by simp [repeatedNameItems, Item.types, UnitType.isNamed]
  unnamed := by simp [repeatedNameItems, Item.isRecord]

theorem gives_translate_repeatedName :
    ∃ s', Gives (translate repeatedName "t.h") { graph := { origin := .unit } } (moduleValue "t.h"
        [cdefValue (recordValue false "S" [⟨2, "next", .pointer (.tagged 1 "S") false false⟩]),
          Pxd.prototypeValue "f"
            (Pxd.argumentsValue [Pxd.cNameValue (UnitType.plain "S" false false).value "x"])
            (UnitType.pointer (.plain "S" false false) false false).value]) s' :=
  FlatUnit.gives_translate flatUnit_repeatedName rfl "t.h"

def statements : Value → List Value
  | .node .moduleNode
      [(_, .list [.node .cdefDecl [_, (_, .node .externFrom [_, (_, .list stmts)])]])] => stmts
  | _ => []

set_option maxRecDepth 100000 in
theorem length_statements_repeatedName :
    FlatUnit repeatedName repeatedNameItems ∧ repeatedNameItems.length = 3 ∧
      ∃ v s', Gives (translate repeatedName "t.h") { graph := { origin := .unit } } v s' ∧
        (statements v).length = 2 := by
  refine ⟨flatUnit_repeatedName, rfl, ?_⟩
  let run := (translate repeatedName "t.h").run.run { graph := { origin := .unit } }
  have h : (run.1.toOption.map fun v => (statements v).length) = some 2 := by decide +kernel
  cases hRun : run.1 with
  | error e => simp [hRun, Except.toOption] at h
  | ok v => exact ⟨v, run.2, Prod.ext hRun rfl, by simpa [hRun, Except.toOption] using h⟩

end PxdGen.Index
