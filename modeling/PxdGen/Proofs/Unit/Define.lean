import PxdGen.Proofs.Unit.ReadUnit
/-! # Statements of what has been read

What the declarations of a flat unit have been read into is defined by their statements. A
definition builds the node of its statement from the nodes of what it mentions, and all checks of
the nodes that are built pass.
-/

namespace PxdGen.Index

open Decl Decl.Work

variable {tree : Tree} {s : Session}

variable {kind : Pxd.Kind} {vs : List Value} {fields : List Member} {constants : List Constant}
  {held : String} {m d : Nat} {type : UnitType} {w : Value}

/-! ### Nodes -/

section Build

variable {v : Value} {stmts : List Value}

theorem build_exprStmt_eq (h : v.isOf .expr = true) :
    Pxd.build .exprStmt [v] = .ok (.node .exprStmt [("value", v)]) :=
  Pxd.build_eq .exprStmt nofun nofun rfl rfl (List.forall_mem_singleton.2 (Pxd.run_field_one h))

theorem build_cdefDecl_eq (h : v.isOf .stmt = true) :
    Pxd.build .cdefDecl [.list [], v] = .ok (cdefValue v) := by
  refine Pxd.build_eq .cdefDecl nofun nofun rfl rfl ?_
  exact List.forall_mem_cons.2 ⟨Pxd.run_field_every rfl (by simp),
    List.forall_mem_singleton.2 (Pxd.run_field_one h)⟩

theorem build_cTypedefDecl_eq (h : v.isOf .stmt = true) :
    Pxd.build .cTypedefDecl [v] = .ok (.node .cTypedefDecl [("value", v)]) :=
  Pxd.build_eq .cTypedefDecl nofun nofun rfl rfl (List.forall_mem_singleton.2 (Pxd.run_field_one h))

theorem build_externFrom_eq (header : String) (h : ∀ v ∈ stmts, v.isOf .stmt = true) :
    Pxd.build .externFrom [.text header, .list stmts] =
      .ok (.node .externFrom [("name", .text header), ("body", .list stmts)]) := by
  refine Pxd.build_eq .externFrom nofun nofun rfl rfl ?_
  exact List.forall_mem_cons.2 ⟨Pxd.run_field_one rfl,
    List.forall_mem_singleton.2 (Pxd.run_field_every rfl h)⟩

theorem build_moduleNode_eq (h : ∀ v ∈ stmts, v.isOf .stmt = true) :
    Pxd.build .moduleNode [.list stmts] = .ok (.node .moduleNode [("body", .list stmts)]) :=
  Pxd.build_eq .moduleNode nofun nofun rfl rfl
    (List.forall_mem_singleton.2 (Pxd.run_field_every rfl h))

/-- The kinds of definitions of structs, unions and enumerations. -/
def isBodyKind : Pxd.Kind → Bool
  | .structDef | .unionDef | .enumDef => true
  | _ => false

theorem build_definition_eq (hKind : isBodyKind kind = true) (name : String)
    (h : ∀ v ∈ stmts, v.isOf .stmt = true) :
    Pxd.build kind [.text name, bodyOf stmts] = .ok (definitionValue kind name stmts) := by
  have hBody : ∃ body, bodyOf stmts = .list body ∧ ∀ v ∈ body, v.isOf .stmt = true := by
    refine ⟨_, rfl, ?_⟩
    split
    · exact List.forall_mem_singleton.2 rfl
    · exact h
  obtain ⟨body, hEq, hBody⟩ := hBody
  rw [definitionValue, hEq]
  cases kind with
  | structDef =>
    refine Pxd.build_eq .structDef nofun nofun rfl rfl ?_
    exact List.forall_mem_cons.2 ⟨Pxd.run_field_one rfl,
      List.forall_mem_singleton.2 (Pxd.run_field_every rfl hBody)⟩
  | unionDef =>
    refine Pxd.build_eq .unionDef nofun nofun rfl rfl ?_
    exact List.forall_mem_cons.2 ⟨Pxd.run_field_one rfl,
      List.forall_mem_singleton.2 (Pxd.run_field_every rfl hBody)⟩
  | enumDef =>
    refine Pxd.build_eq .enumDef nofun nofun rfl rfl ?_
    exact List.forall_mem_cons.2 ⟨Pxd.run_given_one rfl,
      List.forall_mem_singleton.2 (Pxd.run_field_every rfl hBody)⟩
  | _ => cases hKind

end Build

/-! ### Parts -/

theorem gives_declaration (type : UnitType) (name : String) :
    Gives (declaration type.value (.text name)) s (declarationValue type name) s :=
  Gives.bind (gives_build (Pxd.build_cName_eq type.value_isOf name))
    (gives_build (build_exprStmt_eq rfl))

/-- Work on what related items have been read into. -/
theorem gives_mapM_forall₂ {α : Type} {R : Value → α → Prop} {f : Value → Work Value}
    {b : α → Value} {as : List α} (h : List.Forall₂ R vs as)
    (hf : ∀ v, ∀ a ∈ as, R v a → Gives (f v) s (b a) s) : Gives (vs.mapM f) s (as.map b) s := by
  induction h with
  | nil => exact gives_mapM_nil.2 ⟨rfl, rfl⟩
  | cons hva _ ih =>
    exact gives_mapM_cons.2 ⟨_, s, _, hf _ _ (by simp) hva,
      ih fun v a ha hR => hf v a (by simp [ha]) hR, rfl⟩

section Parts

variable (ho : s.graph.origin = .unit) {n : Nat} (hn : s.graph.entries.size ≤ n) {v : Value}

include ho hn

theorem HoldsField.gives_mention {m : Member} (h : HoldsField s.graph v m)
    (hNamed : m.type.isNamed = true) :
    Gives (mention (n + 1) v) s (declarationValue m.type m.name) s := by
  obtain ⟨w, hw, hShows⟩ := h.typ
  have hType := hShows.shows.gives_mention ho hNamed (Nat.le_trans hShows.height hn)
  refine Index.gives_mention (Gives.bind gives_origin (Gives.get ?_))
  rw [h.form]
  refine Gives.bind (gives_field h.name) (Gives.bind (gives_field hw) (Gives.bind hType ?_))
  exact gives_declaration m.type m.name

theorem HoldsParam.gives_mention {m : Member} (h : HoldsParam s.graph v m)
    (hNamed : m.type.isNamed = true) :
    Gives (mention (n + 1) v) s (Pxd.cNameValue m.type.value m.name) s := by
  obtain ⟨id, w, rfl, he, hShows⟩ := h.entry
  exact gives_mention_argument he
    (hShows.shows.gives_mention ho hNamed (Nat.le_trans hShows.height hn)) m.type.value_isOf

omit ho hn in
theorem HoldsConstant.gives_mention {k : Constant} (h : HoldsConstant s.graph v k) :
    Gives (mention (n + 1) v) s (constantValue k.name) s := by
  refine Index.gives_mention (Gives.bind gives_origin (Gives.get ?_))
  rw [h.form]
  exact Gives.bind (gives_field h.name) rfl

end Parts

/-! ### Declarations -/

section Define

variable (ho : s.graph.origin = .unit) {n : Nat} (hn : s.graph.entries.size ≤ n) {file : Nat}
  {v : Value} {i : Item} {items : List Item}

include ho hn

theorem gives_fields
    (h : List.Forall₂ (HoldsField s.graph) vs fields)
    (hNamed : ∀ m ∈ fields, m.type.isNamed = true) :
    Gives (vs.mapM (mention (n + 1))) s (fields.map fun m => declarationValue m.type m.name) s :=
  gives_mapM_forall₂ h fun _ m hm hPart => hPart.gives_mention ho hn (hNamed m hm)

omit ho hn in
theorem gives_constants
    (h : List.Forall₂ (HoldsConstant s.graph) vs constants) :
    Gives (vs.mapM (mention (n + 1))) s (constants.map fun k => constantValue k.name) s :=
  gives_mapM_forall₂ h fun _ _ _ hPart => hPart.gives_mention

omit ho hn in
theorem gives_defineAs {sub : Value → Work Value} {name : String}
    {keep : Value → Bool} {stmts : List Value} (hKind : isBodyKind kind = true)
    (hName : s.graph.field? v "name" = some (.text name))
    (hItems : s.graph.field? v held = some (.list vs)) (hStmts : Gives (vs.mapM sub) s stmts s)
    (hAre : ∀ w ∈ stmts, w.isOf .stmt = true) (hKeep : ∀ w ∈ stmts, keep w = true) :
    Gives (defineAs sub kind v held keep) s [cdefValue (definitionValue kind name stmts)] s := by
  have hIsStmt : (definitionValue kind name stmts).isOf .stmt = true := by
    cases kind <;> first | rfl | cases hKind
  refine Gives.bind (gives_field hName) (Gives.bind (gives_fieldItems hItems) ?_)
  refine Gives.bind hStmts ?_
  rw [List.filter_eq_self.2 hKeep]
  refine Gives.bind (gives_build (build_definition_eq hKind name hAre)) ?_
  exact Gives.bind (gives_build (build_cdefDecl_eq hIsStmt)) (.pure _ s)

omit ho hn in
theorem fields_areStatements (fields : List Member) :
    ∀ w ∈ fields.map fun m => declarationValue m.type m.name, w.isOf .stmt = true :=
  List.forall_mem_map.2 fun _ _ => rfl

omit ho hn in
theorem constants_areStatements (constants : List Constant) :
    ∀ w ∈ constants.map fun k => constantValue k.name, w.isOf .stmt = true :=
  List.forall_mem_map.2 fun _ _ => rfl

theorem Holds.gives_define_record {isUnion : Bool}
    (h : Holds tree file s.graph s.table v i) (hi : i.content = .record isUnion fields)
    (hNamed : ∀ m ∈ fields, m.type.isNamed = true) :
    Gives (define (n + 1) (m + 1) v) s [cdefValue (recordValue isUnion i.name fields)] s := by
  have hForm := h.form
  have hContent := h.content
  rw [hi] at hForm hContent
  obtain ⟨_, vs, hMembers, hAll⟩ := hContent
  have hStmts := gives_fields ho hn hAll hNamed
  have hAre := fields_areStatements fields
  refine Gives.bind gives_origin (Gives.get ?_)
  rw [hForm]
  cases isUnion with
  | false =>
    exact gives_defineAs rfl h.name hMembers hStmts hAre fun w hw => by simp [hAre w hw]
  | true => exact gives_defineAs rfl h.name hMembers hStmts hAre fun _ _ => rfl

omit ho hn in
theorem Holds.gives_define_enumeration
    (h : Holds tree file s.graph s.table v i) (hi : i.content = .enumeration constants) :
    Gives (define (n + 1) (m + 1) v) s [cdefValue (enumerationValue i.name constants)] s := by
  have hForm := h.form
  have hContent := h.content
  rw [hi] at hForm hContent
  obtain ⟨_, vs, hValues, hAll⟩ := hContent
  refine Gives.bind gives_origin (Gives.get ?_)
  rw [hForm]
  exact gives_defineAs rfl h.name hValues (gives_constants hAll)
    (constants_areStatements constants) fun _ _ => rfl

theorem Holds.gives_define_function {result : UnitType} {params : List Member}
    (h : Holds tree file s.graph s.table v i) (hi : i.content = .function result params)
    (hResult : result.isNamed = true) (hParams : ∀ p ∈ params, p.type.isNamed = true) :
    Gives (define (n + 1) (m + 1) v) s [Pxd.prototypeValue i.name
      (Pxd.argumentsValue (params.map fun p => Pxd.cNameValue p.type.value p.name))
      result.value] s := by
  have hForm := h.form
  have hContent := h.content
  rw [hi] at hForm hContent
  obtain ⟨⟨w, hw, hShows⟩, vs, hList, hAll⟩ := hContent
  have hType := hShows.shows.gives_mention ho (n := n + 1) hResult (by have := hShows.height; omega)
  have hArgs := gives_mapM_forall₂ hAll fun _ p hp hPart => hPart.gives_mention ho hn (hParams p hp)
  have hExprs : ∀ a ∈ params.map fun p => Pxd.cNameValue p.type.value p.name,
      a.isOf .expr = true := List.forall_mem_map.2 fun _ _ => rfl
  have hSignature : Gives (mentionSignature (mention (n + 1)) v fun _ => pure ()) s
      (Pxd.argumentsValue (params.map fun p => Pxd.cNameValue p.type.value p.name), result.value)
      s := by
    refine Gives.bind (gives_fieldItems hList) (Gives.bind hArgs ?_)
    refine Gives.bind (gives_build (Pxd.buildArguments_eq hExprs)) ?_
    exact Gives.bind (gives_field hw) (Gives.bind hType (.pure _ s))
  refine Gives.bind gives_origin (Gives.get ?_)
  rw [hForm]
  refine Gives.bind (Gives.bind (gives_field h.name) (Gives.bind hSignature ?_)) (.pure _ s)
  exact gives_build (Pxd.build_cFunctionDecl_eq result.value_isOf _ _)

theorem Holds.gives_define_global
    (h : Holds tree file s.graph s.table v i) (hi : i.content = .global type)
    (hNamed : type.isNamed = true) :
    Gives (define (n + 1) (m + 1) v) s [declarationValue type i.name] s := by
  have hForm := h.form
  have hContent := h.content
  rw [hi] at hForm hContent
  obtain ⟨w, hw, hShows⟩ := hContent
  have hType := hShows.shows.gives_mention ho (n := n + 1) hNamed (by have := hShows.height; omega)
  refine Gives.bind gives_origin (Gives.get ?_)
  rw [hForm]
  refine Gives.bind (gives_field h.name) (Gives.bind (gives_field hw) (Gives.bind hType ?_))
  exact Gives.bind (gives_declaration type i.name) (.pure _ s)

omit ho hn in
/-- What a typedef could define on the spot is not unnamed if its type is named. -/
theorem Shows.isTrue_name {low : Nat} {p : Pxd.Kind × String}
    (h : Shows s.graph low w type) (hNamed : type.isNamed = true)
    (hp : (s.graph.form? w).bind bodyKind? = some p) :
    ∃ own, s.graph.field? w "name" = some own ∧ own.isTrue = true := by
  cases h with
  | tagged _ _ h3 => exact ⟨_, h3, by simpa [UnitType.isNamed, Value.isTrue] using hNamed⟩
  | plain _ _ h1 | pointer _ _ h1 =>
    simp [Graph.form?_of_get? _ h1, qualifiedEntry, bodyKind?] at hp
  | array _ h1 => simp [Graph.form?_of_get? _ h1, arrayEntry, bodyKind?] at hp
  | function _ h1 => simp [Graph.form?_of_get? _ h1, functionTypeEntry, bodyKind?] at hp

theorem Holds.gives_define_typedef
    (h : Holds tree file s.graph s.table v i) (hi : i.content = .typedef type)
    (hNamed : type.isNamed = true) : Gives (define (n + 1) (m + 1) v) s
      [.node .cTypedefDecl [("value", declarationValue type i.name)]] s := by
  have hForm := h.form
  have hContent := h.content
  rw [hi] at hForm hContent
  obtain ⟨w, hw, hShows, _⟩ := hContent
  have hType := hShows.shows.gives_mention ho (n := n + 1) hNamed (by have := hShows.height; omega)
  have hPlain : Gives (do declaration (← mention (n + 1) (← field v "typ")) (.text i.name)) s
      (declarationValue type i.name) s :=
    Gives.bind (gives_field hw) (Gives.bind hType (gives_declaration type i.name))
  have hFinal : Gives (do pure [← build .cTypedefDecl [declarationValue type i.name]]) s
      [.node .cTypedefDecl [("value", declarationValue type i.name)]] s :=
    Gives.bind (gives_build (build_cTypedefDecl_eq rfl)) (.pure _ s)
  refine Gives.bind gives_origin (Gives.get ?_)
  rw [hForm]
  refine Gives.bind (gives_field h.name) (Gives.bind (gives_field hw) ?_)
  refine Gives.bind gives_origin (Gives.get ?_)
  rw [ho]
  cases hp : (s.graph.form? w).bind bodyKind? with
  | none => exact Gives.bind hPlain hFinal
  | some p =>
    obtain ⟨own, hOwn, hTrue⟩ := hShows.shows.isTrue_name hNamed hp
    refine Gives.bind (gives_field hOwn) ?_
    rw [if_pos hTrue]
    exact Gives.bind hPlain hFinal

omit ho hn in
theorem Holds.gives_define_typedef_unnamed {stmts : List Value} (ho : s.graph.origin = .unit)
    (h : Holds tree file s.graph s.table v i) (hi : i.content = .typedef (.tagged d ""))
    (hw : s.graph.field? v "typ" = some w)
    (hKind : (s.graph.form? w).bind bodyKind? = some (kind, held))
    (hOwn : s.graph.field? w "name" = some (.text ""))
    (hItems : s.graph.field? w held = some (.list vs))
    (hStmts : Gives (vs.mapM (mention (n + 1))) s stmts s)
      (hAre : ∀ w ∈ stmts, w.isOf .stmt = true) :
    Gives (define (n + 1) (m + 1) v) s
      [.node .cTypedefDecl [("value", definitionValue kind i.name stmts)]] s := by
  have hForm := h.form
  rw [hi] at hForm
  have hBody : isBodyKind kind = true := by
    cases hf : s.graph.form? w with
    | none => simp [hf] at hKind
    | some form => cases form <;> simp_all [bodyKind?] <;> simp [← hKind.1, isBodyKind]
  have hIsStmt : (definitionValue kind i.name stmts).isOf .stmt = true := by
    cases kind <;> first | rfl | cases hBody
  refine Gives.bind gives_origin (Gives.get ?_)
  rw [hForm]
  refine Gives.bind (gives_field h.name) (Gives.bind (gives_field hw) ?_)
  refine Gives.bind gives_origin (Gives.get ?_)
  rw [ho, hKind]
  refine Gives.bind (gives_field hOwn) ?_
  rw [if_neg (by simp [Value.isTrue])]
  refine Gives.bind (gives_fieldItems hItems) (Gives.bind hStmts ?_)
  refine Gives.bind (gives_build (build_definition_eq hBody i.name hAre)) ?_
  exact Gives.bind (gives_build (build_cTypedefDecl_eq hIsStmt)) (.pure _ s)

end Define

/-! ### All declarations of a unit -/

section Unit

variable {items : List Item} {file : Nat} {i : Item}

theorem FlatUnit.eq_of_cursor_eq (h : FlatUnit tree items) {i j : Item} (hi : i ∈ items)
    (hj : j ∈ items) (hEq : i.cursor = j.cursor) : i = j := by
  obtain ⟨before, after, rfl⟩ := List.append_of_mem hi
  rcases List.mem_append.1 hj with hj | hj
  · exact absurd hEq.symm (h.next.cursor_ne hj)
  · rcases List.mem_cons.1 hj with rfl | hj
    · rfl
    · obtain ⟨between, after, rfl⟩ := List.append_of_mem hj
      have h' : FlatUnit tree ((before ++ i :: between) ++ j :: after) := by simpa using h
      exact absurd hEq (h'.next.cursor_ne (by simp))

theorem FlatUnit.find_tag (h : FlatUnit tree items) (hi : i ∈ items) {own : String}
    (hTag : i.content = .typedef (.tagged d own)) :
    ∃ j ∈ items, items.find? (·.cursor == d) = some j ∧ j.cursor = d ∧ j.isTag = true ∧
        j.name = own := by
  obtain ⟨before, after, hItems⟩ := List.append_of_mem hi
  obtain ⟨j, hc, hIsTag, hj⟩ := h.tags before i after hItems (.tagged d own)
    (by simp [Item.types, hTag]) d (by simp [UnitType.tags])
  have hj : j ∈ items := by
    rcases hj with hj | rfl
    · simp [hItems, hj]
    · exact hi
  have hFind : items.find? (·.cursor == d) = some j := by
    cases hf : items.find? (·.cursor == d) with
    | none =>
      have := List.find?_eq_none.1 hf j hj
      simp [hc] at this
    | some k =>
      have hk : k.cursor = d := by simpa using List.find?_some hf
      rw [h.eq_of_cursor_eq (List.mem_of_find?_eq_some hf) hj (hk.trans hc.symm)]
  have hContent := (h.declares i hi).content
  rw [hTag] at hContent
  have hSpelling := (h.declares j hj).stands.spelling
  rw [hc] at hSpelling
  have hName : j.name = own := by
    cases hContent with
    | tagged _ _ _ hs => simpa using hSpelling.symm.trans hs
  exact ⟨j, hj, hFind, hc, hIsTag, hName⟩

/-- The types of a declaration are named, if it is no typedef of something unnamed. -/
theorem FlatUnit.isNamed (h : FlatUnit tree items) (hi : i ∈ items)
    (hTag : ∀ d, i.content ≠ .typedef (.tagged d "")) : ∀ type ∈ i.types, type.isNamed = true := by
  intro type hType
  rcases h.named i hi type hType with hNamed | ⟨d, hd⟩
  · exact hNamed
  · exact absurd hd (hTag d)

theorem targetValue_of_ne (hne : ∀ d, type ≠ .tagged d "") (name : String) :
    targetValue items name type = declarationValue type name := by
  unfold targetValue
  split
  · exact absurd rfl (hne _)
  · rfl

theorem FlatUnit.gives_define_unnamed (h : FlatUnit tree items)
    (hs : Stored tree file items s.graph s.table) (hi : i ∈ items) {v : Value}
    (hTypedef : i.content = .typedef (.tagged d "")) (hHolds : Holds tree file s.graph s.table v i)
    {n : Nat} (hn : s.graph.entries.size ≤ n) :
    Gives (define (n + 1) (m + 1) v) s [i.statement items] s := by
  obtain ⟨j, hj, hFind, rfl, hTag, hName⟩ := h.find_tag hi hTypedef
  have hContent := hHolds.content
  rw [hTypedef] at hContent
  obtain ⟨w, hw, _, hTagged⟩ := hContent
  obtain ⟨id, hKnown, hHolds'⟩ := hs.known hj hTag
  obtain rfl : w = .link id := Option.some.inj ((hTagged _ _ rfl).1.symm.trans hKnown.table)
  have hOwn := hHolds'.name
  rw [hName] at hOwn
  have hForm := hHolds'.form
  have hContent' := hHolds'.content
  have hTypes := h.isNamed hj
  cases hc : j.content with
  | record isUnion fields =>
    rw [hc] at hForm hContent'
    obtain ⟨_, vs, hMembers, hAll⟩ := hContent'
    have hStmts := gives_fields hs.origin hn hAll fun m hm =>
      hTypes (by simp [hc]) m.type (by simp only [Item.types, hc]; exact List.mem_map_of_mem hm)
    simp only [Item.statement, hTypedef, targetValue, hFind, Option.map_some, hc]
    refine hHolds.gives_define_typedef_unnamed hs.origin hTypedef hw ?_ hOwn hMembers hStmts
      (fields_areStatements fields)
    cases isUnion <;> rw [hForm] <;> rfl
  | enumeration constants =>
    rw [hc] at hForm hContent'
    obtain ⟨_, vs, hValues, hAll⟩ := hContent'
    simp only [Item.statement, hTypedef, targetValue, hFind, Option.map_some, hc]
    refine hHolds.gives_define_typedef_unnamed hs.origin hTypedef hw ?_ hOwn hValues
      (gives_constants hAll) (constants_areStatements constants)
    rw [hForm]
    rfl
  | _ => simp [Item.isTag, hc] at hTag

/-- **What a declaration has been read into is defined by its statement.** -/
theorem FlatUnit.gives_define (h : FlatUnit tree items)
    (hs : Stored tree file items s.graph s.table) (hi : i ∈ items) (hNew : i.isRedundant = false)
    {n : Nat} (hn : s.graph.entries.size ≤ n) :
    Gives (define (n + 1) (m + 1) (nodeOf tree s.table i)) s [i.statement items] s := by
  obtain ⟨id, hid, hHolds⟩ := hs.node i hi hNew
  rw [Stored.nodeOf_eq hid]
  have ho := hs.origin
  have hTypes := h.isNamed hi
  cases hc : i.content with
  | record isUnion fields =>
    simp only [Item.types, hc, Item.statement] at hTypes ⊢
    exact hHolds.gives_define_record ho hn hc fun m hm => hTypes (by simp) m.type
      (List.mem_map_of_mem hm)
  | enumeration constants =>
    simp only [hc, Item.statement]
    exact hHolds.gives_define_enumeration hc
  | function result params =>
    simp only [Item.types, hc, Item.statement] at hTypes ⊢
    exact hHolds.gives_define_function ho hn hc (hTypes (by simp) result (by simp)) fun p hp =>
      hTypes (by simp) p.type (List.mem_cons_of_mem _ (List.mem_map_of_mem hp))
  | global type =>
    simp only [Item.types, hc, Item.statement] at hTypes ⊢
    exact hHolds.gives_define_global ho hn hc (hTypes (by simp) type (by simp))
  | typedef type =>
    by_cases hne : ∀ d, type ≠ .tagged d ""
    · simp only [Item.types, hc, Item.statement] at hTypes ⊢
      rw [targetValue_of_ne hne]
      exact hHolds.gives_define_typedef ho hn hc (hTypes (by simpa using hne) type (by simp))
    · simp only [ne_eq, Classical.not_forall, Classical.not_not] at hne
      obtain ⟨d, rfl⟩ := hne
      exact h.gives_define_unnamed hs hi hc hHolds hn

end Unit

end PxdGen.Index
