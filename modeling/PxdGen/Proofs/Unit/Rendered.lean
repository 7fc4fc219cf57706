import PxdGen.Proofs.Decl.Body
import PxdGen.Proofs.Render.Module
import PxdGen.Proofs.Unit.Closed
import PxdGen.Proofs.Unit.Rehash
/-! # The text of a flat unit

The module of a flat unit is rendered, if the sizes of its arrays can be written out. Every node of
it has been made with its checks. Its statements are six deep in one another at most, however deep
its types are, and none of them is of a sort that stops the work. Units that are not flat may have
no text.
-/

namespace PxdGen.Index

open Decl Decl.Work

variable {ws args : List Value} {fields : List (String × Value)} {kind : Pxd.Kind} {type : UnitType}
  {n : Nat} {v : Value} {i : Item}

/-! ### Nodes -/

/-- A node that has been made, and whose numbers can be written out. -/
structure IsWritten (v : Value) : Prop where
  made : Pxd.Made v
  modest : Pxd.isModest v = true

/-- What stands in a field of such a node. -/
inductive IsFilling : Value → Prop where
  | plain {x : Value} : x.kind? = none → (∀ ws, x ≠ .list ws) → Pxd.isModest x = true → IsFilling x
  | node {v : Value} : IsWritten v → IsFilling v
  | list {ws : List Value} : (∀ w ∈ ws, IsWritten w) → IsFilling (.list ws)

theorem isFilling_text (t : String) : IsFilling (.text t) := .plain rfl (by simp) rfl

theorem isFilling_flag (b : Bool) : IsFilling (.flag b) := .plain rfl (by simp) rfl

theorem isFilling_nothing : IsFilling .nothing := .plain rfl (by simp) rfl

theorem IsFilling.made {x : Value} (h : IsFilling x) :
    ∀ w, Pxd.Carries x w → w.kind?.isSome = true → Pxd.Made w := by
  cases h with
  | plain hKind hList _ => exact Pxd.made_of_plain hKind hList
  | list h => exact Pxd.made_of_list fun w hw => (h w hw).made
  | node h =>
    have hMade := h.made
    cases hMade with
    | single hs => exact Pxd.made_of_node (.single hs)
    | built hb hl hp => exact Pxd.made_of_node (.built hb hl hp)

theorem areModest_of_forall (h : ∀ w ∈ ws, Pxd.isModest w = true) : Pxd.areModest ws = true := by
  induction ws with
  | nil => rfl
  | cons w ws ih =>
    simp only [Pxd.areModest, Bool.and_eq_true]
    exact ⟨h w (by simp), ih fun u hu => h u (by simp [hu])⟩

theorem IsFilling.modest {x : Value} (h : IsFilling x) : Pxd.isModest x = true := by
  cases h with
  | plain _ _ hModest => exact hModest
  | node h => exact h.modest
  | list h =>
    simp only [Pxd.isModest]
    exact areModest_of_forall fun w hw => (h w hw).modest

theorem haveModest_of_forall
    (h : ∀ x ∈ fields.map (·.2), Pxd.isModest x = true) : Pxd.haveModest fields = true := by
  induction fields with
  | nil => rfl
  | cons f fields ih =>
    simp only [Pxd.haveModest, Bool.and_eq_true]
    exact ⟨h f.2 (by simp), ih fun x hx => h x (List.mem_cons_of_mem _ hx)⟩

/-- What is built of such parts is such a node. -/
theorem isWritten_of_build (h : Pxd.build kind args = .ok (.node kind fields))
    (hLists : ∀ name ∈ kind.lists, ∃ ws, Pxd.fieldOf fields name = .list ws)
    (hDots : Pxd.hasFewDots kind fields = true) (hParts : ∀ x ∈ fields.map (·.2), IsFilling x) :
    IsWritten (.node kind fields) where
  made := .built h hLists fun x hx => (hParts x hx).made
  modest := by
    simp only [Pxd.isModest, Bool.and_eq_true]
    exact ⟨hDots, haveModest_of_forall fun x hx => (hParts x hx).modest⟩

theorem exists_list_of_lists_eq {name : String}
    (h : kind.lists = [name]) (hList : Pxd.fieldOf fields name = .list ws) :
    ∀ name ∈ kind.lists, ∃ ws, Pxd.fieldOf fields name = .list ws := by
  rw [h]
  exact List.forall_mem_singleton.2 ⟨ws, hList⟩

theorem isWritten_single (h : kind.isSingle = true)
    (hDots : Pxd.hasFewDots kind [] = true) : IsWritten (Pxd.single kind) :=
  ⟨.single h, by simp [Pxd.single, Pxd.isModest, Pxd.haveModest, hDots]⟩

/-! ### Types -/

mutual

/-- Whether the sizes of all arrays in a type can be written out. -/
def UnitType.isWritable : UnitType → Bool
  | .plain _ _ _ | .tagged _ _ => true
  | .pointer t _ _ => t.isWritable
  | .array t count => Text.isWritable count && t.isWritable
  | .function result args => result.isWritable && args.areWritable

def UnitTypes.areWritable : UnitTypes → Bool
  | .nil => true
  | .cons t rest => t.isWritable && rest.areWritable

end

mutual

/-- What a type stands for can be written out if the sizes of all arrays of the unit can. -/
theorem Tree.Denotes.isWritable {tree : Tree}
    (hCounts : ∀ t, Text.isWritable (tree.type t).count = true) {t : TypeRef} {type : UnitType}
    (h : tree.Denotes t type) : type.isWritable = true := by
  cases h with
  | simple | typedef | tagged => rfl
  | pointer _ _ _ ht => exact ht.isWritable hCounts
  | @array _ e _ element count _ _ _ _ hCount he =>
    have hEq : count = (tree.type t).count := by
      unfold Tree.elementCount at hCount
      dsimp only at hCount
      split at hCount
      · cases hCount
      · exact (Except.ok.inj hCount).symm
    rw [UnitType.isWritable, hEq, hCounts t, he.isWritable hCounts, Bool.and_self]
  | function _ _ _ hr ha =>
    rw [UnitType.isWritable, hr.isWritable hCounts, ha.areWritable hCounts, Bool.and_self]

theorem Tree.DenotesAll.areWritable {tree : Tree}
    (hCounts : ∀ t, Text.isWritable (tree.type t).count = true) {ts : List TypeRef}
    {types : UnitTypes} (h : tree.DenotesAll ts types) : types.areWritable = true := by
  cases h with
  | nil => rfl
  | cons h hs =>
    rw [UnitTypes.areWritable, h.isWritable hCounts, hs.areWritable hCounts, Bool.and_self]

end

theorem isWritten_name (name : String) :
    IsWritten (.node .name [("id", .text name), ("ctx", Pxd.single .param)]) := by
  have hBuild : Pxd.build .name [.text name, Pxd.single .param] =
      .ok (.node .name [("id", .text name), ("ctx", Pxd.single .param)]) := rfl
  refine isWritten_of_build hBuild (fun _ h => by cases h) rfl ?_
  simp only [List.map, List.forall_mem_cons]
  exact ⟨isFilling_text name, .node (isWritten_single rfl rfl), by simp⟩

theorem isWritten_namedValue (name : String) (c v : Bool) : IsWritten (namedValue name c v) := by
  have hBuild : Pxd.build .typeName [.node .name [("id", .text name), ("ctx", Pxd.single .param)],
      .flag c, .flag v] = .ok (namedValue name c v) := rfl
  refine isWritten_of_build hBuild (fun _ h => by cases h) rfl ?_
  simp only [List.map, List.forall_mem_cons]
  exact ⟨.node (isWritten_name name), isFilling_flag c, isFilling_flag v, by simp⟩

theorem isWritten_cNameValue {type : Value} (h : IsWritten type) (hType : type.isOf .ctype = true)
    (name : String) : IsWritten (Pxd.cNameValue type name) := by
  refine isWritten_of_build (Pxd.build_cName_eq hType name) (fun _ h => by cases h) rfl ?_
  simp only [List.map, List.forall_mem_cons]
  exact ⟨.node h, isFilling_text name, by simp⟩

theorem isWritten_argumentsValue (h : ∀ v ∈ args, IsWritten v)
    (hArgs : ∀ v ∈ args, v.isOf .expr = true) : IsWritten (Pxd.argumentsValue args) := by
  refine isWritten_of_build (Pxd.buildArguments_eq hArgs) ?_ rfl ?_
  · intro name hName
    have hNames : name ∈ ["args", "defaults"] := hName
    simp only [List.mem_cons, List.not_mem_nil, or_false] at hNames
    rcases hNames with rfl | rfl <;> exact ⟨_, rfl⟩
  · simp only [List.map, List.forall_mem_cons]
    exact ⟨.list h, isFilling_nothing, isFilling_nothing, .list (by simp), by simp⟩

mutual

theorem UnitType.isWritten_value (t : UnitType) (h : t.isWritable = true) : IsWritten t.value := by
  cases t with
  | plain name c v => exact isWritten_namedValue name c v
  | tagged _ name => exact isWritten_namedValue name false false
  | pointer t c v =>
    have hBuild :
        Pxd.build .pointer [t.value, .flag c, .flag v] = .ok (UnitType.pointer t c v).value :=
      Pxd.build_eq .pointer (by simp) (by simp) rfl rfl
        (List.forall_mem_singleton.2 (Pxd.run_field_one t.value_isOf))
    refine isWritten_of_build hBuild (fun _ h => by cases h) rfl ?_
    simp only [List.map, List.forall_mem_cons]
    exact ⟨.node (t.isWritten_value h), isFilling_flag c, isFilling_flag v, by simp⟩
  | array t count =>
    simp only [UnitType.isWritable, Bool.and_eq_true] at h
    refine isWritten_of_build (Pxd.build_array_eq t.value_isOf count) (fun _ h => by cases h) rfl ?_
    simp only [List.map, List.forall_mem_cons]
    exact ⟨.node (t.isWritten_value h.2), .plain rfl (by simp) h.1, by simp⟩
  | function result args =>
    simp only [UnitType.isWritable, Bool.and_eq_true] at h
    refine isWritten_of_build (Pxd.build_cFunctionType_eq result.value_isOf args.values)
      (fun _ h => by cases h) rfl ?_
    simp only [List.map, List.forall_mem_cons]
    exact ⟨.node (isWritten_argumentsValue (args.areWritten_values h.2) args.values_isOf),
      .node (result.isWritten_value h.1), by simp⟩

theorem UnitTypes.areWritten_values (ts : UnitTypes) (h : ts.areWritable = true) :
    ∀ v ∈ ts.values, IsWritten v := by
  cases ts with
  | nil => simp [UnitTypes.values]
  | cons t rest =>
    simp only [UnitTypes.areWritable, Bool.and_eq_true] at h
    rw [UnitTypes.values]
    exact List.forall_mem_cons.2
      ⟨isWritten_cNameValue (t.isWritten_value h.1) t.value_isOf "", rest.areWritten_values h.2⟩

end

/-! ### Statements -/

theorem nests_node (hDef : kind ≠ .cFunctionDef) (hRaise : kind ≠ .raiseStmt)
    (hBlocks : ∀ name ∈ kind.blocks, ∀ ws, Pxd.fieldOf fields name = .list ws →
    ∀ w ∈ ws, Pxd.Nests n w)
    (hDeclared : kind.isDeclaring = true → Pxd.Nests n (Pxd.fieldOf fields "value")) :
    Pxd.Nests (n + 1) (.node kind fields) := by
  refine .intro ?_ fun w hw _ => ?_
  · rintro ⟨fields', h | ⟨h, -⟩⟩
    · cases h
      exact hDef rfl
    · cases h
      exact hRaise rfl
  · cases hw with
    | block hName hList hw => exact hBlocks _ hName _ hList w hw
    | declared hd => exact hDeclared hd

theorem nests_plain (hDef : kind ≠ .cFunctionDef) (hRaise : kind ≠ .raiseStmt)
    (hBlocks : kind.blocks = []) (hDeclaring : kind.isDeclaring = false)
    (n : Nat) : Pxd.Nests (n + 1) (.node kind fields) :=
  nests_node hDef hRaise (by simp [hBlocks]) (by simp [hDeclaring])

theorem nests_body (hDef : kind ≠ .cFunctionDef) (hRaise : kind ≠ .raiseStmt)
    (hBlocks : kind.blocks = ["body"]) (hDeclaring : kind.isDeclaring = false)
    (hBody : Pxd.fieldOf fields "body" = .list ws) (h : ∀ w ∈ ws, Pxd.Nests n w) :
    Pxd.Nests (n + 1) (.node kind fields) := by
  refine nests_node hDef hRaise ?_ (by simp [hDeclaring])
  intro name hName ws' hList
  rw [hBlocks] at hName
  obtain rfl := List.mem_singleton.1 hName
  cases hBody.symm.trans hList
  exact h

/-- A statement that can be written where there is room for `n` levels. -/
structure IsStatement (n : Nat) (v : Value) : Prop extends IsWritten v where
  isOf : v.isOf .stmt = true
  nests : Pxd.Nests n v

theorem isStatement_exprStmt (h : IsWritten v) (hv : v.isOf .expr = true) (n : Nat) :
    IsStatement (n + 1) (.node .exprStmt [("value", v)]) where
  toIsWritten := by
    refine isWritten_of_build (build_exprStmt_eq hv) (fun _ h => by cases h) rfl ?_
    simpa using IsFilling.node h
  isOf := rfl
  nests := nests_plain (by simp) (by simp) rfl rfl n

theorem isStatement_declarationValue (h : type.isWritable = true) (name : String)
    (n : Nat) : IsStatement (n + 1) (declarationValue type name) :=
  isStatement_exprStmt (isWritten_cNameValue (type.isWritten_value h) type.value_isOf name) rfl n

theorem isStatement_constantValue (name : String) (n : Nat) :
    IsStatement (n + 1) (constantValue name) := isStatement_exprStmt (isWritten_name name) rfl n

theorem isStatement_passStmt (n : Nat) : IsStatement (n + 1) (Pxd.single .passStmt) :=
  ⟨isWritten_single rfl rfl, rfl, nests_plain (by simp) (by simp) rfl rfl n⟩

theorem isStatement_definitionValue (hKind : isBodyKind kind = true) (name : String)
    {stmts : List Value} (h : ∀ v ∈ stmts, IsStatement (n + 1) v) :
    IsStatement (n + 2) (definitionValue kind name stmts) := by
  have hBuild := build_definition_eq hKind name fun v hv => (h v hv).isOf
  have hBody : ∃ body, bodyOf stmts = .list body ∧ ∀ v ∈ body, IsStatement (n + 1) v := by
    refine ⟨_, rfl, ?_⟩
    split
    · exact List.forall_mem_singleton.2 (isStatement_passStmt n)
    · exact h
  obtain ⟨body, hEq, hBody⟩ := hBody
  rw [definitionValue, hEq] at hBuild ⊢
  have hParts : ∀ x ∈ [("name", Value.text name), ("body", Value.list body)].map (·.2),
      IsFilling x := by
    simp only [List.map, List.forall_mem_cons]
    exact ⟨isFilling_text name, .list fun v hv => (hBody v hv).toIsWritten, by simp⟩
  have hNests : ∀ v ∈ body, Pxd.Nests (n + 1) v := fun v hv => (hBody v hv).nests
  obtain rfl | rfl | rfl : kind = .structDef ∨ kind = .unionDef ∨ kind = .enumDef := by
    unfold isBodyKind at hKind
    split at hKind
    · exact .inl rfl
    · exact .inr (.inl rfl)
    · exact .inr (.inr rfl)
    · cases hKind
  all_goals exact ⟨isWritten_of_build hBuild (exists_list_of_lists_eq rfl rfl) rfl hParts, rfl,
      nests_body (by simp) (by simp) rfl rfl rfl hNests⟩

theorem isStatement_cdefValue (h : IsStatement n v) : IsStatement (n + 1) (cdefValue v) where
  toIsWritten := by
    refine isWritten_of_build (build_cdefDecl_eq h.isOf) (exists_list_of_lists_eq rfl rfl) rfl ?_
    simp only [List.map, List.forall_mem_cons]
    exact ⟨.list (by simp), .node h.toIsWritten, by simp⟩
  isOf := rfl
  nests := nests_node (by simp) (by simp) (fun _ h => by cases h) fun _ => h.nests

theorem isStatement_cTypedefDecl (h : IsStatement n v) :
    IsStatement (n + 1) (.node .cTypedefDecl [("value", v)]) where
  toIsWritten := by
    refine isWritten_of_build (build_cTypedefDecl_eq h.isOf) (fun _ h => by cases h) rfl ?_
    simpa using IsFilling.node h.toIsWritten
  isOf := rfl
  nests := nests_node (by simp) (by simp) (fun _ h => by cases h) fun _ => h.nests

theorem isStatement_prototypeValue (name : String) {result : UnitType}
    (hArgs : ∀ v ∈ args, IsWritten v) (hExprs : ∀ v ∈ args, v.isOf .expr = true)
    (hResult : result.isWritable = true) (n : Nat) :
    IsStatement (n + 1) (Pxd.prototypeValue name (Pxd.argumentsValue args) result.value) where
  toIsWritten := by
    refine isWritten_of_build (Pxd.build_cFunctionDecl_eq result.value_isOf name args)
      (fun _ h => by cases h) rfl ?_
    simp only [List.map, List.forall_mem_cons]
    exact ⟨isFilling_text name, .node (isWritten_argumentsValue hArgs hExprs),
      .node (result.isWritten_value hResult), isFilling_nothing, by simp⟩
  isOf := rfl
  nests := nests_plain (by simp) (by simp) rfl rfl n

/-! ### The unit -/

section Unit

variable {tree : Tree} {items : List Item} (hUnit : FlatUnit tree items)
  (hCounts : ∀ t, Text.isWritable (tree.type t).count = true)

include hUnit hCounts

theorem FlatUnit.isWritable {i : Item} (hi : i ∈ items) {type : UnitType} (hType : type ∈ i.types) :
    type.isWritable = true := by
  obtain ⟨t, ht⟩ := (hUnit.declares i hi).exists_denotes hType
  exact ht.isWritable hCounts

theorem FlatUnit.isStatement_record (hi : i ∈ items) {isUnion : Bool} {fields : List Member}
    (hContent : i.content = .record isUnion fields) (name : String) :
    IsStatement 2 (recordValue isUnion name fields) := by
  refine isStatement_definitionValue (by cases isUnion <;> rfl) name
    (List.forall_mem_map.2 fun m hm => ?_)
  refine isStatement_declarationValue (hUnit.isWritable hCounts hi ?_) m.name 0
  simp only [Item.types, hContent]
  exact List.mem_map_of_mem hm

omit hUnit hCounts in
theorem isStatement_enumerationValue (name : String) (constants : List Constant) :
    IsStatement 2 (enumerationValue name constants) :=
  isStatement_definitionValue rfl name
    (List.forall_mem_map.2 fun k _ => isStatement_constantValue k.name 0)

theorem FlatUnit.isStatement_targetValue (hi : i ∈ items)
    (hContent : i.content = .typedef type) (name : String) :
    IsStatement 2 (targetValue items name type) := by
  have hType :
    type.isWritable = true := hUnit.isWritable hCounts hi (by simp [Item.types, hContent])
  unfold targetValue
  split
  · rename_i d
    cases hFind : items.find? (·.cursor == d) with
    | none => exact isStatement_declarationValue hType name 1
    | some j =>
      have hj := List.mem_of_find?_eq_some hFind
      simp only [Option.map_some]
      split
      · rename_i isUnion fields hj'
        exact hUnit.isStatement_record hCounts hj (Option.some.inj hj') name
      · exact isStatement_enumerationValue name _
      · exact isStatement_declarationValue hType name 1
  · exact isStatement_declarationValue hType name 1

theorem FlatUnit.isStatement (hi : i ∈ items) : IsStatement 3 (i.statement items) := by
  unfold Item.statement
  split
  · rename_i isUnion fields hContent
    exact isStatement_cdefValue (hUnit.isStatement_record hCounts hi hContent i.name)
  · exact isStatement_cdefValue (isStatement_enumerationValue i.name _)
  · rename_i result params hContent
    have hTypes : ∀ type ∈ result :: params.map (·.type), type.isWritable = true := by
      intro type hType
      exact hUnit.isWritable hCounts hi (by simpa only [Item.types, hContent] using hType)
    refine isStatement_prototypeValue i.name (List.forall_mem_map.2 fun p hp => ?_)
      (List.forall_mem_map.2 fun _ _ => rfl) (hTypes result (by simp)) 2
    have hType := hTypes p.type (List.mem_cons_of_mem _ (List.mem_map_of_mem hp))
    exact isWritten_cNameValue (p.type.isWritten_value hType) p.type.value_isOf p.name
  · rename_i type hContent
    exact isStatement_declarationValue
      (hUnit.isWritable hCounts hi (by simp [Item.types, hContent])) i.name 2
  · rename_i type hContent
    exact isStatement_cTypedefDecl (hUnit.isStatement_targetValue hCounts hi hContent i.name)

theorem FlatUnit.isWritten_flatModule (header : String) :
    IsWritten (flatModule header items) ∧ Pxd.Nests 6 (flatModule header items) := by
  have hStmts : ∀ v ∈ (items.filter (Item.isShown items)).map (Item.statement items),
      IsStatement 3 v :=
    List.forall_mem_map.2 fun i hi => hUnit.isStatement hCounts (List.mem_filter.1 hi).1
  have hExtern : IsStatement 4 (.node .externFrom [("name", .text header),
      ("body", .list ((items.filter (Item.isShown items)).map (Item.statement items)))]) := by
    have hBuild := build_externFrom_eq header fun v hv => (hStmts v hv).isOf
    refine ⟨isWritten_of_build hBuild (exists_list_of_lists_eq rfl rfl) rfl ?_, rfl,
      nests_body (by simp) (by simp) rfl rfl rfl fun v hv => (hStmts v hv).nests⟩
    simp only [List.map, List.forall_mem_cons]
    exact ⟨isFilling_text header, .list fun v hv => (hStmts v hv).toIsWritten, by simp⟩
  have hCdef := isStatement_cdefValue hExtern
  have hBuild := build_moduleNode_eq (List.forall_mem_singleton.2 hCdef.isOf)
  refine ⟨isWritten_of_build hBuild (exists_list_of_lists_eq rfl rfl) rfl ?_,
    nests_body (by simp) (by simp) rfl rfl rfl (List.forall_mem_singleton.2 hCdef.nests)⟩
  simp only [List.map, List.forall_mem_singleton]
  exact .list (List.forall_mem_singleton.2 hCdef.toIsWritten)

end Unit

theorem gives_rendering {α : Type} {x : Pxd.Rendering α} {a : α} {sheet : Pxd.Sheet}
    (h : Gives x {} a sheet) (s : Session) : ∃ s', Gives (rendering x) s a s' := by
  unfold rendering
  rw [show StateT.run (ExceptT.run x) {} = (.ok a, sheet) from h]
  exact ⟨_, Gives.bind (a := ()) (gives_modify.2 rfl) (.pure a _)⟩

/-- **A flat unit has a text**: it is read, translated and rendered without a fault, if the sizes of
its arrays can be written out. -/
theorem FlatUnit.exists_pxdText {tree : Tree} {items : List Item} (h : FlatUnit tree items)
    (hCounts : ∀ t, Text.isWritable (tree.type t).count = true) {s : Session}
    (ho : s.graph.origin = .unit) (header : String) :
    ∃ text s', Gives (pxdText tree header) s text s' := by
  obtain ⟨s₁, hModule⟩ := h.exists_translate ho header
  obtain ⟨hWritten, hNests⟩ := h.isWritten_flatModule hCounts header
  obtain ⟨text, sheet, hText⟩ := hWritten.made.gives_renderModule_of_nests rfl hWritten.modest
    (by omega) hNests {}
  obtain ⟨s₂, hRendering⟩ := gives_rendering hText s₁
  exact ⟨text, s₂, hModule.bind hRendering⟩

/-- **Which units have a text**: a flat unit has one, if the sizes of its arrays can be written out.
But as soon as a union is to be declared that has an enumeration among its members, no module can be
made. -/
theorem exists_pxdText_and_fails_of_union {s : Session} (ho : s.graph.origin = .unit) :
    (∀ (tree : Tree) (items : List Item) (header : String), FlatUnit tree items →
      (∀ t, Text.isWritable (tree.type t).count = true) →
      ∃ text s', Gives (pxdText tree header) s text s') ∧
    ∀ (v w header : Value) (vs members : List Value), v ∈ vs → s.graph.form? v = some .union →
      s.graph.field? v "members" = some (.list members) → w ∈ members →
      s.graph.form? w = some .enumeration → Fails (moduleOf (.list vs) header) s := by
  constructor
  · intro tree items header hUnit hCounts
    exact hUnit.exists_pxdText hCounts ho header
  · intro v w header vs members hv hUnion hMembers hw hForm
    exact fails_moduleOf_of_union ho hv hUnion hMembers hw hForm rfl

/-- A union with an enumeration in it, as declarations. -/
def unionOfEnumeration : Session where
  graph :=
    { origin := .unit
      entries := #[⟨.union, [("name", .text "U"), ("members", .list [.link 1])]⟩,
        ⟨.enumeration, [("name", .text "E"), ("values", .list [])]⟩] }

theorem exists_pxdText_and_fails_of_union_both :
    (∃ text s', Gives (pxdText repeatedName "t.h") { graph := { origin := .unit } } text s') ∧
      Fails (moduleOf (.list [.link 0]) (.text "t.h")) unionOfEnumeration := by
  have hCounts : ∀ t, Text.isWritable (repeatedName.type t).count = true := by
    intro t
    have hCount : (repeatedName.type t).count = -1 := by
      rcases t with _ | (_ | _ | _ | _ | _ | n) <;> rfl
    rw [hCount]
    rfl
  exact ⟨(exists_pxdText_and_fails_of_union rfl).1 _ _ _ flatUnit_repeatedName hCounts,
    (exists_pxdText_and_fails_of_union rfl).2 (.link 0) (.link 1) _ _ _ (List.mem_singleton_self _)
      rfl rfl (List.mem_singleton_self _) rfl⟩

end PxdGen.Index
