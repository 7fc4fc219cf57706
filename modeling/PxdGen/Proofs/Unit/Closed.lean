import PxdGen.Proofs.Unit.FlatModule
/-! # Closed modules

A module is closed if each type that is named in it is a builtin type or is declared by one of its
statements. The module of a flat unit is closed: what a type is tagged by has a statement of its
own, and so has a typedef, unless it only repeats the name of what it stands for.
-/

namespace PxdGen.Index

open Decl Decl.Work

variable {tree : Tree} {items : List Item} {i : Item}

variable {name own : String} {type : UnitType}

/-! ### Names in a module -/

def nameOf? : Value → Option String
  | .node .name fields => (Pxd.fieldOf fields "id").asText?
  | _ => none

/-- What a node is named by, if it stands for a type. -/
def ownTypeNames (kind : Pxd.Kind) (fields : List (String × Value)) : List String :=
  if kind = .typeName then (nameOf? (Pxd.fieldOf fields "name")).toList else []

mutual

/-- The names of the types in a value. -/
def typeNames : Value → List String
  | .node kind fields => ownTypeNames kind fields ++ typeNamesIn fields
  | .record fields => typeNamesIn fields
  | .list vs | .tuple vs => typeNamesOf vs
  | _ => []

def typeNamesOf : List Value → List String
  | [] => []
  | v :: rest => typeNames v ++ typeNamesOf rest

def typeNamesIn : List (String × Value) → List String
  | [] => []
  | (_, v) :: rest => typeNames v ++ typeNamesIn rest

end

/-- The name that the definition of a struct, union or enumeration declares. -/
def definedName? : Value → Option String
  | .node .structDef fields | .node .unionDef fields | .node .enumDef fields =>
    (Pxd.fieldOf fields "name").asText?
  | _ => none

/-- The name that a declaration gives to a type. -/
def synonymName? : Value → Option String
  | .node .exprStmt [(_, .node .cName fields)] => (Pxd.fieldOf fields "name").asText?
  | _ => none

def declaredName? : Value → Option String
  | .node .cdefDecl fields => definedName? (Pxd.fieldOf fields "value")
  | .node .cTypedefDecl fields =>
    (definedName? (Pxd.fieldOf fields "value")).or (synonymName? (Pxd.fieldOf fields "value"))
  | _ => none

/-- The names of the types without parts. -/
def builtinNames : List String :=
  ["void", "bint", "char", "unsigned char", "unsigned short", "unsigned int", "unsigned long",
    "unsigned long long", "signed char", "short", "int", "long", "long long", "float", "double",
    "long double"]

/-- Each type that a module names is builtin or is declared by a statement of the module. -/
def IsClosed (module : Value) : Prop :=
  ∀ name ∈ typeNames module,
    name ∈ builtinNames ∨ name ∈ (statements module).filterMap declaredName?

theorem mem_builtinNames {kind : String} (h : simpleName? kind = some name) :
    name ∈ builtinNames := by
  unfold simpleName? at h
  split at h <;> cases h <;> simp [builtinNames]

theorem mem_typeNamesOf {vs : List Value} :
    name ∈ typeNamesOf vs ↔ ∃ v ∈ vs, name ∈ typeNames v := by
  induction vs with
  | nil => simp [typeNamesOf]
  | cons v vs ih => simp [typeNamesOf, ih]

/-! ### The names that a C type mentions -/

mutual

def UnitType.names : UnitType → List String
  | .plain name _ _ | .tagged _ name => [name]
  | .pointer t _ _ | .array t _ => t.names
  | .function result args => args.names ++ result.names

def UnitTypes.names : UnitTypes → List String
  | .nil => []
  | .cons t rest => t.names ++ rest.names

end

mutual

theorem typeNames_value (t : UnitType) : typeNames t.value = t.names := by
  cases t with
  | plain name c v | tagged d name => rfl
  | pointer t c v | array t count =>
    have := typeNames_value t
    simp [UnitType.value, UnitType.names, typeNames, typeNamesIn, ownTypeNames, this]
  | function result args =>
    have hArgs := typeNamesOf_values args
    have hResult := typeNames_value result
    simp [UnitType.value, UnitType.names, typeNames, typeNamesIn, ownTypeNames,
      Pxd.argumentsValue, typeNamesOf, hArgs, hResult]

theorem typeNamesOf_values (ts : UnitTypes) : typeNamesOf ts.values = ts.names := by
  cases ts with
  | nil => rfl
  | cons t rest =>
    have hHead := typeNames_value t
    have hRest := typeNamesOf_values rest
    simp [UnitTypes.values, UnitTypes.names, typeNames, typeNamesIn, typeNamesOf, ownTypeNames,
      Pxd.cNameValue, hHead, hRest]

end

theorem typeNames_declarationValue (t : UnitType) (name : String) :
    typeNames (declarationValue t name) = t.names := by
  simp [declarationValue, Pxd.cNameValue, typeNames, typeNamesIn, ownTypeNames, typeNames_value]

theorem typeNames_cdefValue (v : Value) : typeNames (cdefValue v) = typeNames v := by
  simp [cdefValue, typeNames, typeNamesIn, typeNamesOf, ownTypeNames]

theorem mem_typeNames_definitionValue {kind : Pxd.Kind} (hKind : isBodyKind kind = true)
    {stmts : List Value} (h : name ∈ typeNames (definitionValue kind own stmts)) :
    ∃ v ∈ stmts, name ∈ typeNames v := by
  have hKind : kind ≠ .typeName := by
    rintro rfl
    cases hKind
  have h : name ∈ typeNamesOf (if stmts.isEmpty then [Pxd.single .passStmt] else stmts) := by
    simpa [definitionValue, bodyOf, typeNames, typeNamesIn, ownTypeNames, hKind] using h
  split at h
  · simp [typeNamesOf, Pxd.single, typeNames, typeNamesIn, ownTypeNames] at h
  · exact mem_typeNamesOf.1 h

theorem mem_typeNames_recordValue {isUnion : Bool} {fields : List Member}
    (h : name ∈ typeNames (recordValue isUnion own fields)) :
    ∃ m ∈ fields, name ∈ m.type.names := by
  obtain ⟨v, hv, hname⟩ := mem_typeNames_definitionValue (by cases isUnion <;> rfl) h
  obtain ⟨m, hm, rfl⟩ := List.mem_map.1 hv
  exact ⟨m, hm, by simpa [typeNames_declarationValue] using hname⟩

theorem not_mem_typeNames_enumerationValue (own name : String) (constants : List Constant) :
    name ∉ typeNames (enumerationValue own constants) := by
  intro h
  obtain ⟨v, hv, hname⟩ := mem_typeNames_definitionValue rfl h
  obtain ⟨k, -, rfl⟩ := List.mem_map.1 hv
  simp [constantValue, Pxd.single, typeNames, typeNamesIn, ownTypeNames] at hname

/-! ### What the names stand for -/

mutual

/-- A name in a type is builtin, or the name of a typedef, or that of something the type is tagged
by. -/
theorem Tree.Denotes.mem_names {t : TypeRef} {type : UnitType} (h : tree.Denotes t type)
    (hNamed : type.isNamed = true) {name : String} (hname : name ∈ type.names) :
    name ∈ builtinNames ∨ (∃ t kind, tree.typeKind t = .ok kind ∧ kind.name = "TYPEDEF" ∧
        tree.spelling (tree.declaration t) = .ok (some name)) ∨
      (name ≠ "" ∧ ∃ d ∈ type.tags, tree.spelling (.numbered d) = .ok (some name)) := by
  cases h with
  | simple hk hs hn =>
    obtain rfl := List.mem_singleton.1 hname
    exact .inl (mem_builtinNames hn)
  | typedef hk hn hs =>
    obtain rfl := List.mem_singleton.1 hname
    exact .inr (.inl ⟨t, _, hk, hn, hs⟩)
  | @tagged _ _ d _ hk hn hd hs =>
    obtain rfl := List.mem_singleton.1 hname
    exact .inr (.inr ⟨by simpa [UnitType.isNamed] using hNamed, d, by simp [UnitType.tags], hs⟩)
  | pointer hk hs hn ht | array hk hs hn he hc ht => exact ht.mem_names hNamed hname
  | function hk hs hn hr ha =>
    simp only [UnitType.isNamed, Bool.and_eq_true] at hNamed
    rcases List.mem_append.1 hname with hname | hname
    · refine (ha.mem_names hNamed.2 hname).imp_right (.imp_right fun ⟨hne, d, hd, hs⟩ => ?_)
      exact ⟨hne, d, List.mem_append_right _ hd, hs⟩
    · refine (hr.mem_names hNamed.1 hname).imp_right (.imp_right fun ⟨hne, d, hd, hs⟩ => ?_)
      exact ⟨hne, d, List.mem_append_left _ hd, hs⟩

theorem Tree.DenotesAll.mem_names {ts : List TypeRef} {types : UnitTypes}
    (h : tree.DenotesAll ts types) (hNamed : types.areNamed = true) {name : String}
    (hname : name ∈ types.names) :
    name ∈ builtinNames ∨ (∃ t kind, tree.typeKind t = .ok kind ∧ kind.name = "TYPEDEF" ∧
        tree.spelling (tree.declaration t) = .ok (some name)) ∨
      (name ≠ "" ∧ ∃ d ∈ types.tags, tree.spelling (.numbered d) = .ok (some name)) := by
  cases h with
  | nil => cases hname
  | cons ht hts =>
    simp only [UnitTypes.areNamed, Bool.and_eq_true] at hNamed
    rcases List.mem_append.1 hname with hname | hname
    · refine (ht.mem_names hNamed.1 hname).imp_right (.imp_right fun ⟨hne, d, hd, hs⟩ => ?_)
      exact ⟨hne, d, List.mem_append_left _ hd, hs⟩
    · refine (hts.mem_names hNamed.2 hname).imp_right (.imp_right fun ⟨hne, d, hd, hs⟩ => ?_)
      exact ⟨hne, d, List.mem_append_right _ hd, hs⟩

end

/-- The types of a declaration are read off the unit. -/
theorem Tree.Declares.exists_denotes (h : tree.Declares i)
    (hType : type ∈ i.types) : ∃ t, tree.Denotes t type := by
  have hContent := h.content
  unfold Item.types at hType
  cases hc : i.content with
  | record isUnion fields =>
    rw [hc] at hContent hType
    obtain ⟨m, hm, rfl⟩ := List.mem_map.1 hType
    exact ⟨_, (hContent.2 m hm).type⟩
  | enumeration constants => simp [hc] at hType
  | function result params =>
    rw [hc] at hContent hType
    rcases List.mem_cons.1 hType with rfl | hType
    · exact ⟨_, hContent.1⟩
    · obtain ⟨m, hm, rfl⟩ := List.mem_map.1 hType
      exact ⟨_, (hContent.2.2 m hm).type⟩
  | global t | typedef t =>
    rw [hc] at hContent hType
    obtain rfl := List.mem_singleton.1 hType
    exact ⟨_, hContent⟩

/-- The declaration of each typedef that the types of a unit mention is among the given ones. -/
def Tree.HasTypedefs (tree : Tree) (items : List Item) : Prop :=
  ∀ t kind, tree.typeKind t = .ok kind → kind.name = "TYPEDEF" →
    ∃ i ∈ items, tree.declaration t = .numbered i.cursor ∧ ∃ type, i.content = .typedef type

def Item.NamesType (name : String) (i : Item) : Prop :=
  i.name = name ∧ ((name ≠ "" ∧ i.isTag = true) ∨ ∃ type, i.content = .typedef type)

theorem isShown_of_tag (hTag : i.isTag = true) (hName : i.name ≠ "") :
    i.isShown items = true := by
  unfold Item.isTag at hTag
  unfold Item.isShown
  cases hc : i.content <;> simp_all

theorem declaredName?_of_tag (hTag : i.isTag = true) :
    declaredName? (i.statement items) = some i.name := by
  unfold Item.isTag at hTag
  unfold Item.statement
  cases hc : i.content with
  | record isUnion fields => cases isUnion <;> rfl
  | enumeration constants => rfl
  | _ => simp [hc] at hTag

theorem declaredName?_of_typedef (hc : i.content = .typedef type) :
    declaredName? (i.statement items) = some i.name := by
  have hTarget : ∀ v, v = targetValue items i.name type →
      (definedName? v).or (synonymName? v) = some i.name := by
    rintro v rfl
    unfold targetValue
    split
    · split
      · rename_i isUnion _ _
        cases isUnion <;> rfl
      · rfl
      · rfl
    · rfl
  unfold Item.statement
  rw [hc]
  exact hTarget _ rfl

/-- A typedef that is not shown repeats a name. -/
theorem eq_of_not_isShown (hc : i.content = .typedef type) (hShown : i.isShown items = false) :
    ∃ d, i.content = .typedef (.tagged d i.name) ∧ i.name ≠ "" := by
  unfold Item.isShown at hShown
  cases type with
  | tagged d own =>
    simp only [hc, Bool.or_eq_false_iff, String.isEmpty_eq_false_iff, bne_eq_false_iff_eq] at hShown
    exact ⟨d, by rw [hc, hShown.2], hShown.2 ▸ hShown.1⟩
  | _ => simp [hc] at hShown

section Unit

variable (h : FlatUnit tree items)

include h

theorem FlatUnit.exists_named (hTypedefs : tree.HasTypedefs items) (hi : i ∈ items)
    (hType : type ∈ i.types) (hNamed : type.isNamed = true)
    (hname : name ∈ type.names) : name ∈ builtinNames ∨ ∃ j ∈ items, j.NamesType name := by
  obtain ⟨t, ht⟩ := (h.declares i hi).exists_denotes hType
  rcases ht.mem_names hNamed hname with hBuiltin | ⟨t', kind, hk, hn, hs⟩ | ⟨hne, d, hd, hs⟩
  · exact .inl hBuiltin
  · obtain ⟨j, hj, hDecl, hContent⟩ := hTypedefs t' kind hk hn
    rw [hDecl] at hs
    have hSpelling := (h.declares j hj).stands.spelling.symm.trans hs
    exact .inr ⟨j, hj, by simpa using hSpelling, .inr hContent⟩
  · obtain ⟨before, after, hItems⟩ := List.append_of_mem hi
    obtain ⟨j, rfl, hTag, hj⟩ := h.tags before i after hItems type hType d hd
    have hj : j ∈ items := by
      rcases hj with hj | rfl
      · simp [hItems, hj]
      · exact hi
    have hSpelling := (h.declares j hj).stands.spelling.symm.trans hs
    exact .inr ⟨j, hj, by simpa using hSpelling, .inl ⟨hne, hTag⟩⟩

theorem FlatUnit.exists_type_of_mem_typeNames (hi : i ∈ items)
    (hname : name ∈ typeNames (i.statement items)) :
    ∃ j ∈ items, ∃ type ∈ j.types, type.isNamed = true ∧ name ∈ type.names := by
  -- unless `i` is a typedef of something unnamed, `j` is `i` itself
  have hOwn : (∃ type ∈ i.types, name ∈ type.names) → (∀ d, i.content ≠ .typedef (.tagged d "")) →
      ∃ j ∈ items, ∃ type ∈ j.types, type.isNamed = true ∧ name ∈ type.names :=
    fun ⟨type, hType, hMem⟩ hTag => ⟨i, hi, type, hType, h.isNamed hi hTag type hType, hMem⟩
  unfold Item.statement at hname
  cases hc : i.content with
  | record isUnion fields =>
    simp only [hc, typeNames_cdefValue] at hname
    obtain ⟨m, hm, hMem⟩ := mem_typeNames_recordValue hname
    refine hOwn ⟨m.type, ?_, hMem⟩ (by simp [hc])
    simp only [Item.types, hc]
    exact List.mem_map_of_mem hm
  | enumeration constants =>
    simp only [hc, typeNames_cdefValue] at hname
    exact absurd hname (not_mem_typeNames_enumerationValue _ _ _)
  | function result params =>
    simp only [hc, Pxd.prototypeValue, Pxd.argumentsValue, typeNames, typeNamesIn, typeNamesOf,
      ownTypeNames, reduceCtorEq, if_false, List.nil_append, List.append_nil, typeNames_value,
      List.mem_append, mem_typeNamesOf] at hname
    refine hOwn ?_ (by simp [hc])
    simp only [Item.types, hc]
    rcases hname with ⟨v, hv, hMem⟩ | hMem
    · obtain ⟨p, hp, rfl⟩ := List.mem_map.1 hv
      refine ⟨p.type, List.mem_cons_of_mem _ (List.mem_map_of_mem hp), ?_⟩
      simpa [Pxd.cNameValue, typeNames, typeNamesIn, ownTypeNames, typeNames_value] using hMem
    · exact ⟨result, by simp, hMem⟩
  | global type =>
    simp only [hc, typeNames_declarationValue] at hname
    exact hOwn ⟨type, by simp [Item.types, hc], hname⟩ (by simp [hc])
  | typedef type =>
    simp only [hc, typeNames, typeNamesIn, ownTypeNames, reduceCtorEq, if_false, List.nil_append,
      List.append_nil] at hname
    by_cases hne : ∀ d, type ≠ .tagged d ""
    · rw [targetValue_of_ne hne, typeNames_declarationValue] at hname
      exact hOwn ⟨type, by simp [Item.types, hc], hname⟩ (by simpa [hc] using hne)
    · simp only [ne_eq, Classical.not_forall, Classical.not_not] at hne
      obtain ⟨d, rfl⟩ := hne
      obtain ⟨j, hj, hFind, -, hTag, -⟩ := h.find_tag hi hc
      cases hj' : j.content with
      | record isUnion fields =>
        simp only [targetValue, hFind, Option.map_some, hj'] at hname
        obtain ⟨m, hm, hMem⟩ := mem_typeNames_recordValue hname
        have hType : m.type ∈ j.types := by
          simp only [Item.types, hj']
          exact List.mem_map_of_mem hm
        exact ⟨j, hj, m.type, hType, h.isNamed hj (by simp [hj']) m.type hType, hMem⟩
      | enumeration constants =>
        simp only [targetValue, hFind, Option.map_some, hj'] at hname
        exact absurd hname (not_mem_typeNames_enumerationValue _ _ _)
      | _ => simp [Item.isTag, hj'] at hTag

/-- What can be named as a type is declared by a statement that is shown. -/
theorem FlatUnit.exists_declaredName (hi : i ∈ items) (hName : i.NamesType name) :
    ∃ j ∈ items.filter (Item.isShown items), declaredName? (j.statement items) = some name := by
  obtain ⟨rfl, ⟨hne, hTag⟩ | ⟨type, hc⟩⟩ := hName
  · exact ⟨i, List.mem_filter.2 ⟨hi, isShown_of_tag hTag hne⟩, declaredName?_of_tag hTag⟩
  · cases hShown : i.isShown items with
    | true => exact ⟨i, List.mem_filter.2 ⟨hi, hShown⟩, declaredName?_of_typedef hc⟩
    | false =>
      -- the typedef only repeats the name of what it stands for
      obtain ⟨d, hc, hne⟩ := eq_of_not_isShown hc hShown
      obtain ⟨j, hj, -, -, hTag, hName⟩ := h.find_tag hi hc
      refine ⟨j, List.mem_filter.2 ⟨hj, isShown_of_tag hTag (hName ▸ hne)⟩, ?_⟩
      rw [declaredName?_of_tag hTag, hName]

/-- **The module of a flat unit is closed.** -/
theorem FlatUnit.isClosed (hTypedefs : tree.HasTypedefs items) (header : String) :
    IsClosed (flatModule header items) := by
  intro name hname
  have hname : ∃ i ∈ items.filter (Item.isShown items), name ∈ typeNames (i.statement items) := by
    simpa [flatModule, moduleValue, cdefValue, typeNames, typeNamesIn, typeNamesOf, ownTypeNames,
      mem_typeNamesOf] using hname
  obtain ⟨i, hi, hname⟩ := hname
  obtain ⟨j, hj, type, hType, hNamed, hMem⟩ :=
    h.exists_type_of_mem_typeNames (List.mem_filter.1 hi).1 hname
  refine (h.exists_named hTypedefs hj hType hNamed hMem).imp_right fun ⟨k, hk, hName⟩ => ?_
  obtain ⟨l, hl, hDeclared⟩ := h.exists_declaredName hk hName
  exact List.mem_filterMap.2 ⟨_, List.mem_map_of_mem hl, hDeclared⟩

end Unit

/-- **A flat unit has a closed module**: it is translated, and each type that the module names is
builtin or declared by a statement of the module. -/
theorem FlatUnit.exists_isClosed (h : FlatUnit tree items) (hTypedefs : tree.HasTypedefs items)
    {s : Session} (ho : s.graph.origin = .unit) (header : String) :
    ∃ v s', Gives (translate tree header) s v s' ∧ IsClosed v := by
  obtain ⟨s', hGives⟩ := h.exists_translate ho header
  exact ⟨_, s', hGives, h.isClosed hTypedefs header⟩

theorem hasTypedefs_repeatedName : repeatedName.HasTypedefs repeatedNameItems := by
  intro t kind hk hn
  have hNot : ∀ k : Kind, repeatedName.typeKind t = .ok k → k.name ≠ "TYPEDEF" → False := by
    intro k hk' hne
    obtain rfl := Except.ok.inj (hk.symm.trans hk')
    exact hne hn
  -- one type of the unit is that of a typedef
  rcases t with _ | (_ | _ | _ | _ | _ | n)
  rotate_left 4
  · exact ⟨_, List.mem_cons_of_mem _ (List.mem_cons_self ..), rfl, _, rfl⟩
  all_goals exact (hNot _ rfl (show _ ≠ _ by simp)).elim

theorem exists_isClosed_repeatedName :
    FlatUnit repeatedName repeatedNameItems ∧ repeatedName.HasTypedefs repeatedNameItems ∧
      ∃ v s', Gives (translate repeatedName "t.h") { graph := { origin := .unit } } v s' ∧
      IsClosed v :=
  ⟨flatUnit_repeatedName, hasTypedefs_repeatedName,
    FlatUnit.exists_isClosed flatUnit_repeatedName hasTypedefs_repeatedName rfl "t.h"⟩

end PxdGen.Index
