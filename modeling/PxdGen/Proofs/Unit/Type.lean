import PxdGen.Index.Reader
import PxdGen.Proofs.Declarator.CType
import PxdGen.Proofs.Level
/-! # The C types of a unit

A type of a unit is read off its numbered parts. `Tree.Denotes` says which C type that is; types
that run in a circle denote none. A struct, union or enumeration is known by the cursor that
declares it. Each C type has one pxd node, in which such a declaration only shows by its name.
-/

namespace PxdGen.Index

mutual

/-- A C type. -/
inductive UnitType where
  /-- a builtin type or a typedef, by its name -/
  | plain (name : String) (isConst isVolatile : Bool)
  /-- a struct, union or enumeration -/
  | tagged (declaration : Nat) (name : String)
  | pointer (target : UnitType) (isConst isVolatile : Bool)
  | array (element : UnitType) (count : Int)
  | function (result : UnitType) (args : UnitTypes)

inductive UnitTypes where
  | nil
  | cons (type : UnitType) (rest : UnitTypes)

end

/-- The declaration of a type is of a kind that is known. -/
def Tree.IsSpelled (tree : Tree) (t : TypeRef) : Prop :=
  ∃ name, tree.spelling (tree.declaration t) = .ok name

mutual

/-- The C type that a type of a unit stands for. -/
inductive Tree.Denotes (tree : Tree) : TypeRef → UnitType → Prop where
  | simple {t : TypeRef} {kind : Kind} {name : String} :
    tree.typeKind t = .ok kind → tree.IsSpelled t → simpleName? kind.name = some name →
    tree.Denotes t (.plain name (tree.type t).isConst (tree.type t).isVolatile)
  | typedef {t : TypeRef} {kind : Kind} {name : String} :
    tree.typeKind t = .ok kind → kind.name = "TYPEDEF" →
    tree.spelling (tree.declaration t) = .ok (some name) →
    tree.Denotes t (.plain name (tree.type t).isConst (tree.type t).isVolatile)
  | tagged {t : TypeRef} {kind : Kind} {declaration : Nat} {name : String} :
    tree.typeKind t = .ok kind → kind.name = "RECORD" ∨ kind.name = "ENUM" →
    tree.declaration t = .numbered declaration →
    tree.spelling (.numbered declaration) = .ok (some name) →
    tree.Denotes t (.tagged declaration name)
  | pointer {t : TypeRef} {kind : Kind} {target : UnitType} :
    tree.typeKind t = .ok kind → tree.IsSpelled t → kind.name = "POINTER" →
    tree.Denotes (tree.type t).pointee target →
    tree.Denotes t (.pointer target (tree.type t).isConst (tree.type t).isVolatile)
  | array {t e : TypeRef} {kind : Kind} {element : UnitType} {count : Int} :
    tree.typeKind t = .ok kind → tree.IsSpelled t → kind.name = "CONSTANTARRAY" →
    tree.elementType t = .ok e → tree.elementCount t = .ok count → tree.Denotes e element →
    tree.Denotes t (.array element count)
  | function {t : TypeRef} {kind : Kind} {result : UnitType} {args : UnitTypes} :
    tree.typeKind t = .ok kind → tree.IsSpelled t → kind.name = "FUNCTIONPROTO" →
    tree.Denotes (tree.type t).result result → tree.DenotesAll (tree.type t).arguments args →
    tree.Denotes t (.function result args)

inductive Tree.DenotesAll (tree : Tree) : List TypeRef → UnitTypes → Prop where
  | nil : tree.DenotesAll [] .nil
  | cons {t : TypeRef} {ts : List TypeRef} {type : UnitType} {types : UnitTypes} :
    tree.Denotes t type → tree.DenotesAll ts types → tree.DenotesAll (t :: ts) (.cons type types)

end

mutual

/-- The cursors that declare what the type is tagged by. -/
def UnitType.tags : UnitType → List Nat
  | .plain _ _ _ => []
  | .tagged declaration _ => [declaration]
  | .pointer t _ _ | .array t _ => t.tags
  | .function result args => result.tags ++ args.tags

def UnitTypes.tags : UnitTypes → List Nat
  | .nil => []
  | .cons t rest => t.tags ++ rest.tags

end

/-! ### Measures -/

mutual

/-- How deep the parts of a type are nested. -/
def UnitType.depth : UnitType → Nat
  | .plain _ _ _ | .tagged _ _ => 1
  | .pointer t _ _ | .array t _ => t.depth + 1
  | .function result args => max result.depth args.depth + 1

def UnitTypes.depth : UnitTypes → Nat
  | .nil => 0
  | .cons t rest => max t.depth rest.depth

end

theorem UnitType.depth_pos (type : UnitType) : 0 < type.depth := by
  cases type <;> simp [UnitType.depth]

mutual

/-- How many declarations a type takes in a graph, apart from what it is tagged by. -/
def UnitType.cells : UnitType → Nat
  | .plain _ _ _ => 2
  | .tagged _ _ => 0
  | .pointer t _ _ => t.cells + 2
  | .array t _ => t.cells + 1
  | .function result args => result.cells + 1 + args.cells

def UnitTypes.cells : UnitTypes → Nat
  | .nil => 0
  | .cons t rest => t.cells + 1 + rest.cells

end

mutual

/-- How deep these declarations are linked. -/
def UnitType.height : UnitType → Nat
  | .plain _ _ _ => 2
  | .tagged _ _ => 1
  | .pointer t _ _ => t.height + 2
  | .array t _ => t.height + 1
  | .function result args => max result.height args.height + 1

def UnitTypes.height : UnitTypes → Nat
  | .nil => 0
  | .cons t rest => max (t.height + 1) rest.height

end

mutual

theorem UnitType.height_le (t : UnitType) : t.height ≤ t.cells + 1 := by
  cases t with
  | plain name c v | tagged d name => simp [UnitType.height, UnitType.cells]
  | pointer t c v | array t n =>
    have := t.height_le
    simp only [UnitType.height, UnitType.cells]
    omega
  | function result args =>
    have h1 := result.height_le
    have h2 := args.height_le
    simp only [UnitType.height, UnitType.cells]
    omega

theorem UnitTypes.height_le (ts : UnitTypes) : ts.height ≤ ts.cells + 1 := by
  cases ts with
  | nil => simp [UnitTypes.height]
  | cons t rest =>
    have h1 := t.height_le
    have h2 := rest.height_le
    simp only [UnitTypes.height, UnitTypes.cells]
    omega

end

/-! ### Types that end -/

variable {type : UnitType}

namespace Tree

variable {tree : Tree}

/-! A type stands for one C type only. -/

mutual

theorem Denotes.unique {t : TypeRef} {a b : UnitType} (h : tree.Denotes t a)
    (h' : tree.Denotes t b) : a = b := by
  cases h with
  | simple hk hs hn =>
    cases h' with
    | simple hk' _ hn' => simp_all
    | tagged hk' hn' => rcases hn' with hn' | hn' <;> simp_all [simpleName?]
    | _ => simp_all [simpleName?]
  | typedef hk hn hs =>
    cases h' with
    | tagged hk' hn' => rcases hn' with hn' | hn' <;> simp_all
    | _ => simp_all [simpleName?]
  | tagged hk hn hd hs =>
    cases h' with
    | tagged hk' hn' => simp_all
    | _ => rcases hn with hn | hn <;> simp_all [simpleName?]
  | pointer hk hs hn ht =>
    cases h' with
    | pointer _ _ _ ht' => rw [ht.unique ht']
    | tagged hk' hn' => rcases hn' with hn' | hn' <;> simp_all
    | _ => simp_all [simpleName?]
  | array hk hs hn he hc ht =>
    cases h' with
    | array _ _ _ he' hc' ht' =>
      obtain rfl := Except.ok.inj (he.symm.trans he')
      obtain rfl := Except.ok.inj (hc.symm.trans hc')
      rw [ht.unique ht']
    | tagged hk' hn' => rcases hn' with hn' | hn' <;> simp_all
    | _ => simp_all [simpleName?]
  | function hk hs hn hr ha =>
    cases h' with
    | function _ _ _ hr' ha' => rw [hr.unique hr', ha.unique ha']
    | tagged hk' hn' => rcases hn' with hn' | hn' <;> simp_all
    | _ => simp_all [simpleName?]

theorem DenotesAll.unique {ts : List TypeRef} {as bs : UnitTypes} (h : tree.DenotesAll ts as)
    (h' : tree.DenotesAll ts bs) : as = bs := by
  cases h with
  | nil => cases h' with | nil => rfl
  | cons ht hts => cases h' with | cons ht' hts' => rw [ht.unique ht', hts.unique hts']

end
theorem DenotesAll.exists_deepest {ts : List TypeRef} {types : UnitTypes}
    (h : tree.DenotesAll ts types) (hpos : 0 < types.depth) :
    ∃ p type, tree.Denotes p type ∧ type.depth = types.depth := by
  cases h with
  | nil => simp [UnitTypes.depth] at hpos
  | @cons t ts type types ht hts =>
    by_cases hle : types.depth ≤ type.depth
    · exact ⟨t, type, ht, by simp only [UnitTypes.depth]; omega⟩
    · obtain ⟨p, type', h1, h2⟩ := hts.exists_deepest (by omega)
      exact ⟨p, type', h1, by simp only [UnitTypes.depth]; omega⟩

theorem Denotes.exists_part {t : TypeRef} (h : tree.Denotes t type) :
    type.depth = 1 ∨ ∃ p part, tree.Denotes p part ∧ part.depth + 1 = type.depth := by
  cases h with
  | simple | typedef | tagged => exact .inl rfl
  | @pointer _ _ target _ _ _ ht => exact .inr ⟨_, target, ht, rfl⟩
  | @array _ e _ element _ _ _ _ _ _ ht => exact .inr ⟨e, element, ht, rfl⟩
  | @function _ _ result args _ _ _ hr ha =>
    have hpos := UnitType.depth_pos result
    by_cases hle : args.depth ≤ result.depth
    · exact .inr ⟨_, result, hr, by simp only [UnitType.depth]; omega⟩
    · obtain ⟨p, type, h1, h2⟩ := ha.exists_deepest (by omega)
      exact .inr ⟨p, type, h1, by simp only [UnitType.depth]; omega⟩

/-- What a type stands for only depends on its data. -/
theorem Denotes.congr {t t' : TypeRef} (h : tree.Denotes t type) (e : tree.type t = tree.type t') :
    tree.Denotes t' type := by
  have hKind : tree.typeKind t' = tree.typeKind t := by simp only [typeKind, e]
  have hDecl : tree.declaration t' = tree.declaration t := by simp only [declaration, e]
  have hElement : tree.elementType t' = tree.elementType t := by simp only [elementType, e]
  have hCount : tree.elementCount t' = tree.elementCount t := by simp only [elementCount, e]
  have hSpelled : tree.IsSpelled t → tree.IsSpelled t' := fun ⟨name, hs⟩ => ⟨name, hDecl ▸ hs⟩
  cases h with
  | simple hk hs hn =>
    rw [e]
    exact .simple (hKind.trans hk) (hSpelled hs) hn
  | typedef hk hn hs =>
    rw [e]
    exact .typedef (hKind.trans hk) hn (hDecl ▸ hs)
  | tagged hk hn hd hs => exact .tagged (hKind.trans hk) hn (hDecl.trans hd) hs
  | pointer hk hs hn ht =>
    rw [e] at ht ⊢
    exact .pointer (hKind.trans hk) (hSpelled hs) hn ht
  | array hk hs hn he hc ht =>
    exact .array (hKind.trans hk) (hSpelled hs) hn (hElement.trans he) (hCount.trans hc) ht
  | function hk hs hn hr ha =>
    rw [e] at hr ha
    exact .function (hKind.trans hk) (hSpelled hs) hn hr ha

/-- The number of a type; all that are not there share one. -/
def place (tree : Tree) (t : TypeRef) : Nat :=
  match t with
  | some i => min i tree.types.size
  | none => tree.types.size

theorem type_place (tree : Tree) (t : TypeRef) : tree.type t = tree.type (some (tree.place t)) := by
  cases t with
  | none => simp [type, place]
  | some i =>
    by_cases h : i < tree.types.size
    · simp [type, place, Nat.min_eq_left (Nat.le_of_lt h)]
    · have h1 : tree.types[i]? = none := Array.getElem?_eq_none (by omega)
      simp [type, place, Nat.min_eq_right (Nat.le_of_not_lt h), h1]

theorem place_lt (tree : Tree) (t : TypeRef) : tree.place t < tree.types.size + 1 := by
  cases t with
  | none => simp [place]
  | some i =>
    simp only [place]
    omega

/-- **Types that end are no deeper than there are types.** -/
theorem Denotes.depth_le {t : TypeRef} (h : tree.Denotes t type) :
    type.depth ≤ tree.types.size + 1 := by
  classical
  -- ranked by depth, each type has a part on the level below it
  obtain ⟨rank, hRank⟩ : ∃ rank : Nat → Nat, ∀ t type, tree.Denotes t type →
      rank (tree.place t) = type.depth := by
    refine ⟨fun j => if h : ∃ type, tree.Denotes (some j) type then h.choose.depth else 0, ?_⟩
    intro t type ht
    have hEx : ∃ type, tree.Denotes (some (tree.place t)) type :=
      ⟨type, ht.congr (tree.type_place t)⟩
    simp only [dif_pos hEx, hEx.choose_spec.unique (ht.congr (tree.type_place t))]
  have hLevel : ∀ n t type, tree.Denotes t type → type.depth = n →
      n ≤ levelOf (tree.types.size + 1) rank (tree.place t) := by
    intro n
    induction n with
    | zero => omega
    | succ n ih =>
      intro t type ht hn
      have hpos := levelOf_pos rank (tree.place_lt t)
      rcases ht.exists_part with h1 | ⟨p, part, hpart, hd⟩
      · omega
      · have hle := ih p part hpart (by omega)
        have hlt : levelOf (tree.types.size + 1) rank (tree.place p) <
            levelOf (tree.types.size + 1) rank (tree.place t) :=
          levelOf_lt (tree.place_lt t) (by rw [hRank p part hpart, hRank t type ht]; omega)
        omega
  exact Nat.le_trans (hLevel _ t type h rfl) (levelOf_le _ _ _)

end Tree

end PxdGen.Index
