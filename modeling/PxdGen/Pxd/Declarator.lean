import PxdGen.Value
/-! # C declarators

In C the type of a name is written around the name: `*` before it, `[n]` after it, and parentheses
where the one has to bind before the other. `peel` takes the pointers, arrays and an outermost
reference off a C type and lists them as marks, the outermost first. `Mark` texts are then put
around a name by `wrap`, so that `wrap marks name` declares `name` to be of the peeled type.
-/

namespace PxdGen.Pxd

def isArrayMark (m : String) : Bool := m.front == '[' && m.back == ']'

/-- Puts parentheses between a mark that is written before the name and a different one that follows
it in the list. Arrays need none after them, and `const` belongs to its pointer. -/
def parenthesize : List String → List String
  | [] => []
  | [m] => [m]
  | m :: n :: rest =>
    if isArrayMark m || m == "const" || n == "const" || m == n then m :: parenthesize (n :: rest)
    else m :: "()" :: parenthesize (n :: rest)

/-- A value that is not more deeply nested than `v`. -/
abbrev Core (v : Value) := { w : Value // w.depth ≤ v.depth }

def Core.self (v : Value) : Core v := ⟨v, Nat.le_refl _⟩

/-- The marks of the pointers and arrays at the head of a C type, and the type under them. -/
def peelLevels (v : Value) : Except Fault (List String × Core v) :=
  match v.kind? with
  | some .pointer =>
    match v.field? "const", v.field? "value" with
    | some const, some ⟨w, hw⟩ =>
      match peelLevels w with
      | .error e => .error e
      | .ok (marks, ⟨base, hb⟩) =>
        .ok (if const.1.isTrue then "const" :: "*" :: marks else "*" :: marks, ⟨base, by omega⟩)
    | _, _ => .error .missingField
  | some .array =>
    match v.field? "dim", v.field? "value" with
    | some dim, some ⟨w, hw⟩ =>
      let size := if dim.1 matches .nothing then "" else dim.1.plain
      if dim.1.isWritable then
        match peelLevels w with
        | .error e => .error e
        | .ok (marks, ⟨base, hb⟩) => .ok (("[" ++ size ++ "]") :: marks, ⟨base, by omega⟩)
      else .error .malformed
    | _, _ => .error .missingField
  | _ => .ok ([], .self v)
termination_by v.depth

theorem peelLevels_of_kind {v : Value} (hp : v.kind? ≠ some .pointer)
    (ha : v.kind? ≠ some .array) : peelLevels v = .ok ([], .self v) := by
  rw [peelLevels]
  split
  · contradiction
  · contradiction
  · rfl

theorem peelLevels_pointer {v : Value} {const target : Value.Part v} {marks : List String}
    {base : Core target.1} (hk : v.kind? = some .pointer) (hc : v.field? "const" = some const)
    (hv : v.field? "value" = some target) (h : peelLevels target.1 = .ok (marks, base)) :
    ∃ hb, peelLevels v =
      .ok (if const.1.isTrue then "const" :: "*" :: marks else "*" :: marks, ⟨base.1, hb⟩) := by
  refine ⟨Nat.le_of_lt (Nat.lt_of_le_of_lt base.2 target.2), ?_⟩
  rw [peelLevels]
  simp only [hk, hc, hv, h]

theorem peelLevels_array {v : Value} {dim target : Value.Part v} {marks : List String}
    {base : Core target.1} (hk : v.kind? = some .array) (hd : v.field? "dim" = some dim)
    (hv : v.field? "value" = some target) (hw : dim.1.isWritable = true)
    (h : peelLevels target.1 = .ok (marks, base)) :
    ∃ hb, peelLevels v =
      .ok (("[" ++ (if dim.1 matches .nothing then "" else dim.1.plain) ++ "]") :: marks,
      ⟨base.1, hb⟩) := by
  refine ⟨Nat.le_of_lt (Nat.lt_of_le_of_lt base.2 target.2), ?_⟩
  rw [peelLevels]
  simp only [hk, hd, hv, h, hw, if_true]

theorem of_peelLevels_pointer {v : Value} {const target : Value.Part v} {marks : List String}
    {base : Core v} (hk : v.kind? = some .pointer) (hc : v.field? "const" = some const)
    (hv : v.field? "value" = some target) (h : peelLevels v = .ok (marks, base)) :
    ∃ marks' base', peelLevels target.1 = .ok (marks', base') ∧ base.1 = base'.1 ∧
      marks = if const.1.isTrue then "const" :: "*" :: marks' else "*" :: marks' := by
  rw [peelLevels] at h
  simp only [hk, hc, hv] at h
  cases hp : peelLevels target.1 with
  | error e => simp only [hp, reduceCtorEq] at h
  | ok r =>
    simp only [hp, Except.ok.injEq, Prod.mk.injEq] at h
    exact ⟨r.1, r.2, rfl, by rw [← h.2], h.1.symm⟩

theorem of_peelLevels_array {v : Value} {dim target : Value.Part v} {marks : List String}
    {base : Core v} (hk : v.kind? = some .array) (hd : v.field? "dim" = some dim)
    (hv : v.field? "value" = some target) (h : peelLevels v = .ok (marks, base)) :
    ∃ marks' base', peelLevels target.1 = .ok (marks', base') ∧ base.1 = base'.1 ∧
      marks = ("[" ++ (if dim.1 matches .nothing then "" else dim.1.plain) ++ "]") :: marks' := by
  rw [peelLevels] at h
  simp only [hk, hd, hv] at h
  split at h
  · cases hp : peelLevels target.1 with
    | error e => simp only [hp, reduceCtorEq] at h
    | ok r =>
      simp only [hp, Except.ok.injEq, Prod.mk.injEq] at h
      exact ⟨r.1, r.2, rfl, by rw [← h.2], h.1.symm⟩
  · cases h

theorem peelLevels_array_of_not_isWritable {v : Value} {dim target : Value.Part v}
    (hk : v.kind? = some .array) (hd : v.field? "dim" = some dim)
    (hv : v.field? "value" = some target) (hw : dim.1.isWritable = false) :
    peelLevels v = .error .malformed := by
  rw [peelLevels]
  simp only [hk, hd, hv, hw, Bool.false_eq_true, if_false]

/-- The marks of a C type, parentheses included, and the type under them. -/
def peel (v : Value) : Except Fault (List String × Core v) :=
  if v.isNode .reference then
    match v.field? "value" with
    | none => .error .missingField
    | some ⟨w, hw⟩ =>
      match peelLevels w with
      | .error e => .error e
      | .ok (marks, ⟨base, hb⟩) => .ok (parenthesize ("&" :: marks), ⟨base, by omega⟩)
  else
    match peelLevels v with
    | .error e => .error e
    | .ok (marks, base) => .ok (parenthesize marks, base)

def wrapMark (name mark : String) : String :=
  if mark == "*" || mark == "&" then mark ++ name
  else if mark == "()" then "(" ++ name ++ ")"
  else if mark == "const" then "const " ++ name
  else name ++ mark

def wrap (marks : List String) (name : String) : String := marks.foldl wrapMark name

/-- A declarator is put together from marks and a name; without marks it is the name as it is. -/
def declarator (marks : List String) (name : Value) : Value :=
  if marks.isEmpty then name else .text (wrap marks name.plain)

/-- The place of the name in the text of a function type. -/
def nameHole : String := "\x7b__name__\x7d"

/-- Replaces every occurrence of `hole`, from the left, by `filling`. -/
def fill (hole filling : List Char) : List Char → List Char
  | [] => []
  | c :: rest =>
    if hole.isPrefixOf (c :: rest) then
      filling ++ fill hole filling (rest.drop (hole.length - 1))
    else c :: fill hole filling rest
termination_by cs => cs.length
decreasing_by all_goals (simp only [List.length_drop, List.length_cons]; omega)

def fillName (pattern name : String) : String :=
  String.ofList (fill nameHole.toList name.toList pattern.toList)

end PxdGen.Pxd
