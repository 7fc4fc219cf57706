import PxdGen.Dump.Reader
/-! # Renaming the keys of a dump

The keys of a dump stand in attributes: one alone, several with blanks between them, before the line
of a location, or behind a word that says how a base is inherited. Renaming the keys rewrites these
attributes and no others.
-/

namespace PxdGen.Text

variable {cs : List Char} {sep x : Char} {part s : String}

/-- A text that can stand for a key wherever keys are read: it is not empty and has neither blanks
nor colons. -/
def IsKeyText (s : String) : Prop := s ≠ "" ∧ ∀ c ∈ s.toList, isBlank c = false ∧ c ≠ ':'

theorem wordsFrom_append (h : ∀ c ∈ cs, isBlank c = false) (rest word : List Char) :
    wordsFrom (cs ++ rest) word = wordsFrom rest (cs.reverse ++ word) := by
  induction cs generalizing word with
  | nil => rfl
  | cons c cs ih =>
    rw [List.cons_append, wordsFrom, if_neg (by simp [h c (by simp)]), ih fun d hd =>
      h d (by simp [hd])]
    simp

theorem words_intercalate {ws : List String}
    (h : ∀ w ∈ ws, w ≠ "" ∧ ∀ c ∈ w.toList, isBlank c = false) :
    words (" ".intercalate ws) = ws := by
  have hlast : ∀ w : String, w ≠ "" → wordsFrom [] w.toList.reverse = [w] := by
    intro w hw
    cases hr : w.toList.reverse with
    | nil => exact absurd (String.toList_eq_nil_iff.1 (by simpa using hr)) hw
    | cons c cs =>
      rw [wordsFrom, ← hr, List.reverse_reverse, String.ofList_toList]
      exact List.cons_ne_nil c cs
  induction ws with
  | nil => rfl
  | cons w ws ih =>
    obtain ⟨hw, hw'⟩ := h w (by simp)
    cases ws with
    | nil =>
      rw [String.intercalate_singleton, words, ← List.append_nil w.toList, wordsFrom_append hw',
        List.append_nil, hlast w hw]
    | cons w' ws =>
      rw [String.intercalate_cons_cons, words, String.toList_append, String.toList_append,
        List.append_assoc, wordsFrom_append hw', List.append_nil]
      show wordsFrom (' ' :: _) _ = _
      rw [wordsFrom, if_pos (by decide)]
      cases hr : w.toList.reverse with
      | nil => exact absurd (String.toList_eq_nil_iff.1 (by simpa using hr)) hw
      | cons c cs =>
        rw [if_neg (by simp), ← hr, List.reverse_reverse, String.ofList_toList]
        exact congrArg _ (ih fun v hv => h v (by simp [hv]))

theorem pieces_go_append (h : ∀ c ∈ cs, c ≠ sep)
    (rest piece : List Char) :
    pieces.go sep (cs ++ rest) piece = pieces.go sep rest (cs.reverse ++ piece) := by
  induction cs generalizing piece with
  | nil => rfl
  | cons c cs ih =>
    rw [List.cons_append, pieces.go, if_neg (by simp [h c (by simp)]), ih fun d hd =>
      h d (by simp [hd])]
    simp

theorem mem_pieces_go {piece : List Char} (hp : ∀ c ∈ piece, c ≠ sep) {p : String}
    (h : p ∈ pieces.go sep cs piece) : ∀ c ∈ p.toList, c ≠ sep := by
  induction cs generalizing piece with
  | nil =>
    obtain rfl := List.mem_singleton.1 h
    intro c hc
    exact hp c (by simpa using hc)
  | cons c cs ih =>
    rw [pieces.go] at h
    split at h
    · rcases List.mem_cons.1 h with rfl | h
      · intro d hd
        exact hp d (by simpa using hd)
      · exact ih (by simp) h
    · rename_i hne
      refine ih ?_ h
      intro d hd
      rcases List.mem_cons.1 hd with rfl | hd
      · simpa using hne
      · exact hp d hd

theorem pieces_colon {a b : String} (ha : ∀ c ∈ a.toList, c ≠ ':') (hb : ∀ c ∈ b.toList, c ≠ ':') :
    pieces ':' (a ++ ":" ++ b) = [a, b] := by
  rw [pieces, String.toList_append, String.toList_append, List.append_assoc, pieces_go_append ha]
  show pieces.go ':' (':' :: b.toList) _ = _
  rw [pieces.go, if_pos (by simp), ← List.append_nil b.toList, pieces_go_append hb]
  simp [pieces.go]

theorem without_go_of_not_mem (hx : x ∈ part.toList) (h : x ∉ cs) : without.go part 0 cs = cs := by
  induction cs with
  | nil => rfl
  | cons c cs ih =>
    have hpre : ¬ part.toList.isPrefixOf (c :: cs) = true :=
      fun hp => h ((List.isPrefixOf_iff_prefix.1 hp).subset hx)
    rw [without.go, if_neg hpre, ih fun hm => h (by simp [hm])]

theorem without_go_length (cs rest : List Char) :
    without.go part cs.length (cs ++ rest) = without.go part 0 rest := by
  induction cs with
  | nil => rfl
  | cons c cs ih => exact ih

/-- What lacks a character of the part stays whole. -/
theorem without_eq_self (hx : x ∈ part.toList) (h : x ∉ s.toList) : without part s = s := by
  rw [without, without_go_of_not_mem hx h, String.ofList_toList]

theorem without_append (hx : x ∈ part.toList) (h : x ∉ s.toList) :
    without part (part ++ s) = s := by
  rw [without, String.toList_append]
  obtain ⟨c, cs, hcs⟩ := List.exists_cons_of_ne_nil (List.ne_nil_of_mem hx)
  have hlen : part.length - 1 = cs.length := by
    rw [← String.length_toList, hcs, List.length_cons, Nat.add_sub_cancel]
  rw [hcs, List.cons_append, without.go, if_pos (by rw [hcs, ← List.cons_append]; simp), hlen,
    without_go_length, without_go_of_not_mem hx h, String.ofList_toList]

end PxdGen.Text

namespace PxdGen.Dump

variable {ρ : String → String}

/-! ### Attributes with other keys -/

/-- The key that a base of an element stands for. -/
def baseOf (tag base : String) : String := if tag == "Class" then baseKey base else base

/-- A base with another key. What says how it is inherited stays before it. -/
def renameBase (ρ : String → String) (tag base : String) : String :=
  if baseOf tag base == base then ρ (baseOf tag base) else "protected:" ++ ρ (baseOf tag base)

def renameWords (ρ : String → String) (text : String) : String :=
  " ".intercalate ((Text.words text).map ρ)

/-- The value of an attribute with other keys. -/
def renameValue (ρ : String → String) (tag name value : String) : String :=
  match name with
  | "id" | "type" | "context" | "returns" | "file" => ρ value
  | "members" => renameWords ρ value
  | "bases" => renameWords (renameBase ρ tag) value
  | "location" =>
    match Text.pieces ':' value with
    | [file, line] => ρ file ++ ":" ++ line
    | _ => value
  | _ => value

/-- A document with other keys, as the starts and ends of its elements. -/
def renameEvent (ρ : String → String) : Xml.Event → Xml.Event
  | .start tag attrs =>
  .start tag (attrs.map fun (name, value) => (name, renameValue ρ tag name value))
  | .stop tag text => .stop tag text

def keyNames : List String := ["id", "type", "context", "returns"]

/-- The attributes that are read and hold no key. -/
def plainNames : List String :=
  ["name", "mangled", "size", "align", "init", "min", "max", "const", "volatile", "attributes",
    "extern", "bits", "offset", "cvs_revision"]

/-- What is read in the attributes of an element when its keys are renamed. -/
structure Renamed (ρ : String → String) (tag : String) (attrs attrs' : List (String × String)) :
    Prop where
  key : ∀ name ∈ keyNames, attrs'.lookup name = (attrs.lookup name).map ρ
  members : (attrs'.lookup "members").map Text.words =
    (attrs.lookup "members").map fun v => (Text.words v).map ρ
  bases : (attrs'.lookup "bases").map (fun v => (Text.words v).map (baseOf tag)) =
    (attrs.lookup "bases").map fun v => ((Text.words v).map (baseOf tag)).map ρ
  location : (attrs.lookup "location" = none ∧ attrs'.lookup "location" = none) ∨
    ∃ v v', attrs.lookup "location" = some v ∧ attrs'.lookup "location" = some v' ∧
      ∀ file line, Text.pieces ':' v = [file, line] → Text.pieces ':' v' = [ρ file, line]
  plain : ∀ name ∈ plainNames, attrs'.lookup name = attrs.lookup name

theorem Renamed.refl (tag : String) (attrs : List (String × String)) :
    Renamed id tag attrs attrs where
  key := by simp
  members := by simp
  bases := by simp
  location := by
    cases attrs.lookup "location" with
    | none => exact .inl ⟨rfl, rfl⟩
    | some v => exact .inr ⟨v, v, rfl, rfl, fun _ _ h => h⟩
  plain := by simp

theorem lookup_map_value {γ : Type} (f : String → String → γ) (attrs : List (String × String))
    (name : String) :
    (attrs.map fun (n, v) => (n, f n v)).lookup name = (attrs.lookup name).map (f name) := by
  induction attrs with
  | nil => rfl
  | cons a attrs ih =>
    obtain ⟨n, v⟩ := a
    by_cases h : name = n
    · subst h
      simp
    · have hb : (name == n) = false := by simpa using h
      simp [List.lookup_cons, hb, ih]

theorem colon_mem_protected : ':' ∈ "protected:".toList := by decide

theorem baseOf_of_isKeyText {s : String} (h : Text.IsKeyText s) (tag : String) :
    baseOf tag s = s := by
  unfold baseOf
  split
  · exact Text.without_eq_self colon_mem_protected fun hc => (h.2 _ hc).2 rfl
  · rfl

theorem baseOf_renameBase (hρ : ∀ k, Text.IsKeyText (ρ k)) (tag base : String) :
    baseOf tag (renameBase ρ tag base) = ρ (baseOf tag base) := by
  unfold renameBase
  split
  · exact baseOf_of_isKeyText (hρ _) tag
  · rename_i hne
    have htag : (tag == "Class") = true := by
      cases htag : tag == "Class" with
      | true => rfl
      | false => simp [baseOf, htag] at hne
    rw [baseOf, if_pos htag]
    exact Text.without_append colon_mem_protected fun hc => ((hρ _).2 _ hc).2 rfl

theorem renameBase_word (hρ : ∀ k, Text.IsKeyText (ρ k)) (tag base : String) :
    renameBase ρ tag base ≠ "" ∧ ∀ c ∈ (renameBase ρ tag base).toList, Text.isBlank c = false := by
  unfold renameBase
  split
  · exact ⟨(hρ _).1, fun c hc => ((hρ _).2 c hc).1⟩
  · refine ⟨fun h => ?_, fun c hc => ?_⟩
    · exact (hρ _).1 (String.append_eq_empty_iff.1 h).2
    · rw [String.toList_append, List.mem_append] at hc
      rcases hc with hc | hc
      · exact (show ∀ c ∈ "protected:".toList, Text.isBlank c = false by simp [Text.isBlank]) c hc
      · exact ((hρ _).2 c hc).1

theorem renamed_rename (hρ : ∀ k, Text.IsKeyText (ρ k)) (tag : String)
    (attrs : List (String × String)) :
    Renamed ρ tag attrs (attrs.map fun (name, value) => (name, renameValue ρ tag name value)) where
  key := by
    intro name hname
    rw [lookup_map_value (renameValue ρ tag)]
    simp only [keyNames, List.mem_cons, List.not_mem_nil, or_false] at hname
    rcases hname with rfl | rfl | rfl | rfl <;> rfl
  members := by
    rw [lookup_map_value (renameValue ρ tag), Option.map_map]
    congr 1
    funext v
    refine Text.words_intercalate fun w hw => ?_
    obtain ⟨k, -, rfl⟩ := List.mem_map.1 hw
    exact ⟨(hρ k).1, fun c hc => ((hρ k).2 c hc).1⟩
  bases := by
    rw [lookup_map_value (renameValue ρ tag), Option.map_map]
    congr 1
    funext v
    have hwords : Text.words (renameWords (renameBase ρ tag) v) =
        (Text.words v).map (renameBase ρ tag) := by
      refine Text.words_intercalate fun w hw => ?_
      obtain ⟨k, -, rfl⟩ := List.mem_map.1 hw
      exact renameBase_word hρ tag k
    show (Text.words (renameWords (renameBase ρ tag) v)).map (baseOf tag) = _
    rw [hwords, List.map_map, List.map_map]
    exact List.map_congr_left fun b _ => baseOf_renameBase hρ tag b
  location := by
    rw [lookup_map_value (renameValue ρ tag)]
    cases attrs.lookup "location" with
    | none => exact .inl ⟨rfl, rfl⟩
    | some v =>
      refine .inr ⟨v, _, rfl, rfl, fun file line hv => ?_⟩
      show Text.pieces ':' (match Text.pieces ':' v with
        | [file, line] => ρ file ++ ":" ++ line
        | _ => v) = _
      rw [hv]
      refine Text.pieces_colon (fun c hc => ((hρ file).2 c hc).2) ?_
      have hline : line ∈ Text.pieces ':' v := by simp [hv]
      exact Text.mem_pieces_go (by simp) hline
  plain := by
    intro name hname
    rw [lookup_map_value (renameValue ρ tag)]
    simp only [plainNames, List.mem_cons, List.not_mem_nil, or_false] at hname
    have h : renameValue ρ tag name = id := by
      rcases hname with rfl | rfl | rfl | rfl | rfl | rfl | rfl | rfl | rfl | rfl | rfl | rfl |
        rfl | rfl <;> rfl
    rw [h, Option.map_id, id]

end PxdGen.Dump
