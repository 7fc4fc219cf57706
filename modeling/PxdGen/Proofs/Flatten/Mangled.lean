import Mathlib.Data.List.Induction
import Mathlib.Data.List.Nodup
import PxdGen.Proofs.Flatten.Lift
/-! # Names of lifted containers

A container that is lifted gets a name put together from those on the way to it: `A`, `B` and `C`
make `____A_B_C`, with two underscores in front for every step and one between any two names. Two
paths are mangled alike if and only if they are as long as one another and read the same with
underscores between their names (`mangle_eq_iff`).
-/

namespace PxdGen.Decl

variable {text a b name : String} {n m : Nat}

/-! ### Mangling -/

/-- The name of a container that is nested along a path of names, the outermost first. -/
def mangle : List String → String
  | [] => ""
  | name :: path => path.foldl (fun outer name => "__" ++ outer ++ "_" ++ name) name

/-- The names of a path, with underscores between them. -/
def spell (path : List String) : String := "_".intercalate path

variable {c : Nat} {path : List String}

theorem mangle_concat (h : path ≠ []) (name : String) :
    mangle (path ++ [name]) = "__" ++ mangle path ++ "_" ++ name := by
  cases path with
  | nil => exact absurd rfl h
  | cons first path => simp [mangle, List.foldl_append]

theorem spell_cons (h : path ≠ []) (name : String) :
    spell (name :: path) = name ++ "_" ++ spell path := by
  cases path with
  | nil => exact absurd rfl h
  | cons second path => exact String.intercalate_cons_cons

theorem spell_concat (h : path ≠ []) (name : String) :
    spell (path ++ [name]) = spell path ++ "_" ++ name := by
  induction path with
  | nil => exact absurd rfl h
  | cons first path ih =>
    cases path with
    | nil => exact spell_cons (by simp) first
    | cons second path =>
      have hNe : second :: path ≠ [] := by simp
      rw [List.cons_append, spell_cons (by simp), ih hNe, spell_cons hNe]
      simp only [String.append_assoc]

/-- Two underscores for every step from the outermost name on, and then the names. -/
theorem toList_mangle (h : path ≠ []) :
    (mangle path).toList = List.replicate (2 * (path.length - 1)) '_' ++ (spell path).toList := by
  induction path using List.reverseRecOn with
  | nil => exact absurd rfl h
  | append_singleton path name ih =>
    by_cases hPath : path = []
    · simp [hPath, mangle, spell, String.intercalate_singleton]
    · have hPos := List.length_pos_iff.2 hPath
      rw [mangle_concat hPath, spell_concat hPath]
      simp only [String.toList_append, ih hPath, List.length_append, List.length_singleton,
        List.append_assoc]
      rw [show 2 * (path.length + 1 - 1) = 2 + 2 * (path.length - 1) by omega,
        ← List.replicate_append_replicate, List.append_assoc]
      rfl

/-! ### Underscores in front -/

/-- The text begins with two underscores. -/
def isReserved (text : String) : Bool := ['_', '_'].isPrefixOf text.toList

theorem isReserved_iff : isReserved text = true ↔ ['_', '_'] <+: text.toList :=
  List.isPrefixOf_iff_prefix

theorem isReserved_replicate_append {cs : List Char}
    (h : text.toList = List.replicate (2 * (n + 1)) '_' ++ cs) : isReserved text = true := by
  refine isReserved_iff.2 ⟨List.replicate (2 * n) '_' ++ cs, ?_⟩
  rw [h, show 2 * (n + 1) = 2 * n + 2 by omega]
  simp [List.replicate_succ]

theorem isReserved_mangle (h : 2 ≤ path.length) : isReserved (mangle path) = true := by
  have hNe : path ≠ [] := List.ne_nil_of_length_pos (by omega)
  obtain ⟨n, hn⟩ : ∃ n, path.length - 1 = n + 1 := ⟨path.length - 2, by omega⟩
  exact isReserved_replicate_append (hn ▸ toList_mangle hNe)

theorem isReserved_append (h : isReserved text = true) (more : String) :
    isReserved (text ++ more) = true := by
  rw [isReserved_iff, String.toList_append]
  exact (isReserved_iff.1 h).trans (List.prefix_append _ _)

/-- How many underscores are in front can be told, two at a time, if no two of what follows are
underscores. -/
theorem le_of_replicate_append (ha : isReserved a = false)
    (h : List.replicate (2 * m) '_' ++ a.toList = List.replicate (2 * n) '_' ++ b.toList) :
    n ≤ m := by
  refine Nat.le_of_not_lt fun hLt => ?_
  obtain ⟨k, rfl⟩ : ∃ k, n = m + (k + 1) := ⟨n - m - 1, by omega⟩
  rw [Nat.mul_add, ← List.replicate_append_replicate, List.append_assoc,
    List.append_cancel_left_eq] at h
  rw [isReserved_replicate_append h] at ha
  cases ha

theorem replicate_append_inj (ha : isReserved a = false) (hb : isReserved b = false)
    (h : List.replicate (2 * m) '_' ++ a.toList = List.replicate (2 * n) '_' ++ b.toList) :
    m = n ∧ a = b := by
  obtain rfl := Nat.le_antisymm (le_of_replicate_append hb h.symm) (le_of_replicate_append ha h)
  exact ⟨rfl, String.toList_inj.1 (List.append_cancel_left h)⟩

/-- A name for a container with others in it: neither empty nor an underscore, and not with two
underscores in front. -/
def isOpenName (name : String) : Bool := name != "" && name != "_" && !isReserved name

theorem not_isReserved_append (h : isOpenName name = true) (more : String) :
    isReserved (name ++ more) = false := by
  simp only [isOpenName, Bool.and_eq_true, bne_iff_ne, Bool.not_eq_true'] at h
  obtain ⟨⟨hEmpty, hOne⟩, hTwo⟩ := h
  rw [← Bool.not_eq_true, isReserved_iff] at hTwo ⊢
  rw [ne_eq, ← String.toList_inj] at hEmpty hOne
  rw [String.toList_append]
  cases hName : name.toList with
  | nil => exact absurd hName hEmpty
  | cons a rest =>
    rw [hName] at hOne hTwo
    cases rest with
    | nil =>
      intro hPrefix
      obtain rfl := (List.cons_prefix_cons.1 hPrefix).1
      exact hOne rfl
    | cons b rest => simpa [List.cons_prefix_cons] using hTwo

/-- A path of two names or more that begins with an open one. -/
structure IsNesting (path : List String) : Prop where
  length : 2 ≤ path.length
  head : ∀ name ∈ path.head?, isOpenName name = true

theorem IsNesting.ne_nil (h : IsNesting path) : path ≠ [] :=
  List.ne_nil_of_length_pos (Nat.lt_of_lt_of_le Nat.zero_lt_two h.length)

theorem IsNesting.not_isReserved (h : IsNesting path) (more : String) :
    isReserved (spell path ++ more) = false := by
  obtain ⟨name, rest, rfl⟩ := List.exists_cons_of_ne_nil h.ne_nil
  have hRest : rest ≠ [] := List.ne_nil_of_length_pos (Nat.lt_of_succ_lt_succ h.length)
  rw [spell_cons hRest, String.append_assoc, String.append_assoc]
  exact not_isReserved_append (h.head name rfl) _

/-- **Paths are mangled alike if they are of one length and read the same**, with anything behind
the one. -/
theorem mangle_append_eq_iff {p q : List String} (hp : IsNesting p) (hq : IsNesting q)
    (more : String) : mangle p ++ more = mangle q ↔ p.length = q.length ∧
    spell p ++ more = spell q := by
  have hList : mangle p ++ more = mangle q ↔
      List.replicate (2 * (p.length - 1)) '_' ++ (spell p ++ more).toList =
        List.replicate (2 * (q.length - 1)) '_' ++ (spell q).toList := by
    rw [← String.toList_inj, String.toList_append, toList_mangle hp.ne_nil, toList_mangle hq.ne_nil,
      String.toList_append, List.append_assoc]
  rw [hList]
  constructor
  · intro h
    have hqNot : isReserved (spell q) = false := by simpa using hq.not_isReserved ""
    obtain ⟨hLength, hSpell⟩ := replicate_append_inj (hp.not_isReserved more) hqNot h
    have := hp.length
    have := hq.length
    exact ⟨by omega, hSpell⟩
  · rintro ⟨hLength, hSpell⟩
    rw [hLength, hSpell]

/-! ### Paths in a forest -/

open Decl.Graph

/-- `Spelled g tops c path`: the names on the way from a toplevel container to `c`, the outermost
first, are `path`. -/
inductive Graph.Spelled (g : Graph) (tops : List Value) : Nat → List String → Prop where
  | top {r : Nat} {name : String} : .link r ∈ tops → g.field? (.link r) "name" = some (.text name) →
    Spelled g tops r [name]
  | nested {p c : Nat} {path : List String} {name : String} : Spelled g tops p path → g.Nested p c →
    g.field? (.link c) "name" = some (.text name) → Spelled g tops c (path ++ [name])

/-- Toplevel containers with names that are texts: those of the toplevel ones are all different, not
empty and without two underscores in front, and none with others in it is just an underscore. -/
structure NamedForest (g : Graph) (tops : List Value) : Prop extends Forest g tops where
  containers : ∀ v ∈ tops, g.isContainer v = true
  texts : ∀ c, Reached g tops c → ∃ name, g.field? (.link c) "name" = some (.text name)
  distinct : (tops.map (g.field? · "name")).Nodup
  plain : ∀ r name, .link r ∈ tops → g.field? (.link r) "name" = some (.text name) →
    name ≠ "" ∧ isReserved name = false ∧ (name = "_" → g.nestedIds r = [])

namespace Graph.Spelled

variable {g : Graph} {tops : List Value} {c : Nat} {path : List String}

theorem ne_nil (h : g.Spelled tops c path) : path ≠ [] := by
  cases h with
  | top | nested => simp

theorem reached (h : g.Spelled tops c path) : Reached g tops c := by
  induction h with
  | top hTop => exact .top hTop
  | nested _ hn _ ih => exact .member ih hn

theorem unique (hf : Forest g tops) {path' : List String} (h : g.Spelled tops c path)
    (h' : g.Spelled tops c path') : path = path' := by
  induction h generalizing path' with
  | top hTop hName =>
    cases h' with
    | top _ hName' =>
      obtain rfl : _ = _ := Value.text.inj (Option.some.inj (hName.symm.trans hName'))
      rfl
    | nested hp hn => exact absurd hTop (hf.not_top _ _ hp.reached hn)
  | nested hp hn hName ih =>
    cases h' with
    | top hTop => exact absurd hTop (hf.not_top _ _ hp.reached hn)
    | nested hp' hn' hName' =>
      obtain rfl := hf.unique _ _ _ hp.reached hp'.reached hn hn'
      obtain rfl : _ = _ := Value.text.inj (Option.some.inj (hName.symm.trans hName'))
      rw [ih hp']

end Graph.Spelled

namespace NamedForest

variable {g : Graph} {tops : List Value} (hf : NamedForest g tops)

include hf

theorem isContainer {id : Nat} (h : Reached g tops id) : g.isContainer (.link id) = true := by
  induction h with
  | top hTop => exact hf.containers _ hTop
  | typedef _ _ hForm _ ih =>
    rw [hasForm_of_isContainer g ih rfl] at hForm
    cases hForm
  | member _ hn => exact hn.isContainer

theorem exists_spelled (h : Reached g tops c) : ∃ path, g.Spelled tops c path := by
  induction h with
  | top hTop =>
    obtain ⟨name, hName⟩ := hf.texts _ (.top hTop)
    exact ⟨_, .top hTop hName⟩
  | typedef ht _ hForm =>
    rw [hasForm_of_isContainer g (hf.isContainer ht) rfl] at hForm
    cases hForm
  | member hp hn ih =>
    obtain ⟨path, hPath⟩ := ih
    obtain ⟨name, hName⟩ := hf.texts _ (.member hp hn)
    exact ⟨_, .nested hPath hn hName⟩

theorem isNesting (h : g.Spelled tops c path) (hLength : 2 ≤ path.length) : IsNesting path := by
  refine ⟨hLength, ?_⟩
  induction h with
  | top => simp at hLength
  | @nested p c path name hp hn _ ih =>
    intro first hFirst
    rw [List.head?_append_of_ne_nil _ hp.ne_nil] at hFirst
    cases hp with
    | top hTop hName =>
      obtain rfl : _ = first := by simpa using hFirst
      obtain ⟨hEmpty, hReserved, hOne⟩ := hf.plain _ _ hTop hName
      have hNe : _ ≠ "_" := fun h => List.ne_nil_of_mem hn.2 (hOne h)
      simp [isOpenName, hEmpty, hReserved, hNe]
    | nested hq hm hOuter =>
      refine ih ?_ first hFirst
      have := List.length_pos_iff.2 hq.ne_nil
      simp
      omega

end NamedForest

/-! ### Names that lifting gives -/

theorem Graph.sameNames_setField (g : Graph) (id : Nat) (h : name ≠ "name") (v : Value) :
    g.SameNames (g.setField id name v) where
  size := by simp
  name := by
    intro id'
    simp only [field?, get?_setField]
    split
    · cases g.get? id' <;> simp [h.symm]
    · rfl

/-- Between `h` and `h'` the containers `cs` have been lifted, in this order: each has the mangled
name of the path to it, and the typedef made for it has that name with `_t` behind it. -/
structure NamesLifted (g : Graph) (tops : List Value) (h : Graph) (cs : List Nat) (h' : Graph) :
    Prop where
  size : h'.entries.size = h.entries.size + cs.length
  name : ∀ k c, cs[k]? = some c → ∃ path, g.Spelled tops c path ∧
    h'.field? (.link c) "name" = some (.text (mangle path)) ∧
    h'.field? (.link (h.entries.size + k)) "name" = some (.text (mangle path ++ "_t"))
  old : ∀ id < h.entries.size, id ∉ cs → h'.field? (.link id) "name" = h.field? (.link id) "name"

namespace NamesLifted

variable {g h h₁ h₂ : Graph} {tops : List Value} {cs ds : List Nat}

theorem refl (g : Graph) (tops : List Value) (h : Graph) : NamesLifted g tops h [] h where
  size := rfl
  name := by simp
  old _ _ _ := rfl

theorem same (hl : NamesLifted g tops h cs h₁) (hs : h₁.SameNames h₂) :
    NamesLifted g tops h cs h₂ where
  size := hs.size.trans hl.size
  name := by simpa only [hs.name] using hl.name
  old := by simpa only [hs.name] using hl.old

theorem trans (hcs : NamesLifted g tops h cs h₁) (hds : NamesLifted g tops h₁ ds h₂)
    (hOld : ∀ c ∈ cs ++ ds, c < h.entries.size) (hApart : ∀ c ∈ cs, c ∉ ds) :
    NamesLifted g tops h (cs ++ ds) h₂ := by
  have hSize := hcs.size
  refine ⟨by rw [hds.size, hSize, List.length_append, Nat.add_assoc], ?_, ?_⟩
  · intro k c hk
    by_cases hlt : k < cs.length
    · rw [List.getElem?_append_left hlt] at hk
      have hc : c ∈ cs := List.mem_of_getElem? hk
      have hcOld := hOld c (List.mem_append_left _ hc)
      obtain ⟨path, hPath, hName, hTypedef⟩ := hcs.name k c hk
      refine ⟨path, hPath, (hds.old c (by omega) (hApart c hc)).trans hName, ?_⟩
      refine (hds.old _ (by omega) fun hmem => ?_).trans hTypedef
      have := hOld _ (List.mem_append_right _ hmem)
      omega
    · rw [List.getElem?_append_right (by omega)] at hk
      obtain ⟨path, hPath, hName, hTypedef⟩ := hds.name _ c hk
      refine ⟨path, hPath, hName, ?_⟩
      rwa [show h.entries.size + k = h₁.entries.size + (k - cs.length) by omega]
  · intro id hid hNot
    rw [List.mem_append, not_or] at hNot
    rw [hds.old id (by omega) hNot.2, hcs.old id hid hNot.1]

theorem lift {c : Nat} {path : List String} (hPath : g.Spelled tops c path) {context : Value}
    (hc : c < h.entries.size) (hNot : c ∉ cs)
    (hInner : NamesLifted g tops
      ((h.setField c "name" (.text (mangle path))).setField c "context" context) cs h₂) {e : Entry}
    (he : e.get? "name" = some (.text (mangle path ++ "_t"))) :
    NamesLifted g tops h (cs ++ [c]) (h₂.add e).2 := by
  have hSize : h₂.entries.size = h.entries.size + cs.length := by simpa using hInner.size
  have hSame : (h.setField c "name" (.text (mangle path))).SameNames
      ((h.setField c "name" (.text (mangle path))).setField c "context" context) :=
    sameNames_setField _ c (by decide) context
  have hAdd : ∀ id < h₂.entries.size, (h₂.add e).2.field? (.link id) "name" = h₂.field? (.link id)
      "name" :=
    fun id hid => by simp only [Graph.field?, get?_add_of_lt h₂ e hid]
  refine ⟨?_, ?_, ?_⟩
  · rw [size_add, hSize, List.length_append, List.length_singleton, Nat.add_assoc]
  · intro k d hk
    by_cases hlt : k < cs.length
    · rw [List.getElem?_append_left hlt] at hk
      obtain ⟨path', hPath', hName, hTypedef⟩ := hInner.name k d hk
      rw [hSame.size, size_setField] at hTypedef
      refine ⟨path', hPath', ?_, ?_⟩
      · rwa [hAdd d (lt_size_of_field? h₂ hName)]
      · rwa [hAdd _ (by omega)]
    · have hlen := (List.getElem?_eq_some_iff.1 hk).1
      rw [List.length_append, List.length_singleton] at hlen
      obtain rfl : k = cs.length := by omega
      obtain rfl : c = d := by simpa using hk
      refine ⟨path, hPath, ?_, ?_⟩
      · rw [hAdd c (by omega), hInner.old c (by simpa using hc) hNot, hSame.name,
          field?_setField _ hc, if_pos ⟨rfl, rfl⟩]
      · rw [← hSize]
        simp [Graph.field?, get?_add_self, he]
  · intro id hid hNot'
    rw [List.mem_append, List.mem_singleton, not_or] at hNot'
    rw [hAdd id (by omega), hInner.old id (by simpa using hid) hNot'.1, hSame.name,
      field?_setField _ hc, if_neg fun hBoth => hNot'.2 hBoth.1]

end NamesLifted

end PxdGen.Decl
