import PxdGen.Proofs.Decl.Graph
import PxdGen.Proofs.Level
/-! # Forests of containers

Flattening works on the containers that it reaches from the toplevel declarations: these themselves,
in a unit also what their typedefs lead to, and everything nested in one of them. If no container is
nested in two others and none in itself, the containers under one are the nodes of a tree, and
`under` lists them the way flattening lifts them: what is nested in a container comes before it.
-/

namespace PxdGen.Decl

variable {p r x a b : Nat} {level : Nat → Nat}

namespace Graph

def membersOf (g : Graph) (id : Nat) : List Value :=
  match g.field? (.link id) "members" with
  | some (.list vs) => vs
  | _ => []

/-- The number of the container that a value is. -/
def containerId? (g : Graph) (v : Value) : Option Nat :=
  match v with
  | .link id => if g.isContainer v then some id else none
  | _ => none

/-- The containers among the members of a declaration. -/
def nestedIds (g : Graph) (id : Nat) : List Nat := (g.membersOf id).filterMap g.containerId?

/-- A container that is a member of another one. -/
def Nested (g : Graph) (p c : Nat) : Prop := g.isContainer (.link p) = true ∧ c ∈ g.nestedIds p

/-- A container that is nested in another one at any depth, or is that one. -/
inductive Below (g : Graph) (r : Nat) : Nat → Prop where
  | refl : Below g r r
  | step {p c : Nat} : Below g r p → g.Nested p c → Below g r c

/-- The container that a value stands for: itself, or in a unit what a typedef leads to. -/
inductive Leads (g : Graph) : Value → Nat → Prop where
  | container {r : Nat} : g.isContainer (.link r) = true → Leads g (.link r) r
  | typedef {t r : Nat} {v : Value} : g.origin = .unit → g.hasForm (.link t) .typedef = true →
    g.field? (.link t) "typ" = some v → Leads g v r → Leads g (.link t) r

/-- The declarations that flattening comes to. -/
inductive Reached (g : Graph) (tops : List Value) : Nat → Prop where
  | top {id : Nat} : .link id ∈ tops → Reached g tops id
  | typedef {t id : Nat} : Reached g tops t → g.origin = .unit →
    g.hasForm (.link t) .typedef = true → g.field? (.link t) "typ" = some (.link id) →
    Reached g tops id
  | member {p c : Nat} : Reached g tops p → g.Nested p c → Reached g tops c

end Graph

open Decl.Graph

/-- Toplevel declarations whose containers form a forest: every container is nested in at most one
other, once, and none of those that are nested is a toplevel one or has a typedef. No chain of
typedefs or containers runs in a circle. The declarations have the fields of their forms, and in a
unit the outermost containers have a name of either sort. -/
structure Forest (g : Graph) (tops : List Value) : Prop where
  ranked : ∃ rank : Nat → Nat,
    (∀ p c, Reached g tops p → g.Nested p c → rank c < rank p) ∧
    ∀ t id, Reached g tops t → g.origin = .unit → g.hasForm (.link t) .typedef = true →
      g.field? (.link t) "typ" = some (.link id) → rank id < rank t
  valid : ∀ id, Reached g tops id → id < g.entries.size
  unique : ∀ p q c, Reached g tops p → Reached g tops q → g.Nested p c → g.Nested q c → p = q
  once : ∀ p, Reached g tops p → g.isContainer (.link p) = true → (g.nestedIds p).Nodup
  not_top : ∀ p c, Reached g tops p → g.Nested p c → .link c ∉ tops
  not_named : ∀ p c t, Reached g tops p → g.Nested p c → g.origin = .unit → Reached g tops t →
    g.hasForm (.link t) .typedef = true → g.field? (.link t) "typ" ≠ some (.link c)
  members : ∀ p, Reached g tops p → g.isContainer (.link p) = true →
    ∃ ms, g.field? (.link p) "members" = some (.list ms)
  name : ∀ p, Reached g tops p → g.isContainer (.link p) = true →
    ∃ v, g.field? (.link p) "name" = some v
  context : ∀ p, Reached g tops p → g.isContainer (.link p) = true →
    ∃ v, g.field? (.link p) "context" = some v
  named : g.origin = .unit → ∀ p, Reached g tops p → g.isContainer (.link p) = true →
    (∀ q, Reached g tops q → ¬ g.Nested q p) →
    (∃ v, g.field? (.link p) "name" = some v ∧ v.isTrue = true) ∨
      ∃ v, g.field? (.link p) "typedef_name" = some v
  typ : ∀ p f, Reached g tops p → g.isContainer (.link p) = true → .link f ∈ g.membersOf p →
    g.hasForm (.link f) .field = true → ∃ v, g.field? (.link f) "typ" = some v
  typedefs : g.origin = .unit → ∀ t, Reached g tops t → g.hasForm (.link t) .typedef = true →
    ∃ v, g.field? (.link t) "typ" = some v

/-! ### Levels -/

variable {g : Graph} {tops : List Value}

/-- Every reached declaration has a level that its nested containers and what its typedef leads to
are below. -/
theorem Forest.levels (hf : Forest g tops) : ∃ level : Nat → Nat,
    (∀ id, level id ≤ g.entries.size) ∧ (∀ id, Reached g tops id → 0 < level id) ∧
    (∀ p c, Reached g tops p → g.Nested p c → level c < level p) ∧
    ∀ t id, Reached g tops t → g.origin = .unit → g.hasForm (.link t) .typedef = true →
      g.field? (.link t) "typ" = some (.link id) → level id < level t := by
  obtain ⟨rank, hNested, hTypedef⟩ := hf.ranked
  refine ⟨levelOf g.entries.size rank, levelOf_le _ _, ?_, ?_, ?_⟩
  · exact fun id hid => levelOf_pos rank (hf.valid id hid)
  · exact fun p c hp hc => levelOf_lt (hf.valid p hp) (hNested p c hp hc)
  · exact fun t id ht ho hform htyp => levelOf_lt (hf.valid t ht) (hTypedef t id ht ho hform htyp)

/-! ### Nesting -/

theorem Graph.mem_nestedIds {c : Nat} :
    c ∈ g.nestedIds p ↔ .link c ∈ g.membersOf p ∧ g.isContainer (.link c) = true := by
  rw [nestedIds, List.mem_filterMap]
  constructor
  · rintro ⟨v, hv, hc⟩
    cases v with
    | link id =>
      simp only [containerId?] at hc
      split at hc
      · obtain rfl : id = c := by simpa using hc
        exact ⟨hv, ‹_›⟩
      · cases hc
    | _ => simp [containerId?] at hc
  · rintro ⟨hv, hc⟩
    exact ⟨.link c, hv, by simp [containerId?, hc]⟩

theorem Graph.Nested.isContainer {p c : Nat} (h : g.Nested p c) :
    g.isContainer (.link c) = true := (mem_nestedIds.1 h.2).2

theorem Graph.Below.trans {a b c : Nat} (h : g.Below a b) (h' : g.Below b c) : g.Below a c := by
  induction h' with
  | refl => exact h
  | step _ hn ih => exact .step ih hn

theorem Graph.Below.isContainer {r x : Nat} (hr : g.isContainer (.link r) = true)
    (h : g.Below r x) : g.isContainer (.link x) = true := by
  cases h with
  | refl => exact hr
  | step _ hn => exact hn.isContainer

theorem Graph.Below.reached (hr : Reached g tops r) (h : g.Below r x) : Reached g tops x := by
  induction h with
  | refl => exact hr
  | step _ hn ih => exact .member ih hn

theorem Graph.Below.total (hf : Forest g tops) (ha : Reached g tops a)
    (hb : Reached g tops b) (hax : g.Below a x) (hbx : g.Below b x) :
    g.Below a b ∨ g.Below b a := by
  induction hax with
  | refl => exact .inr hbx
  | @step p c hap hn ih =>
    cases hbx with
    | refl => exact .inl (.step hap hn)
    | @step q _ hbq hm =>
      obtain rfl := hf.unique q p c (hbq.reached hb) (hap.reached ha) hm hn
      exact ih hbq

theorem Forest.level_le (hl : ∀ p c, Reached g tops p → g.Nested p c → level c < level p)
    (hr : Reached g tops r) (h : g.Below r x) : level x ≤ level r := by
  induction h with
  | refl => exact Nat.le_refl _
  | step hb hn ih => exact Nat.le_trans (Nat.le_of_lt (hl _ _ (hb.reached hr) hn)) ih

theorem Forest.siblings_apart (hf : Forest g tops) (hp : Reached g tops p)
    (ha : g.Nested p a) (hb : g.Nested p b) (hab : a ≠ b) (hax : g.Below a x) : ¬ g.Below b x := by
  intro hbx
  obtain ⟨level, -, -, hl, -⟩ := hf.levels
  have key : ∀ a b, g.Nested p a → g.Nested p b → a ≠ b → ¬ g.Below a b := by
    intro a b ha hb hab h
    cases h with
    | refl => exact hab rfl
    | @step q _ haq hqb =>
      -- the parent of `b` is below `a`, but it is `p`
      have hra : Reached g tops a := .member hp ha
      obtain rfl := hf.unique q p b (haq.reached hra) hp hqb hb
      have h1 := Forest.level_le hl hra haq
      have h2 := hl q a hp ha
      omega
  rcases Graph.Below.total hf (.member hp ha) (.member hp hb) hax hbx with h | h
  · exact key a b ha hb hab h
  · exact key b a hb ha (Ne.symm hab) h

/-! ### The containers under one -/

/-- The containers that are nested in a container to a depth, each behind those nested in it. -/
def Graph.underTo (g : Graph) : Nat → Nat → List Nat
  | 0, _ => []
  | n + 1, r => (g.nestedIds r).flatMap fun c => g.underTo n c ++ [c]

/-- The containers that are nested in a container, each behind those nested in it. -/
def Graph.under (g : Graph) (r : Nat) : List Nat := g.underTo g.entries.size r

/-- Containers, each behind those nested in it. -/
def Graph.underAll (g : Graph) (cs : List Nat) : List Nat := cs.flatMap fun c => g.under c ++ [c]

theorem Forest.underTo_eq (hpos : ∀ id, Reached g tops id → 0 < level id)
    (hl : ∀ p c, Reached g tops p → g.Nested p c → level c < level p) {n m : Nat}
    (hr : Reached g tops r) (hc : g.isContainer (.link r) = true) (hn : level r ≤ n)
    (hm : level r ≤ m) : g.underTo n r = g.underTo m r := by
  induction n generalizing m r with
  | zero =>
    have := hpos r hr
    omega
  | succ n ih =>
    have := hpos r hr
    obtain ⟨m, rfl⟩ : ∃ k, m = k + 1 := ⟨m - 1, by omega⟩
    have hEach : ∀ c ∈ g.nestedIds r, g.underTo n c ++ [c] = g.underTo m c ++ [c] := by
      intro c hcr
      have hrc : g.Nested r c := ⟨hc, hcr⟩
      have := hl r c hr hrc
      rw [ih (.member hr hrc) hrc.isContainer (by omega) (m := m) (by omega)]
    simp only [underTo, List.flatMap_def, List.map_congr_left hEach]

theorem Forest.under_eq (hf : Forest g tops) (hr : Reached g tops r)
    (hc : g.isContainer (.link r) = true) : g.under r = g.underAll (g.nestedIds r) := by
  obtain ⟨level, hle, hpos, hl, -⟩ := hf.levels
  have h1 := hpos r hr
  have h2 := hle r
  obtain ⟨k, hk⟩ : ∃ k, g.entries.size = k + 1 := ⟨g.entries.size - 1, by omega⟩
  have hEach : ∀ c ∈ g.nestedIds r, g.underTo k c ++ [c] = g.under c ++ [c] := by
    intro c hcr
    have hrc : g.Nested r c := ⟨hc, hcr⟩
    have := hl r c hr hrc
    rw [under, Forest.underTo_eq hpos hl (.member hr hrc) hrc.isContainer (n := k)
      (m := g.entries.size) (by omega) (hle c)]
  rw [under, hk, underTo, underAll]
  simp only [List.flatMap_def, List.map_congr_left hEach]

theorem Forest.nesting_induction (hf : Forest g tops) {motive : Nat → Prop}
    (step : ∀ r, Reached g tops r → g.isContainer (.link r) = true →
      (∀ c, g.Nested r c → motive c) → motive r)
    (hr : Reached g tops r) (hc : g.isContainer (.link r) = true) : motive r := by
  obtain ⟨level, -, -, hl, -⟩ := hf.levels
  induction hn : level r using Nat.strongRecOn generalizing r with
  | ind n ih =>
    subst hn
    refine step r hr hc fun c hrc => ?_
    exact ih (level c) (hl r c hr hrc) (.member hr hrc) hrc.isContainer rfl

theorem Graph.Below.cases_head (h : g.Below r x) : x = r ∨ ∃ c, g.Nested r c ∧ g.Below c x := by
  induction h with
  | refl => exact .inl rfl
  | step hb hn ih =>
    rcases ih with rfl | ⟨c, hrc, hcx⟩
    · exact .inr ⟨_, hn, .refl⟩
    · exact .inr ⟨c, hrc, .step hcx hn⟩

theorem nodup_flatMap {α β : Type} {l : List α} {f : α → List β} (hl : l.Nodup)
    (hEach : ∀ a ∈ l, (f a).Nodup)
    (hApart : ∀ a ∈ l, ∀ b ∈ l, a ≠ b → ∀ x ∈ f a, x ∉ f b) : (l.flatMap f).Nodup := by
  induction l with
  | nil => exact List.nodup_nil
  | cons a l ih =>
    obtain ⟨ha, hl⟩ := List.nodup_cons.1 hl
    have hRest := ih hl (fun b hb => hEach b (by simp [hb]))
      fun b hb c hc => hApart b (by simp [hb]) c (by simp [hc])
    rw [List.flatMap_cons]
    refine List.nodup_append.2 ⟨hEach a (by simp), hRest, ?_⟩
    rintro x hx y hy rfl
    obtain ⟨b, hb, hxb⟩ := List.mem_flatMap.1 hy
    have hab : a ≠ b := by
      rintro rfl
      exact ha hb
    exact hApart a (by simp) b (by simp [hb]) hab x hx hxb

section

variable (hf : Forest g tops) (hr : Reached g tops r) (hc : g.isContainer (.link r) = true)

include hf hr hc

theorem Forest.mem_under : x ∈ g.under r ↔ ∃ c, g.Nested r c ∧ g.Below c x := by
  refine hf.nesting_induction (motive := fun r => x ∈ g.under r ↔
    ∃ c, g.Nested r c ∧ g.Below c x) ?_ hr hc
  intro r hr hc ih
  rw [hf.under_eq hr hc, underAll, List.mem_flatMap]
  constructor
  · rintro ⟨c, hcr, hx⟩
    have hrc : g.Nested r c := ⟨hc, hcr⟩
    refine ⟨c, hrc, ?_⟩
    rcases List.mem_append.1 hx with hx | hx
    · obtain ⟨d, hcd, hdx⟩ := (ih c hrc).1 hx
      exact Graph.Below.trans (.step .refl hcd) hdx
    · obtain rfl := List.mem_singleton.1 hx
      exact .refl
  · rintro ⟨c, hrc, hcx⟩
    refine ⟨c, hrc.2, List.mem_append.2 ?_⟩
    rcases hcx.cases_head with rfl | hd
    · exact .inr (List.mem_singleton.2 rfl)
    · exact .inl ((ih c hrc).2 hd)

theorem Forest.mem_tree : x ∈ g.under r ++ [r] ↔ g.Below r x := by
  rw [List.mem_append, List.mem_singleton, hf.mem_under hr hc]
  constructor
  · rintro (⟨c, hrc, hcx⟩ | rfl)
    · exact Graph.Below.trans (.step .refl hrc) hcx
    · exact .refl
  · intro h
    exact h.cases_head.symm

theorem Forest.reached_of_mem_tree (hx : x ∈ g.under r ++ [r]) :
    Reached g tops x ∧ g.isContainer (.link x) = true := by
  have hBelow := (hf.mem_tree hr hc).1 hx
  exact ⟨hBelow.reached hr, hBelow.isContainer hc⟩

theorem Forest.not_mem_under_self : r ∉ g.under r := by
  obtain ⟨level, -, -, hl, -⟩ := hf.levels
  intro h
  obtain ⟨c, hrc, hcr⟩ := (hf.mem_under hr hc).1 h
  have h1 := hl r c hr hrc
  have h2 := Forest.level_le hl (.member hr hrc) hcr
  omega

theorem Forest.nodup_tree : (g.under r ++ [r]).Nodup := by
  refine hf.nesting_induction (motive := fun r => (g.under r ++ [r]).Nodup) ?_ hr hc
  intro r hr hc ih
  have hUnder : (g.under r).Nodup := by
    rw [hf.under_eq hr hc, underAll]
    refine nodup_flatMap (hf.once r hr hc) (fun c hcr => ih c ⟨hc, hcr⟩) ?_
    intro a ha b hb hab x hxa hxb
    have hra : g.Nested r a := ⟨hc, ha⟩
    have hrb : g.Nested r b := ⟨hc, hb⟩
    rw [hf.mem_tree (.member hr hra) hra.isContainer] at hxa
    rw [hf.mem_tree (.member hr hrb) hrb.isContainer] at hxb
    exact hf.siblings_apart hr hra hrb hab hxa hxb
  refine List.nodup_append.2 ⟨hUnder, by simp, ?_⟩
  rintro x hx y hy rfl
  obtain rfl := List.mem_singleton.1 hy
  exact hf.not_mem_under_self hr hc hx

/-- What is under a container stands in one piece, with the container behind it. -/
theorem Forest.under_block (hp : p ∈ g.under r) :
    ∃ before after, g.under r = before ++ (g.under p ++ [p]) ++ after := by
  revert hp
  refine hf.nesting_induction (motive := fun r => p ∈ g.under r →
    ∃ before after, g.under r = before ++ (g.under p ++ [p]) ++ after) ?_ hr hc
  intro r hr hc ih hp
  rw [hf.under_eq hr hc, underAll] at hp ⊢
  obtain ⟨c, hcr, hpc⟩ := List.mem_flatMap.1 hp
  obtain ⟨l₁, l₂, hSplit⟩ := List.append_of_mem hcr
  rw [hSplit, List.flatMap_append, List.flatMap_cons]
  rcases List.mem_append.1 hpc with hpc | hpc
  · obtain ⟨before, after, hBlock⟩ := ih c ⟨hc, hcr⟩ hpc
    refine ⟨l₁.flatMap (fun c => g.under c ++ [c]) ++ before,
      after ++ [c] ++ l₂.flatMap (fun c => g.under c ++ [c]), ?_⟩
    simp only [hBlock, List.append_assoc]
  · obtain rfl := List.mem_singleton.1 hpc
    refine ⟨l₁.flatMap (fun c => g.under c ++ [c]), l₂.flatMap (fun c => g.under c ++ [c]), ?_⟩
    simp only [List.append_assoc]

end

/-! ### Forests that can be computed -/

namespace Graph

variable {g : Graph} {tops : List Value}

/-- The numbers of the links among some values. -/
def linkIds (vs : List Value) : List Nat :=
  vs.filterMap fun
    | .link id => some id
    | _ => none

theorem mem_linkIds {vs : List Value} {id : Nat} : id ∈ linkIds vs ↔ .link id ∈ vs := by
  rw [linkIds, List.mem_filterMap]
  constructor
  · rintro ⟨v, hv, h⟩
    cases v <;> simp_all
  · exact fun h => ⟨_, h, rfl⟩

def innerIds (g : Graph) (p : Nat) :
    List Nat := if g.isContainer (.link p) then g.nestedIds p else []

theorem mem_innerIds {p c : Nat} : c ∈ g.innerIds p ↔ g.Nested p c := by
  rw [innerIds, Nested]
  split <;> simp_all

/-- What a typedef of a unit leads to. -/
def typedefIds (g : Graph) (t : Nat) : List Nat :=
  if g.origin = .unit ∧ g.hasForm (.link t) .typedef = true then
    linkIds (g.field? (.link t) "typ").toList
  else []

theorem mem_typedefIds {t id : Nat} (ho : g.origin = .unit)
    (hForm : g.hasForm (.link t) .typedef = true)
    (hTyp : g.field? (.link t) "typ" = some (.link id)) :
    id ∈ g.typedefIds t := by
  rw [typedefIds, if_pos ⟨ho, hForm⟩, mem_linkIds, hTyp]
  simp

/-- The fields that a container or a typedef has to have are there. -/
def isFilled (g : Graph) (p : Nat) : Bool :=
  let has (id : Nat) (name : String) (f : Value → Bool) := (g.field? (.link id) name).any f
  (!g.hasForm (.link p) .typedef || has p "typ" fun _ => true) &&
    (!g.isContainer (.link p) ||
      has p "members" (· matches .list _) && has p "name" (·.isTrue) && has p "context"
        (fun _ => true) && (linkIds (g.membersOf p)).all fun f => !g.hasForm (.link f) .field || has
        f "typ" fun _ => true)

theorem Reached.mem_ids {ids : List Nat} (hTops : ∀ id ∈ linkIds tops, id ∈ ids)
    (hNext : ∀ p ∈ ids, ∀ c ∈ g.innerIds p ++ g.typedefIds p, c ∈ ids) {id : Nat}
    (h : Reached g tops id) : id ∈ ids := by
  induction h with
  | top h => exact hTops _ (mem_linkIds.2 h)
  | typedef _ ho hForm hTyp ih =>
    exact hNext _ ih _ (List.mem_append_right _ (mem_typedefIds ho hForm hTyp))
  | member _ hn ih => exact hNext _ ih _ (List.mem_append_left _ (mem_innerIds.2 hn))

end Graph

theorem Forest.of_ids (ids : List Nat) (rank : Nat → Nat) (hTops : ∀ id ∈ linkIds tops, id ∈ ids)
    (hNext : ∀ p ∈ ids, ∀ c ∈ g.innerIds p ++ g.typedefIds p, c ∈ ids ∧ rank c < rank p)
    (hInner : ∀ p ∈ ids, ∀ c ∈ g.innerIds p,
      c ∉ linkIds tops ∧ ∀ q ∈ ids, (c ∈ g.innerIds q → p = q) ∧ c ∉ g.typedefIds q)
    (hFields : ∀ p ∈ ids, p < g.entries.size ∧ (g.innerIds p).Nodup ∧ g.isFilled p = true) :
    Forest g tops := by
  have hReached : ∀ {id}, Reached g tops id → id ∈ ids :=
    Reached.mem_ids hTops fun p hp c hc => (hNext p hp c hc).1
  have hNested : ∀ {p c}, g.Nested p c → c ∈ g.innerIds p := mem_innerIds.2
  have hFilled : ∀ p, Reached g tops p → g.isContainer (.link p) = true →
      (∃ ms, g.field? (.link p) "members" = some (.list ms)) ∧
      (∃ v, g.field? (.link p) "name" = some v ∧ v.isTrue = true) ∧
      (∃ v, g.field? (.link p) "context" = some v) ∧ ∀ f, .link f ∈ g.membersOf p →
        g.hasForm (.link f) .field = true → ∃ v, g.field? (.link f) "typ" = some v := by
    intro p hp hc
    have h := (hFields p (hReached hp)).2.2
    simp only [isFilled, hc, Bool.not_true, Bool.false_or, Bool.and_eq_true, Option.any_eq_true,
      List.all_eq_true, mem_linkIds, Bool.or_eq_true, Bool.not_eq_true'] at h
    obtain ⟨-, ⟨⟨⟨v, hv, hList⟩, hName⟩, v', hContext, -⟩, hTyp⟩ := h
    refine ⟨?_, hName, ⟨v', hContext⟩, fun f hf hForm => ?_⟩
    · cases v <;> simp_all
    · obtain ⟨v, hv, -⟩ := (hTyp f hf).resolve_left (by simp [hForm])
      exact ⟨v, hv⟩
  exact {
    ranked :=
      ⟨rank, fun p c hp hn => (hNext p (hReached hp) c (List.mem_append_left _ (hNested hn))).2,
        fun t id ht ho hForm hTyp =>
        (hNext t (hReached ht) id (List.mem_append_right _ (mem_typedefIds ho hForm hTyp))).2⟩
    valid := fun id hid => (hFields id (hReached hid)).1
    unique := fun p q c hp hq hpc hqc =>
      ((hInner p (hReached hp) c (hNested hpc)).2 q (hReached hq)).1 (hNested hqc)
    once := fun p hp hc => by simpa [innerIds, hc] using (hFields p (hReached hp)).2.1
    not_top := fun p c hp hn hTop => (hInner p (hReached hp) c (hNested hn)).1 (mem_linkIds.2 hTop)
    not_named := fun p c t hp hn ho ht hForm hTyp =>
      ((hInner p (hReached hp) c (hNested hn)).2 t (hReached ht)).2 (mem_typedefIds ho hForm hTyp)
    members := fun p hp hc => (hFilled p hp hc).1
    name := fun p hp hc => (hFilled p hp hc).2.1.imp fun _ h => h.1
    context := fun p hp hc => (hFilled p hp hc).2.2.1
    named := fun _ p hp hc _ => .inl (hFilled p hp hc).2.1
    typ := fun p f hp hc hf hForm => (hFilled p hp hc).2.2.2 f hf hForm
    typedefs := fun _ t ht hForm => by
      have h := (hFields t (hReached ht)).2.2
      simp only [isFilled, hForm, Bool.not_true, Bool.false_or, Bool.and_eq_true,
        Option.any_eq_true] at h
      exact h.1.imp fun _ h => h.1 }

end PxdGen.Decl
