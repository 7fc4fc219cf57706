import PxdGen.Proofs.Decl.Key
import PxdGen.Proofs.Decl.Unseen
import PxdGen.Proofs.Unit.Couple
import PxdGen.Proofs.Unit.FlatModule
/-! # Units with other hashes

A hash is only compared with other hashes, so a unit whose hashes are replaced by others, different
ones by different ones, is read in the same way: the two readings go in step, and the tables they
fill differ in their keys alone. The hash of what has no declaration is zero and has to stay so.
-/

namespace PxdGen.Index

open Decl Decl.Work

/-! ### Sessions -/

/-- An entry of a table and the same under another hash. -/
def Rekeyed (f : Int → Int) (e e' : Key × Value) : Prop :=
  ∃ n, e.1 = .ofInt n ∧ e'.1 = .ofInt (f n) ∧ e'.2 = e.2

/-- Sessions in which a unit has been read under its own hashes and under others. -/
structure Rehashed (f : Int → Int) (s t : Session) : Prop where
  graph : t.graph = s.graph
  origin : s.graph.origin = .unit
  context : t.context = s.context
  sections : s.sections = {} ∧ t.sections = {}
  table : List.Forall₂ (Rekeyed f) s.table.entries.toList t.table.entries.toList

theorem Rehashed.seesGraph (f : Int → Int) : SeesGraph (Rehashed f) where
  graph := fun h => h.graph
  changed := fun h _ ho => { h with graph := rfl, origin := ho.trans h.origin }
  told := fun h _ => { h with }

variable {f : Int → Int} (hf : Function.Injective f)

variable {s t : Session}

theorem Rehashed.values_eq (h : Rehashed f s t) : t.table.values = s.table.values := by
  unfold Table.values
  have htable := h.table
  generalize s.table.entries.toList = l, t.table.entries.toList = l' at htable
  induction htable with
  | nil => rfl
  | cons he _ ih =>
    obtain ⟨n, -, -, hv⟩ := he
    rw [List.map_cons, List.map_cons, hv, ih]

section

theorem Rehashed.get?_of_beq (h : Rehashed f s t) {k k' : Key}
    (hk : ∀ m, (Key.ofInt (f m) == k') = (Key.ofInt m == k)) :
    t.table.get? k' = s.table.get? k := by
  rw [Table.get?_eq, Table.get?_eq]
  have htable := h.table
  generalize s.table.entries.toList = l, t.table.entries.toList = l' at htable
  induction htable with
  | nil => rfl
  | cons he _ ih =>
    obtain ⟨m, hm, hm', hv⟩ := he
    rw [List.find?_cons, List.find?_cons, hm, hm', hk]
    split
    · simp [hv]
    · exact ih

include hf

theorem ofInt_beq_injective (m n : Int) :
    (Key.ofInt (f m) == Key.ofInt (f n)) = (Key.ofInt m == Key.ofInt n) := by
  rw [Key.ofInt_beq, Key.ofInt_beq, Bool.eq_iff_iff]
  simp [hf.eq_iff]

theorem Rehashed.get?_eq (h : Rehashed f s t) (n : Int) :
    t.table.get? (.ofInt (f n)) = s.table.get? (.ofInt n) :=
  h.get?_of_beq fun m => ofInt_beq_injective hf m n

theorem Rehashed.register (h : Rehashed f s t) (n : Int) (v : Value) :
    Rehashed f { s with table := s.table.insert (.ofInt n) v }
      { t with table := t.table.insert (.ofInt (f n)) v } := by
  refine { h with table := ?_ }
  rw [Table.toList_insert, Table.toList_insert]
  have htable := h.table
  generalize s.table.entries.toList = l, t.table.entries.toList = l' at htable
  induction htable with
  | nil => exact .cons ⟨n, rfl, rfl, rfl⟩ .nil
  | @cons e e' _ _ he hrest ih =>
    obtain ⟨k, v₀⟩ := e
    obtain ⟨k', v₁⟩ := e'
    obtain ⟨m, rfl, rfl, hv⟩ : ∃ m, k = .ofInt m ∧ k' = .ofInt (f m) ∧ v₁ = v₀ := he
    rw [Table.put, Table.put, ofInt_beq_injective hf]
    split
    · exact .cons ⟨m, rfl, rfl, rfl⟩ hrest
    · exact .cons ⟨m, rfl, rfl, hv⟩ ih

end

/-! ### Reading -/

theorem Rehashed.get?_key (hf : Function.Injective f) (h : Rehashed f s t) {a b : Typed}
    (hab : TypedPair f (some a) (some b)) :
    t.table.get? (.named b.key) = s.table.get? (.named a.key) := by
  cases hab with
  -- no declaration is entered under the key of a type that has none
  | plain v => exact h.get?_of_beq fun _ => rfl
  | declared v n => exact h.get?_eq hf n

/-- The two readings are in step. -/
def Rehashing (f : Int → Int) : Saying := fun _ _ R x y => InStep (Rehashed f) R x y

theorem coupling_rehashing (hf : Function.Injective f) (h0 : f 0 = 0) :
    Coupling f (Rehashing f) where
  zero := h0
  pure := fun h => InStep.pure h
  throw := fun e => InStep.throw e
  bind := fun hx hk => InStep.bind hx hk
  get := fun hk => InStep.get fun s t h => hk s t h.graph
  say := fun line => (Rehashed.seesGraph f).say line
  fill := fun hk => InStep.modify fun s t h => by
    rw [h.graph]
    exact (Rehashed.seesGraph f).changed h _ (hk s.graph).origin
  top := InStep.get fun s t h => by
    rw [h.context]
    split
    · exact .pure rfl
    · exact .throw _
  find := by
    refine fun {a b} hab => InStep.get fun s t h => ?_
    have hKey : a.key.isKey = true ∧ b.key.isKey = true ∧ a.key.asText? = b.key.asText? := by
      cases hab <;> exact ⟨rfl, rfl, rfl⟩
    simp only [lookup, keyOf, hKey, if_true, pure_bind, h.get?_key hf hab]
    split
    · exact .pure rfl
    · exact .throw _
  known? := by
    refine fun tree c => InStep.get fun s t h => ?_
    have hget := h.get?_eq hf (tree.cursor c).hash
    rw [cursor_rehash h0]
    simp only [Key.ofInt] at hget
    rw [hget]
    split <;> exact .pure rfl

variable {sub sub' : Cursor → Nat → Work Value} {type type' : TypeRef → Nat → Work (Option Typed)}

section

variable (hf : Function.Injective f) (h0 : f 0 = 0) (tree : Tree)

include hf h0

theorem inStep_visit
    (htype : ∀ t level, InStep (Rehashed f) (TypedPair f) (type t level) (type' t level))
    (c : Cursor) (kind : Kind) (level : Nat) :
    InStep (Rehashed f) Eq (visit tree type c kind level)
        (visit (tree.rehash f) type' c kind level) := by
  have := coupling_rehashing hf h0
  by_cases hKind : kind.name = "TRANSLATION_UNIT"
  · rw [visit, visit, hKind, cursor_rehash h0]
    exact .bindEq ((Rehashed.seesGraph f).make _ _) fun v =>
      .bindEq (.modify fun _ _ h => { h with context := by rw [h.context] }) fun _ => .pure rfl
  · exact Coupled.visit (L := Rehashing f) tree htype c hKind level

theorem inStep_enter (c : Cursor) (kind : Kind) (v : Value) (level : Nat) :
    InStep (Rehashed f) Eq (enter tree c kind v level) (enter (tree.rehash f) c kind v level) := by
  have := coupling_rehashing hf h0
  have hS := Rehashed.seesGraph f
  have hLocate : InStep (Rehashed f) Eq (locate tree c v) (locate (tree.rehash f) c v) :=
    Coupled.locate (L := Rehashing f) tree c v
  rw [enter_eq, enter_eq, cursor_rehash h0]
  refine .bindEq hLocate fun _ => .bindEq (.modify fun s t h => Rehashed.register hf h _ v) fun _ =>
    ?_
  exact .bindEq (SeesNames.check _) fun _ => .bindEq (hS.say _) fun _ => .bindEq (hS.field _ _)
      fun _ =>
    .bindEq (hS.literal _) fun _ => .bindEq (hS.say _) fun _ => hS.say _

theorem inStep_readInside (hsub : ∀ c level, InStep (Rehashed f) Eq (sub c level) (sub' c level))
    (c : Cursor) (kind : Kind) (v : Value) (level : Nat) :
    InStep (Rehashed f) Eq (readInside tree sub c kind v level)
      (readInside (tree.rehash f) sub' c kind v level) := by
  have := coupling_rehashing hf h0
  have hClose : InStep (Rehashed f) Eq
      (modify (fun s : Session => { s with openText := none, openKey := none }) >>= fun _ => pure v)
      (modify (fun s : Session => { s with openText := none, openKey := none }) >>= fun _ =>
          pure v) :=
    .bindEq (.modify fun _ _ h => { h with }) fun _ => .pure rfl
  have hPop : InStep (Rehashed f) Eq pop pop := by
    refine .get fun s t h => ?_
    rw [h.context]
    split
    · exact .bindEq (.modify fun _ _ h => { h with context := rfl }) fun _ => .pure rfl
    · exact .throw _
  rw [readInside, readInside, cursor_rehash h0]
  split
  · refine .bindEq (.modify fun _ _ h => { h with context := by rw [h.context] }) fun _ => ?_
    refine .bindEq ?_ fun _ => .bindEq hPop fun _ => hClose
    exact Coupled.readChildren (L := Rehashing f) (fun _ _ _ => hsub _ _) v level
  · exact hClose

theorem inStep_elementStep
    (htype : ∀ t level, InStep (Rehashed f) (TypedPair f) (type t level) (type' t level))
    (hsub : ∀ c level, InStep (Rehashed f) Eq (sub c level) (sub' c level)) (c : Cursor)
    (level : Nat) :
    InStep (Rehashed f) Eq (elementStep tree type sub c level)
      (elementStep (tree.rehash f) type' sub' c level) := by
  have hInside := inStep_readInside hf h0 tree hsub c
  unfold elementStep
  rw [kind_rehash h0]
  refine .bindEq (SeesNames.check _) fun kind => ?_
  rw [show ((tree.rehash f).cursor c).location = (tree.cursor c).location by rw [cursor_rehash h0]]
  split
  · exact .pure rfl
  · refine .bindEq (inStep_visit hf h0 tree htype c kind level) fun v => ?_
    dsimp only
    split
    · exact hInside kind _ level
    · exact .bindEq (inStep_enter hf h0 tree c kind _ level) fun _ => hInside kind _ level

theorem inStep_readElement (fuel : Nat) (c : Cursor) (level : Nat) :
    InStep (Rehashed f) Eq (readElement tree fuel c level)
    (readElement (tree.rehash f) fuel c level) := by
  have := coupling_rehashing hf h0
  induction fuel generalizing c level with
  | zero => exact .throw _
  | succ fuel ih =>
    refine inStep_elementStep hf h0 tree (fun t level => ?_) ih c level
    exact Coupled.readType (L := Rehashing f) tree (fun _ _ => ih _ _) (2 * tree.types.size + 3) t
      level true

theorem inStep_readUnit : InStep (Rehashed f) Eq (readUnit tree) (readUnit (tree.rehash f)) := by
  have hS := Rehashed.seesGraph f
  have hnesting : nesting (tree.rehash f) = nesting tree := by simp [nesting, Tree.rehash]
  refine .bindEq (.forM (fun d => ?_) _) fun _ => ?_
  · exact .bindEq (hS.say _) fun _ => .bindEq (hS.say _) fun _ => .bindEq (hS.say _) fun _ =>
      .bindEq (hS.say _) fun _ => .bindEq (hS.say _) fun _ => hS.say _
  · rw [readTree, readTree, hnesting]
    exact inStep_readElement hf h0 tree _ _ _

end

/-! ### From the unit to the text -/

/-- What has been read is collected in the order of the table, whatever its keys are. -/
theorem inStep_result : InStep (Rehashed f) Eq result result := by
  have hS := Rehashed.seesGraph f
  have hsection : ∀ name, InStep (Rehashed f) (fun v w => v = .nothing ∧ w = .nothing)
      (sectionText name) (sectionText name) := by
    intro name
    refine .get fun s t h => ?_
    rw [h.sections.1, h.sections.2]
    exact .pure ⟨rfl, rfl⟩
  refine .bind (R := fun o o' => o = .unit ∧ o' = .unit) ?_ fun o o' ho => ?_
  · exact .get fun s t h => .pure ⟨h.origin, h.graph ▸ h.origin⟩
  · obtain ⟨rfl, rfl⟩ := ho
    refine .bind (hsection "functions") fun v w hv => ?_
    obtain ⟨rfl, rfl⟩ := hv
    refine .bindEq (.pure rfl) fun _ => .get fun s t h => ?_
    rw [h.graph, h.values_eq]
    refine .bindEq (hS.namesOf _) fun names => .bind (hsection "aliases") fun v w hv => ?_
    obtain ⟨rfl, rfl⟩ := hv
    exact .bindEq (.pure rfl) fun _ => .pure rfl

/-- Reads a unit and gives the text of the pxd file for a header. -/
def pxdText (tree : Tree) (header : String) : Work String := do
  let module ← translate tree header
  rendering (Pxd.renderModule module)

/-- **The text does not depend on the hashes of the cursors**, and neither does the fault at which
the work stops if there is no text. -/
theorem outcome_pxdText_rehash (hf : Function.Injective f) (h0 : f 0 = 0) (tree : Tree)
    (header : String) {s : Session} (ho : s.graph.origin = .unit) :
    (outcome (pxdText (tree.rehash f) header) s).1 = (outcome (pxdText tree header) s).1 := by
  have hS := Rehashed.seesGraph f
  -- reading starts with an empty table on both sides
  have hrun : ∀ tree, outcome (pxdText tree header) s = outcome (do
          let _ ← readUnit tree
          let found ← result
          let ready ← prepare (.list found)
          let module ← moduleOf ready (.text header)
          rendering (Pxd.renderModule module))
        { s with context := [], table := {}, sections := {}, openText := none, openKey := none,
                 revision := none } := by
    intro tree
    simp only [pxdText, translate, bind_assoc, outcome_bind]
    rfl
  rw [hrun, hrun]
  refine InStep.fst_eq (S := Rehashed f) ?_ ⟨rfl, ho, rfl, ⟨rfl, rfl⟩, .nil⟩
  refine .bindEq (inStep_readUnit hf h0 tree) fun _ => .bindEq inStep_result fun found => ?_
  refine .bindEq ?_ fun ready => .bindEq (hS.moduleOf _ _) fun module => hS.rendering _
  refine .bindEq (hS.findToplevel _) fun toplevel => ?_
  refine .bind (R := fun o o' => o = .unit ∧ o' = .unit) ?_ fun o o' ho => ?_
  · exact .get fun s t h => .pure ⟨h.origin, h.graph ▸ h.origin⟩
  · obtain ⟨rfl, rfl⟩ := ho
    exact hS.flatten toplevel

set_option maxRecDepth 100000 in
theorem outcome_pxdText_rehash_repeatedName :
    (outcome (pxdText repeatedName "t.h") { graph := { origin := .unit } }).1.toOption.isSome =
      true ∧ (outcome (pxdText (repeatedName.rehash (-3 * ·)) "t.h")
        { graph := { origin := .unit } }).1 =
        (outcome (pxdText repeatedName "t.h") { graph := { origin := .unit } }).1 :=
  ⟨by decide +kernel, outcome_pxdText_rehash (fun a b (h : -3 * a = -3 * b) => by omega) rfl
    repeatedName "t.h" rfl⟩

end PxdGen.Index
