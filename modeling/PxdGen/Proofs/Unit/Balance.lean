import PxdGen.Proofs.Decl.Body
import PxdGen.Proofs.Unit.Couple
/-! # What is left after reading

Reading a cursor reads its children while its declaration is on the stack, and a type may have its
declaration read on the way. Still the stack is as before when a cursor has been read, and no hash
has gone from the table.
-/

namespace PxdGen.Table

open Decl

theorem keys_prefix_insert {α : Type} (t : Table Key α) (k : Key) (v : α) :
    t.keys <+: (t.insert k v).keys := by
  rw [keys, keys, toList_insert]
  induction t.entries.toList with
  | nil => exact List.nil_prefix
  | cons e l ih =>
    rw [put]
    split
    · exact List.prefix_rfl
    · exact List.prefix_cons_inj e.1 |>.2 ih

end PxdGen.Table

namespace PxdGen.Index

open Decl Decl.Work

variable {tree : Tree} {s s' t : Session} {v : Value} {c : Cursor} {n : Int}

/-! ### One reading -/

/-- Sessions that may follow on each other, and do so when something is told or filled. -/
structure Filling (T : Session → Session → Prop) : Prop where
  refl : ∀ s, T s s
  trans : ∀ {s t u}, T s t → T t u → T s u
  told : ∀ s text, T s { s with console := s.console ++ text }
  filled : ∀ s g, s.graph.Fills g → T s { s with graph := g }

/-- The session after the first of two readings may follow on the one before. -/
def Alone (T : Session → Session → Prop) : Saying :=
  fun _ _ R x _ => ∀ ⦃s a s'⦄, Gives x s a s' → T s s' ∧ ∃ b, R a b

theorem coupling_alone {T : Session → Session → Prop} (hT : Filling T) : Coupling id (Alone T) := by
  have hLooks : ∀ {α : Type} {x y : Work α} {P : Session → α → Prop}, (∀ s, Looks (P s) x s) →
      Alone T α α Eq x y := by
    intro α x y P h s a s' hGives
    rcases h s with ⟨b, hb, -⟩ | ⟨e, he, -⟩
    · rw [(Gives.unique hGives hb).2]
      exact ⟨hT.refl s, a, rfl⟩
    · cases (gives_iff_outcome.1 hGives).symm.trans he
  exact {
    zero := rfl
    pure := fun h s a s' hGives => by
      obtain ⟨rfl, rfl⟩ := gives_pure.1 hGives
      exact ⟨hT.refl _, _, h⟩
    throw := fun e s a s' hGives => absurd hGives gives_throw
    bind := fun hx hk s c s' hGives => by
      obtain ⟨a, t, ha, hc⟩ := gives_bind.1 hGives
      obtain ⟨hFirst, b, hab⟩ := hx ha
      obtain ⟨hRest, hc⟩ := hk a b hab hc
      exact ⟨hT.trans hFirst hRest, hc⟩
    get := fun hk s a s' hGives => hk s s rfl (gives_after (gives_get.2 ⟨rfl, rfl⟩) hGives)
    say := fun line s a s' hGives => by
      rw [gives_modify.1 hGives]
      exact ⟨hT.told s _, a, rfl⟩
    fill := fun hk s a s' hGives => by
      rw [gives_modify.1 hGives]
      exact ⟨hT.filled s _ (hk s.graph), a, rfl⟩
    top := hLooks (P := fun _ _ => True) fun s => .get (by
      split
      · exact .pure trivial
      · exact .throw (by decide))
    find := fun _ => hLooks fun _ => looks_find _
    known? := fun tree c => hLooks (P := fun _ _ => True) fun s => .get (by
      split <;> exact .pure trivial) }

/-! ### Cursors that are read again -/

/-- A session in which nothing has happened since another one, but that more has been filled and
told. -/
def Filled (s t : Session) : Prop := s.graph.Fills t.graph ∧ t.context = s.context ∧
    t.table = s.table

theorem filling_filled : Filling Filled where
  refl := fun _ => ⟨.refl _, rfl, rfl⟩
  trans := fun h h' => ⟨h.1.trans h'.1, h'.2.1.trans h.2.1, h'.2.2.trans h.2.2⟩
  told := fun _ _ => ⟨.refl _, rfl, rfl⟩
  filled := fun _ _ hg => ⟨hg, rfl, rfl⟩

/-- A declaration that there is in a session. -/
def IsIn (v : Value) (s : Session) : Prop := ∀ id, v = .link id → id < s.graph.entries.size

theorem IsIn.later (h : IsIn v s) (hs : s.graph.Fills t.graph) : IsIn v t :=
  fun id hid => Nat.lt_of_lt_of_le (h id hid) hs.size

/-- A cursor with a hash has been read between two sessions, when some declaration was there
already, and has become another one. -/
def Reread (tree : Tree) (n : Int) (old new : Value) (s s' : Session) : Prop :=
  ∃ fuel c level t t', (tree.cursor c).hash = n ∧ Gives (readElement tree fuel c level) t new t' ∧
    s.graph.Fills t.graph ∧ t'.graph.Fills s'.graph ∧ IsIn old t

/-- What is on the stack, and which hashes are in the table, is as before, apart from new hashes.
What is found under a hash is as before, or has been read meanwhile. -/
structure Kept (tree : Tree) (s s' : Session) : Prop where
  later : s.graph.Fills s'.graph
  context : s'.context = s.context
  keys : s.table.keys <+: s'.table.keys
  table : ∀ n, s'.table.get? (.ofInt n) = s.table.get? (.ofInt n) ∨
    ∃ w, s'.table.get? (.ofInt n) = some w ∧ Reread tree n .nothing w s s'

variable {level : Nat} {old w : Value} {u : Session}

theorem Reread.mono {u' : Session} (h : Reread tree n old w s s') (hs : u.graph.Fills s.graph)
    (hs' : s'.graph.Fills u'.graph) : Reread tree n old w u u' := by
  obtain ⟨fuel, c, level, t, t', hc, hGives, ht, ht', hOld⟩ := h
  exact ⟨fuel, c, level, t, t', hc, hGives, hs.trans ht, ht'.trans hs', hOld⟩

/-- What was there in the first session was there when the cursor was read. -/
theorem Reread.since (h : Reread tree n old w s s') (hv : IsIn v s) : Reread tree n v w s s' := by
  obtain ⟨fuel, c, level, t, t', hc, hGives, ht, ht', -⟩ := h
  exact ⟨fuel, c, level, t, t', hc, hGives, ht, ht', hv.later ht⟩

theorem Filled.kept (h : Filled s s') : Kept tree s s' :=
  ⟨h.1, h.2.1, h.2.2 ▸ List.prefix_rfl, fun _ => .inl (by rw [h.2.2])⟩

theorem Kept.trans (h : Kept tree s t) (h' : Kept tree t u) : Kept tree s u where
  later := h.later.trans h'.later
  context := h'.context.trans h.context
  keys := h.keys.trans h'.keys
  table := by
    intro n
    rcases h'.table n with hSame | ⟨w, hw, hRead⟩
    · rcases h.table n with hFirst | ⟨w, hw, hRead⟩
      · exact .inl (hSame.trans hFirst)
      · exact .inr ⟨w, hSame.trans hw, hRead.mono (.refl _) h'.later⟩
    · exact .inr ⟨w, hw, hRead.mono h.later (.refl _)⟩

theorem filling_kept (tree : Tree) : Filling (Kept tree) where
  refl := fun s => (filling_filled.refl s).kept
  trans := .trans
  told := fun s text => (filling_filled.told s text).kept
  filled := fun s g hg => (filling_filled.filled s g hg).kept

/-! ### Cursors -/

/-- The cursor of a whole unit. -/
def Tree.IsWhole (tree : Tree) (c : Cursor) : Prop :=
  ∃ kind, tree.kind c = .ok kind ∧ kind.name = "TRANSLATION_UNIT"

/-- No cursor of a whole unit is a child or the declaration of a type. -/
structure Tree.HasNoInnerUnit (tree : Tree) : Prop where
  children : ∀ c, ∀ child ∈ (tree.cursor c).children, ¬ tree.IsWhole (.numbered child)
  declaration : ∀ t, ¬ tree.IsWhole (tree.declaration t)

/-- What is found under a hash when it has been read: the declaration that it became, or one that a
cursor with the same hash became later. -/
def Entered (tree : Tree) (n : Int) (v : Value) (s s' : Session) : Prop :=
  ∃ w, s'.table.get? (.ofInt n) = some w ∧ (w = v ∨ Reread tree n v w s s')

variable {kind : Kind}

section

variable (hTree : tree.HasNoInnerUnit) {element : Cursor → Nat → Work Value}
variable (hElement : ∀ c, ¬ tree.IsWhole c → ∀ level s v s', Gives (element c level) s v s' →
    Kept tree s s')

include hTree hElement

theorem kept_of_gives_readInside (h : Gives (readInside tree element c kind v level) s w s') :
    Kept tree s s' ∧ w = v := by
  have := coupling_alone (filling_kept tree)
  -- nothing is found out about a session by closing what was being read
  have hClose : ∀ {s : Session}, Gives (do
      modify fun s => { s with openText := none, openKey := none }
      pure v) s w s' → Kept tree s s' ∧ w = v := by
    intro s h
    obtain ⟨_, t, ht, h⟩ := gives_bind.1 h
    obtain ⟨rfl, rfl⟩ := gives_pure.1 h
    rw [gives_modify.1 ht]
    exact ⟨Filled.kept ⟨.refl _, rfl, rfl⟩, rfl⟩
  unfold readInside at h
  split at h
  · obtain ⟨_, s₁, hPush, h⟩ := gives_bind.1 h
    obtain ⟨_, s₂, hChildren, h⟩ := gives_bind.1 h
    rw [gives_modify.1 hPush] at hChildren
    have hSub : ∀ child ∈ (tree.cursor c).children, ∀ level, Coupled (Alone (Kept tree)) Eq
        (element (.numbered child) level) (element (.numbered child) level) :=
      fun child hc level s v s' h => ⟨hElement _ (hTree.children c child hc) level s v s' h, v, rfl⟩
    have hKept := (Coupled.readChildren hSub v level hChildren).1
    have hPop : Gives pop s₂ v { s₂ with context := s.context } := by
      refine Gives.bind (gives_get.2 ⟨rfl, rfl⟩) ?_
      rw [hKept.context]
      rfl
    have h := gives_after hPop h
    obtain ⟨hRest, rfl⟩ := hClose h
    refine ⟨Kept.trans (t := { s₂ with context := s.context }) ?_ hRest, rfl⟩
    exact { later := hKept.later, context := rfl, keys := hKept.keys, table := hKept.table }
  · exact hClose h

omit hTree hElement in
theorem table_of_gives_enter (h : Gives (enter tree c kind v level) s () s') :
    s.graph.Fills s'.graph ∧ s'.context = s.context ∧
      s'.table = s.table.insert (.ofInt (tree.cursor c).hash) v ∧ IsIn v s' := by
  have := coupling_alone filling_filled
  rw [enter_eq] at h
  obtain ⟨_, t, hLocate, h⟩ := gives_bind.1 h
  obtain ⟨hLocate, hContext, hTable⟩ := (Coupled.locate (L := Alone Filled) tree c v hLocate).1
  obtain ⟨_, t₁, hRegister, h⟩ := gives_bind.1 h
  obtain rfl := gives_modify.1 hRegister
  obtain ⟨typeKind, t₂, hCheck, h⟩ := gives_bind.1 h
  obtain ⟨_, t₃, hTell, h⟩ := gives_bind.1 h
  obtain ⟨name, t₄, hField, h⟩ := gives_bind.1 h
  obtain ⟨hName, rfl⟩ := gives_field_iff.1 hField
  have hRest : Coupled (Alone Filled) Eq _ _ := .bindEq (.literal name) fun text =>
    .bindEq (.tell level ["name:", text]) fun _ => .say ""
  have hSaid := (hRest h).1
  obtain ⟨hLater, hContext', hTable'⟩ := filling_filled.trans
    (Coupled.check (L := Alone Filled) _ hCheck).1
    (filling_filled.trans (Coupled.tell (L := Alone Filled) _ _ hTell).1 hSaid)
  refine ⟨hLocate.trans hLater, hContext'.trans hContext, by rw [hTable', ← hTable]; rfl, ?_⟩
  -- its name has been looked up, so it is in the graph
  rintro id rfl
  exact Nat.lt_of_lt_of_le (Graph.lt_size_of_field? _ hName) hSaid.1.size

theorem coupled_readType (steps : Nat) (t : TypeRef) (level : Nat) (resolve : Bool) :
    Coupled (Alone (Kept tree)) (TypedPair id) (readType tree element steps t level resolve)
      (readType tree element steps t level resolve) := by
  have := coupling_alone (filling_kept tree)
  have hDeclared : ∀ t level, Coupled (Alone (Kept tree)) Eq (element (tree.declaration t) level)
      (element (tree.declaration t) level) :=
    fun t level s v s' h => ⟨hElement _ (hTree.declaration t) level s v s' h, v, rfl⟩
  intro s r s' h
  exact Coupled.readType tree hDeclared steps t level resolve h

/-- What reading a cursor leaves of the session, if it is known for the cursors that it leads to. -/
theorem kept_of_gives_elementStep {type : TypeRef → Nat → Work (Option Typed)}
    (hType : ∀ t level, Coupled (Alone (Kept tree)) (TypedPair id) (type t level) (type t level))
    (hc : ¬ tree.IsWhole c) {fuel : Nat}
    (hStep : readElement tree fuel c level = elementStep tree type element c level)
    (hRun : Gives (elementStep tree type element c level) s v s') :
    Kept tree s s' ∧ (v ≠ .nothing → Entered tree (tree.cursor c).hash v s s') := by
  have := coupling_alone (filling_kept tree)
  obtain ⟨kind, s₀, hCheck, h⟩ := gives_bind.1 hRun
  have hStart := (Coupled.check (L := Alone (Kept tree)) _ hCheck).1
  dsimp only at h
  split at h
  · obtain ⟨rfl, rfl⟩ := gives_pure.1 h
    exact ⟨hStart, fun hv => absurd rfl hv⟩
  · obtain ⟨w, s₁, hVisit, h⟩ := gives_bind.1 h
    have hKind :
      kind.name ≠ "TRANSLATION_UNIT" := fun hn => hc ⟨kind, eq_ok_of_gives_check hCheck, hn⟩
    have hVisited := hStart.trans (Coupled.visit (L := Alone (Kept tree)) tree hType c hKind level
      hVisit).1
    split at h
    · obtain ⟨hInside, rfl⟩ := kept_of_gives_readInside hTree hElement h
      exact ⟨hVisited.trans hInside, fun hv => absurd rfl hv⟩
    · obtain ⟨_, s₂, hEnter, h⟩ := gives_bind.1 h
      obtain ⟨hInside, rfl⟩ := kept_of_gives_readInside hTree hElement h
      obtain ⟨hLater, hContext, hTable, hIn⟩ := table_of_gives_enter hEnter
      have hBefore : s.graph.Fills s₂.graph := hVisited.later.trans hLater
      have hFound : Entered tree (tree.cursor c).hash v s s' := by
        rcases hInside.table (tree.cursor c).hash with hSame | ⟨w, hw, hRead⟩
        · exact ⟨v, by rw [hSame, hTable, Table.get?_insert_self], .inl rfl⟩
        · exact ⟨w, hw, .inr ((hRead.since hIn).mono hBefore (.refl _))⟩
      refine ⟨⟨hBefore.trans hInside.later, hInside.context.trans (hContext.trans hVisited.context),
        ?_, fun n => ?_⟩, fun _ => hFound⟩
      · have hKeys := hInside.keys
        rw [hTable] at hKeys
        exact (hVisited.keys.trans (Table.keys_prefix_insert _ _ _)).trans hKeys
      · by_cases hn : (tree.cursor c).hash = n
        · obtain ⟨w, hw, hRead⟩ := hn ▸ hFound
          refine .inr ⟨w, hw, ?_⟩
          rcases hRead with rfl | hRead
          · exact ⟨fuel, c, level, s, s', hn, hStep ▸ hRun, .refl _, .refl _, by rintro id ⟨⟩⟩
          · exact hRead.since (by rintro id ⟨⟩)
        · rcases hInside.table n with hSame | ⟨w, hw, hRead⟩
          · rw [hSame, hTable, Table.get?_insert_of_ne _ _ hn]
            rcases hVisited.table n with hFirst | ⟨w, hw, hRead⟩
            · exact .inl hFirst
            · exact .inr ⟨w, hw, hRead.mono (.refl _) (hLater.trans hInside.later)⟩
          · exact .inr ⟨w, hw, hRead.mono hBefore (.refl _)⟩

end

theorem kept_of_gives_readElement (hTree : tree.HasNoInnerUnit) (fuel : Nat) (c : Cursor)
    (hc : ¬ tree.IsWhole c) (level : Nat) (s : Session) (v : Value) (s' : Session)
    (h : Gives (readElement tree fuel c level) s v s') :
    Kept tree s s' ∧ (v ≠ .nothing → Entered tree (tree.cursor c).hash v s s') := by
  induction fuel generalizing c level s v s' with
  | zero => cases h
  | succ fuel ih =>
    have hElement := fun c hc level s v s' h => (ih c hc level s v s' h).1
    exact kept_of_gives_elementStep hTree hElement
      (fun t level => coupled_readType hTree hElement _ t level true) hc
      (show readElement tree (fuel + 1) c level = _ from rfl) h

/-- **Reading keeps the stack and the table in order.** When a cursor has been read, or a type, the
stack is as before, and so are the hashes in the table, apart from new ones. What the cursor became
is found under its hash, unless a cursor with the same hash was read later. What is found under any
hash after reading a type was found there before, or a cursor with that hash has become it
meanwhile. -/
theorem readElement_keeps_order (hTree : tree.HasNoInnerUnit) (fuel : Nat) :
    (∀ c level s v s', ¬ tree.IsWhole c → Gives (readElement tree fuel c level) s v s' →
      s'.context = s.context ∧ s.table.keys <+: s'.table.keys ∧
        (v ≠ .nothing → Entered tree (tree.cursor c).hash v s s')) ∧
    ∀ steps t level resolve s r s',
      Gives (readType tree (readElement tree fuel) steps t level resolve) s r s' →
      s'.context = s.context ∧ s.table.keys <+: s'.table.keys ∧
        ∀ n, s'.table.get? (.ofInt n) = s.table.get? (.ofInt n) ∨
          ∃ w, s'.table.get? (.ofInt n) = some w ∧ Reread tree n .nothing w s s' := by
  constructor
  · intro c level s v s' hc h
    obtain ⟨hKept, hEntered⟩ := kept_of_gives_readElement hTree fuel c hc level s v s' h
    exact ⟨hKept.context, hKept.keys, hEntered⟩
  · intro steps t level resolve s r s' h
    have hKept := (coupled_readType hTree (fun c hc level s v s' h =>
      (kept_of_gives_readElement hTree fuel c hc level s v s' h).1) steps t level resolve h).1
    exact ⟨hKept.context, hKept.keys, hKept.table⟩

/-- A struct with a pointer to a type of which nothing is known but what it is called. -/
def hiddenField : Tree where
  cursors := #[
    { kind := 2, spelling := "S", hash := 7, location := { file := some "t.h" }, children := [1] },
    { kind := 6, spelling := "p", hash := 8, location := { file := some "t.h" }, type := some 1,
      children := [2] },
    { kind := 43, display := "T", hash := 9, location := { file := some "t.h" }, type := some 0 }]
  types := #[{ kind := 1 }, { kind := 101, pointee := some 0 }]

theorem not_isWhole_hiddenField (c : Cursor) : ¬ hiddenField.IsWhole c := by
  have hKinds : ∀ i < 4, (hiddenField.kind (.numbered i)).toOption.map Kind.name ≠
      some "TRANSLATION_UNIT" := by decide
  rintro ⟨kind, hk, hn⟩
  cases c with
  | numbered i =>
    by_cases hi : i < 3
    · exact hKinds i (by omega) (by rw [hk]; exact congrArg some hn)
    · have hSame : hiddenField.cursor (.numbered i) = hiddenField.cursor (.numbered 3) := by
        rw [Tree.cursor, Array.getElem?_eq_none (Nat.not_lt.1 hi)]
        rfl
      rw [Tree.kind, hSame] at hk
      exact hKinds 3 (by omega) (by rw [Tree.kind, hk]; exact congrArg some hn)
  | undeclared | null =>
    cases hk
    exact absurd hn (by decide)

def rootSession : Session := { graph := { origin := .unit }, context := [.nothing] }

theorem readElement_keeps_order_hiddenField : ∃ s',
    Gives (readElement hiddenField 4 (.numbered 0) 0) rootSession (.link 0) s' ∧
      s'.context = [.nothing] ∧ Entered hiddenField 7 (.link 0) rootSession s' := by
  have hLink : (outcome (readElement hiddenField 4 (.numbered 0) 0) rootSession).1.toOption.any
      (·.same (.link 0)) = true := by decide +kernel
  obtain ⟨v, h⟩ := exists_gives_of_isOk (show (outcome (readElement hiddenField 4 (.numbered 0) 0)
    rootSession).1.isOk = true by decide +kernel)
  rw [gives_iff_outcome.1 h] at hLink
  obtain rfl : v = .link 0 := by cases v <;> simp_all [Except.toOption, Value.same]
  have hTree : hiddenField.HasNoInnerUnit :=
    ⟨fun _ _ _ => not_isWhole_hiddenField _, fun _ => not_isWhole_hiddenField _⟩
  obtain ⟨hContext, -, hEntered⟩ :=
    (readElement_keeps_order hTree 4).1 _ _ _ _ _ (not_isWhole_hiddenField _) h
  exact ⟨_, h, hContext, hEntered (by simp)⟩

end PxdGen.Index
