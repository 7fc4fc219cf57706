import PxdGen.Decl.Resolve
import PxdGen.Proofs.Decl.Graph
import PxdGen.Proofs.Decl.Key
import PxdGen.Proofs.InStep
import PxdGen.Proofs.Level
/-! # Work that comes to an end

Work that follows references has fuel, and stops as endless when that is used up. `Advances` says of
two pieces of work, of which the second may have more fuel, that they have the same outcome and that
neither is endless.
-/

namespace PxdGen.Decl

open Work

variable {name : String} {w : Value} {e : Entry} {origin : Origin} {form : Form} {args : List Value}

/-! ### Chains of types -/

/-- The fields that lead from a declaration to its type. -/
def typeFields : List String := ["typ", "returns"]

/-- The types of a value can be followed to an end, and all of them are in the graph. -/
inductive Graph.Grounded (g : Graph) : Value → Prop
  | intro {v : Value} (hIn : ∀ id, v = .link id → id < g.entries.size)
      (hNext : ∀ name ∈ typeFields, ∀ w, g.field? v name = some w → g.Grounded w) : g.Grounded v

namespace Graph

variable {g g' : Graph} {v : Value}

theorem grounded_of_forall_ne (h : ∀ id, v ≠ .link id) : g.Grounded v := by
  refine .intro (fun id hv => absurd hv (h id)) fun name _ w hw => ?_
  cases v with
  | link id => exact absurd rfl (h id)
  | _ => cases hw

@[simp] theorem grounded_nothing : g.Grounded .nothing := grounded_of_forall_ne (by simp)

@[simp] theorem grounded_flag (b : Bool) : g.Grounded (.flag b) := grounded_of_forall_ne (by simp)

@[simp] theorem grounded_int (n : Int) : g.Grounded (.int n) := grounded_of_forall_ne (by simp)

@[simp] theorem grounded_text (t : String) : g.Grounded (.text t) := grounded_of_forall_ne (by simp)

@[simp] theorem grounded_list (vs : List Value) : g.Grounded (.list vs) :=
  grounded_of_forall_ne (by simp)

theorem Grounded.lt_size {id : Nat} (h : g.Grounded (.link id)) : id < g.entries.size := by
  cases h with
  | intro hIn _ => exact hIn id rfl

theorem Grounded.next (h : g.Grounded v) (hName : name ∈ typeFields)
    (hw : g.field? v name = some w) : g.Grounded w := by
  cases h with
  | intro _ hNext => exact hNext name hName w hw

/-- A graph has grown, and no declaration has got another type. -/
structure KeepsTypes (g g' : Graph) : Prop where
  size : g.entries.size ≤ g'.entries.size
  types : ∀ id < g.entries.size, ∀ name ∈ typeFields,
    g'.field? (.link id) name = g.field? (.link id) name

theorem KeepsTypes.refl (g : Graph) : g.KeepsTypes g := ⟨Nat.le_refl _, fun _ _ _ _ => rfl⟩

theorem KeepsTypes.trans {g'' : Graph} (h : g.KeepsTypes g') (h' : g'.KeepsTypes g'') :
    g.KeepsTypes g'' where
  size := Nat.le_trans h.size h'.size
  types := fun id hid name hName =>
    (h'.types id (Nat.lt_of_lt_of_le hid h.size) name hName).trans (h.types id hid name hName)

theorem Grounded.keeps (h : g.Grounded v) (hg : g.KeepsTypes g') : g'.Grounded v := by
  induction h with
  | @intro v hIn _ ih =>
    refine .intro (fun id hv => Nat.lt_of_lt_of_le (hIn id hv) hg.size) fun name hName w hw => ?_
    refine ih name hName w ?_
    cases v with
    | link id => rwa [hg.types id (hIn id rfl) name hName] at hw
    | _ => cases hw

theorem keepsTypes_setField (id : Nat) (hName : name ∉ typeFields) (w : Value) :
    g.KeepsTypes (g.setField id name w) where
  size := by simp
  types := by
    intro id' _ name' hName'
    have hne : name' ≠ name := fun h => hName (h ▸ hName')
    simp only [field?, get?_setField]
    split
    · cases g.get? id' <;> simp [hne]
    · rfl

theorem keepsTypes_add (e : Entry) : g.KeepsTypes (g.add e).2 where
  size := by simp
  types := fun id hid name _ => by simp only [field?, get?_add_of_lt g e hid]

/-- One declaration is the type of another, by their numbers. -/
def LeadsTo (g : Graph) (id id' : Nat) : Prop :=
  ∃ name ∈ typeFields, g.field? (.link id) name = some (.link id')

theorem Grounded.acc (h : g.Grounded v) :
    ∀ id, v = .link id → Acc (fun b a => g.LeadsTo a b) id := by
  induction h with
  | intro _ _ ih =>
    rintro id rfl
    refine .intro _ fun id' hid' => ?_
    obtain ⟨name, hName, hw⟩ := hid'
    exact ih name hName _ hw id' rfl

/-- **Declarations have levels along their types**, of which there are no more than declarations. -/
theorem exists_chainLevel (g : Graph) : ∃ level : Nat → Nat, (∀ id, level id ≤ g.entries.size) ∧
    (∀ id < g.entries.size, 0 < level id) ∧
      ∀ id id', g.Grounded (.link id) → g.LeadsTo id id' → level id' < level id := by
  obtain ⟨level, hLe, hPos, hLt⟩ := exists_level (n := g.entries.size)
    (R := fun a b => g.LeadsTo a b ∧ Acc (fun b a => g.LeadsTo a b) a)
    (fun _ _ ⟨⟨_, _, h⟩, _⟩ => g.lt_size_of_field? h) not_transGen_of_acc
  exact ⟨level, hLe, hPos, fun id id' h hNext => hLt _ _ ⟨hNext, h.acc id rfl⟩⟩

end Graph

/-! ### Made declarations -/

theorem get?_foldl_set {l : List (String × Value)}
    (h : (l.foldl (fun e (n, v) => e.set n v) e).get? name = some w) :
    w ∈ l.map (·.2) ∨ e.get? name = some w := by
  induction l generalizing e with
  | nil => exact .inr h
  | cons p l ih =>
    rcases ih h with hl | hl
    · exact .inl (List.mem_cons_of_mem _ hl)
    · rw [Entry.get?_set] at hl
      split at hl
      · exact .inl (Option.some.inj hl ▸ List.mem_cons_self)
      · exact .inr hl

/-- What stands in a declaration that has just been made was given, or is empty. -/
theorem Entry.mem_of_make? (h : Entry.make? origin form args = some e)
    (hw : e.get? name = some w) : w ∈ args ∨ w ∈ [.nothing, .text "", .list []] := by
  have hEither : ∀ {b : Bool} {p q : String × Value}, p.2 ∈ args ∨
      p.2 ∈ [.nothing, .text "", .list []] → q.2 ∈ args ∨ q.2 ∈ [.nothing, .text "", .list []] →
      (if b = true then p else q).2 ∈ args ∨
        (if b = true then p else q).2 ∈ [.nothing, .text "", .list []] := by
    intro b p q hp hq
    cases b
    · exact hq
    · exact hp
  have hBlank : ∀ {w}, (blank form).get? name = some w →
      w ∈ args ∨ w ∈ [.nothing, .text "", .list []] := by
    intro w hw
    rw [Entry.get?, blank, List.lookup_cons] at hw
    split at hw
    · exact .inr (by simp [← Option.some.inj hw])
    · rw [List.lookup_cons] at hw
      split at hw
      · exact .inr (by simp [← Option.some.inj hw])
      · cases hw
  rw [make?, fill?] at h
  dsimp only at h
  split at h
  · exact hBlank (Option.some.inj h ▸ hw)
  · split at h
    · cases h
    · obtain rfl := Option.some.inj h
      rcases get?_foldl_set hw with hw | hw
      · obtain ⟨p, hp, rfl⟩ := List.mem_map.1 hw
        rcases List.mem_append.1 hp with hp | hp
        · obtain ⟨q, hq, rfl⟩ := List.mem_map.1 hp
          have hGiven := (List.of_mem_zip (List.mem_filter.1 hq).1).2
          refine hEither (.inr (by simp)) ?_
          rcases List.mem_append.1 hGiven with hq | hq
          · exact .inl hq
          · exact .inr (by simp [List.eq_of_mem_replicate hq])
        · obtain ⟨name, -, rfl⟩ := List.mem_map.1 hp
          simp
      · exact hBlank hw

/-! ### Sessions -/

/-- Whether something is found under a number. -/
def Session.knows (s : Session) (n : Int) : Bool :=
  match s.table.get? (.ofInt n) with
  | some .nothing | none => false
  | some _ => true

/-- All that is being filled or can be found has types that end. -/
def Session.IsGrounded (s : Session) : Prop :=
  ∀ v, v ∈ s.context ∨ v ∈ s.table.values → s.graph.Grounded v

abbrev GroundedIn (v : Value) (s : Session) : Prop := s.graph.Grounded v

/-- One session comes after another in which work was started. -/
structure Onward (s s' : Session) : Prop where
  types : s.graph.KeepsTypes s'.graph
  knows : ∀ n, s.knows n = true → s'.knows n = true
  isGrounded : s.IsGrounded → s'.IsGrounded

namespace Onward

variable {s s' s'' : Session}

theorem refl (s : Session) : Onward s s := ⟨.refl _, fun _ h => h, fun h => h⟩

theorem trans (h : Onward s s') (h' : Onward s' s'') : Onward s s'' where
  types := h.types.trans h'.types
  knows := fun n hn => h'.knows n (h.knows n hn)
  isGrounded := fun hs => h'.isGrounded (h.isGrounded hs)

/-- A session with what is being filled and what can be found as they were. -/
theorem ofGraph (hg : s.graph.KeepsTypes s'.graph) (hContext : s'.context = s.context)
    (hTable : s'.table = s.table) : Onward s s' where
  types := hg
  knows := fun n h => by rwa [Session.knows, hTable]
  isGrounded := by
    intro hs v hv
    rw [hContext, hTable] at hv
    exact (hs v hv).keeps hg

end Onward

variable {v : Value}

theorem Session.knows_register (s : Session) (hv : v ≠ .nothing) (n : Int) :
    ({ s with table := s.table.insert (.ofInt n) v } : Session).knows n = true := by
  simp only [Session.knows, Table.get?_insert_self]

theorem onward_register {s : Session} (hv : v ≠ .nothing) (hg : s.graph.Grounded v) (n : Int) :
    Onward s { s with table := s.table.insert (.ofInt n) v } where
  types := .refl _
  knows := by
    intro m hm
    by_cases hmn : n = m
    · exact hmn ▸ s.knows_register hv n
    · simpa only [Session.knows, Table.get?_insert_of_ne _ _ hmn] using hm
  isGrounded := by
    intro hs w hw
    rcases hw with hw | hw
    · exact hs w (.inl hw)
    · rcases Table.mem_values_insert _ _ hw with rfl | hw
      · exact hg
      · exact hs w (.inr hw)

/-- A session in which at most `k` of some numbers have nothing under them. -/
structure Session.Lacks (keys : List Int) (k : Nat) (s : Session) : Prop where
  isGrounded : s.IsGrounded
  unknown : keys.countP (fun n => !s.knows n) ≤ k

variable {keys : List Int} {k k' : Nat} {s s' : Session}

theorem Session.Lacks.onward (h : s.Lacks keys k) (hs : Onward s s') : s'.Lacks keys k where
  isGrounded := hs.isGrounded h.isGrounded
  unknown := by
    refine Nat.le_trans (List.countP_mono_left fun n _ hn => ?_) h.unknown
    have := hs.knows n
    cases hKnown : s.knows n <;> simp_all

theorem Session.Lacks.exists_pred (h : s.Lacks keys k) (hs : Onward s s') {n : Int} (hn : n ∈ keys)
    (hUnknown : s.knows n = false) (hKnown : s'.knows n = true) :
    ∃ j, k = j + 1 ∧ s'.Lacks keys j := by
  have hLt : keys.countP (fun n => !s'.knows n) < keys.countP (fun n => !s.knows n) := by
    refine countP_lt_countP (fun m _ hm => ?_) hn (by simp [hKnown]) (by simp [hUnknown])
    have := hs.knows m
    cases hm' : s.knows m <;> simp_all
  have := h.unknown
  exact ⟨k - 1, by omega, hs.isGrounded h.isGrounded, by omega⟩

/-! ### Outcomes -/

variable {α β : Type} {R : α → Session → Prop} {Q : β → Session → Prop}

/-- One outcome of two pieces of work that were started in the same session. -/
inductive EndsAlike (s : Session) (R : α → Session → Prop) :
    Except Fault α × Session → Except Fault α × Session → Prop
  | ok {a : α} {s' : Session} (hs : Onward s s') (hR : R a s') :
    EndsAlike s R (.ok a, s') (.ok a, s')
  | error {e : Fault} {s' : Session} (hs : Onward s s') (he : e ≠ .endless) :
    EndsAlike s R (.error e, s') (.error e, s')

namespace EndsAlike

variable {p q : Except Fault α × Session}

theorem eq (h : EndsAlike s R p q) : q = p := by
  cases h <;> rfl

theorem ne_endless (h : EndsAlike s R p q) : p.1 ≠ .error .endless := by
  cases h with
  | ok _ _ => simp
  | error _ he => simpa using he

theorem onward (h : EndsAlike s R p q) : Onward s p.2 := by
  cases h with
  | ok hs _ | error hs _ => exact hs

end EndsAlike

/-- Two pieces of work come to the same end, with results that `R` holds of. -/
def Advances (keys : List Int) (k : Nat) (R : α → Session → Prop) (x y : Work α) (s : Session) :
    Prop :=
  s.Lacks keys k → EndsAlike s R (outcome x s) (outcome y s)

namespace Advances

variable {x y : Work α} {f g : α → Work β}

theorem pure {a : α} (h : R a s) : Advances keys k R (Pure.pure a) (Pure.pure a) s :=
  fun _ => .ok (.refl s) h

theorem throw {e : Fault} (h : e ≠ .endless) :
    Advances keys k R (MonadExcept.throw e) (MonadExcept.throw e) s :=
  fun _ => .error (.refl s) h

theorem bind (hx : Advances keys k R x y s)
    (hf : ∀ a s', Onward s s' → R a s' → Advances keys k Q (f a) (g a) s') :
    Advances keys k Q (x >>= f) (y >>= g) s := by
  intro hs
  rw [outcome_bind, outcome_bind]
  have h := hx hs
  generalize outcome x s = p, outcome y s = q at h
  cases h with
  | error hOn he => exact .error hOn he
  | @ok a s' hOn hR =>
    have hRest := hf a s' hOn hR (hs.onward hOn)
    dsimp only
    generalize outcome (f a) s' = p, outcome (g a) s' = q at hRest
    cases hRest with
    | ok hOn' hQ => exact .ok (hOn.trans hOn') hQ
    | error hOn' he => exact .error (hOn.trans hOn') he

theorem modify {f : Session → Session} {R : Unit → Session → Prop} (h : Onward s (f s))
    (hR : R () (f s)) : Advances keys k R (modify f) (modify f) s :=
  fun _ => .ok h hR

theorem mono {R' : α → Session → Prop} (h : Advances keys k R x y s)
    (hR : ∀ a s', R a s' → R' a s') : Advances keys k R' x y s := by
  intro hs
  have h := h hs
  generalize outcome x s = p, outcome y s = q at h
  cases h with
  | ok hOn h => exact .ok hOn (hR _ _ h)
  | error hOn he => exact .error hOn he

theorem assuming (h : s.Lacks keys k → Advances keys k R x y s) : Advances keys k R x y s :=
  fun hs => h hs hs

/-- Work that was started when less was to be expected. -/
theorem ofLacks {keys' : List Int} (hs : s.Lacks keys' k') (h : Advances keys' k' R x y s) :
    Advances keys k R x y s :=
  fun _ => h hs

end Advances

/-- Work that leaves the session as it is, with results that `P` holds of. -/
def Looks (P : α → Prop) (x : Work α) (s : Session) : Prop :=
  (∃ a, outcome x s = (.ok a, s) ∧ P a) ∨ ∃ e, outcome x s = (.error e, s) ∧ e ≠ .endless

namespace Looks

variable {P : α → Prop} {P' : β → Prop}

theorem pure {a : α} (h : P a) : Looks P (Pure.pure a) s := .inl ⟨a, rfl, h⟩

theorem throw {e : Fault} (h : e ≠ .endless) : Looks P (MonadExcept.throw e) s := .inr ⟨e, rfl, h⟩

theorem get {f : Session → Work α} (h : Looks P (f s) s) : Looks P (get >>= f) s := h

theorem bind {x : Work α} {f : α → Work β} (hx : Looks P x s) (hf : ∀ a, P a → Looks P' (f a) s) :
    Looks P' (x >>= f) s := by
  rw [Looks, outcome_bind]
  rcases hx with ⟨a, h, hP⟩ | ⟨e, h, he⟩
  · rw [h]
    exact hf a hP
  · rw [h]
    exact .inr ⟨e, rfl, he⟩

end Looks

theorem Advances.look {P : α → Prop} {x : Work α} {f g : α → Work β} (hx : Looks P x s)
    (hf : ∀ a, P a → Advances keys k Q (f a) (g a) s) :
    Advances keys k Q (x >>= f) (x >>= g) s := by
  intro hs
  rw [outcome_bind, outcome_bind]
  rcases hx with ⟨a, h, hP⟩ | ⟨e, h, he⟩
  · rw [h]
    exact hf a hP hs
  · rw [h]
    exact .error (.refl s) he

theorem Advances.get {f g : Session → Work β} (h : Advances keys k Q (f s) (g s) s) :
    Advances keys k Q (get >>= f) (get >>= g) s :=
  fun hs => h hs

/-- Work that comes to an end, whatever it gives. -/
abbrev Finishes (keys : List Int) (k : Nat) (x : Work α) (s : Session) : Prop :=
  Advances keys k (fun _ _ => True) x x s

/-! ### Primitives -/

theorem looks_check {r : Except Fault α} (h : r ≠ .error .endless) :
    Looks (fun a => r = .ok a) (check r) s := by
  cases r with
  | ok a => exact .inl ⟨a, rfl, rfl⟩
  | error e => exact .inr ⟨e, rfl, fun he => h (he ▸ rfl)⟩

theorem looks_shown (v : Value) : Looks (fun _ => True) (shown v) s := .inl ⟨_, rfl, trivial⟩

theorem looks_literal (v : Value) : Looks (fun _ => True) (literal v) s := .inl ⟨_, rfl, trivial⟩

theorem looks_steps : Looks (· = s.graph.entries.size + 1) steps s := .inl ⟨_, rfl, rfl⟩

theorem looks_field (v : Value) (name : String) :
    Looks (fun w => s.graph.field? v name = some w) (field v name) s := by
  refine .bind (P := (s.graph.field? v name = ·)) (.get (.pure rfl)) fun r hr => ?_
  split
  · exact .pure hr
  · exact .throw (by decide)

theorem looks_top (hs : s.IsGrounded) : Looks s.graph.Grounded top s := by
  refine .get ?_
  split
  · rename_i v rest hContext
    exact .pure (hs v (.inl (hContext ▸ List.mem_cons_self)))
  · exact .throw (by decide)

theorem looks_find (v : Value) : Looks (fun _ => True) (find v) s := by
  refine .get (.bind (P := fun _ => True) ?_ fun key _ => ?_)
  · unfold keyOf
    split
    · exact .pure trivial
    · exact .throw (by decide)
  · split
    · exact .pure trivial
    · exact .throw (by simp)

theorem advances_say (line : String) :
    Advances keys k (fun _ s' => s'.table = s.table) (say line) (say line) s :=
  .modify (.ofGraph (.refl _) rfl rfl) rfl

theorem advances_setField (v : Value) (hName : name ∉ typeFields) (w : Value) :
    Finishes keys k (setField v name w) s := by
  cases v with
  | link id => exact .modify (.ofGraph (Graph.keepsTypes_setField id hName w) rfl rfl) trivial
  | _ => exact .throw (by decide)

theorem advances_append (v : Value) (hName : name ∉ typeFields) (item : Value) :
    Finishes keys k (append v name item) s := by
  refine .look (looks_field v name) fun w _ => ?_
  split
  · exact advances_setField v hName _
  · exact .throw (by decide)

theorem slot?_name_not_mem {operation : String} {slot : Slot}
    (h : slot? origin form operation = some slot) : slot.name ∉ typeFields := by
  have hArgument : ∀ {slot}, slot?.argument origin form = some slot → slot.name = "arguments" := by
    intro slot h
    cases form <;> cases h <;> rfl
  have hValue : ∀ {slot}, slot?.value form = some slot → slot.name = "values" := by
    intro slot h
    cases form <;> cases h
    rfl
  have hMember : ∀ {slot}, slot?.member form = some slot → slot.name = "members" := by
    intro slot h
    cases form <;> cases h <;> rfl
  have hName : slot.name = "arguments" ∨ slot.name = "values" ∨ slot.name = "members" := by
    unfold slot? at h
    split at h
    · exact .inl (hArgument h)
    · exact .inr (.inl (hValue h))
    · split at h
      · exact .inr (.inr (hMember h))
      · cases h
    · split at h
      · rcases Option.or_eq_some_iff.1 h with h | ⟨-, h⟩
        · exact .inl (hArgument h)
        · rcases Option.or_eq_some_iff.1 h with h | ⟨-, h⟩
          · exact .inr (.inl (hValue h))
          · exact .inr (.inr (hMember h))
      · cases h
    · cases h
  rcases hName with h | h | h <;> rw [h] <;> decide

theorem advances_add (operation : String) (v item : Value) :
    Finishes keys k (add operation v item) s := by
  refine .get ?_
  split
  · rename_i slot hSlot
    obtain ⟨form, -, hSlot⟩ := Option.bind_eq_some_iff.1 hSlot
    unfold addTo
    split
    · exact .pure trivial
    · exact advances_append v (slot?_name_not_mem hSlot) _
  · exact .throw (by decide)

/-- A new declaration has types that end if what it is made of has. -/
theorem advances_make (form : Form) (hArgs : ∀ w ∈ args, s.graph.Grounded w) :
    Advances keys k (fun v s' => v ≠ .nothing ∧ s'.graph.Grounded v) (make form args)
      (make form args) s := by
  refine .look (P := (· = s.graph.origin)) (.get (.pure rfl)) fun origin ho => ?_
  subst ho
  split
  · exact .throw (by decide)
  · rename_i e he
    have hg := s.graph.keepsTypes_add e
    refine .get (.bind (R := fun _ s' => s'.graph = (s.graph.add e).2)
      (.modify (.ofGraph hg rfl rfl) rfl) fun _ s₁ _ h₁ => .pure ⟨by simp, ?_⟩)
    rw [h₁]
    refine .intro (fun id hid => ?_) fun name _ w hw => ?_
    · cases hid
      simp
    · rw [Graph.field?_of_get? _ (Graph.get?_add_self s.graph e)] at hw
      rcases Entry.mem_of_make? he hw with h | h
      · exact (hArgs w h).keeps hg
      · refine Graph.grounded_of_forall_ne fun id hid => ?_
        simp [hid] at h

theorem advances_push (h : s.graph.Grounded v) : Finishes keys k (push v) s := by
  refine .modify ⟨.refl _, fun _ hn => hn, fun hs w hw => ?_⟩ trivial
  rcases hw with hw | hw
  · rcases List.mem_cons.1 hw with rfl | hw
    · exact h
    · exact hs w (.inl hw)
  · exact hs w (.inr hw)

theorem advances_pop : Finishes keys k pop s := by
  refine .get ?_
  split
  · rename_i v rest hContext
    refine .bind (R := fun _ _ => True) (.modify ⟨.refl _, fun _ hn => hn, fun hs w hw => ?_⟩
      trivial) fun _ _ _ _ => .pure trivial
    refine hs w (hw.imp_left fun hw => ?_)
    rw [hContext]
    exact List.mem_cons_of_mem _ hw
  · exact .throw (by decide)

/-! ### Naming the innermost type -/

theorem advances_renameType_of_level {level : Nat → Nat}
    (hPos : ∀ id < s.graph.entries.size, 0 < level id)
    (hLevel : ∀ id id', s.graph.Grounded (.link id) → s.graph.LeadsTo id id' → level id' < level id)
    (name : Value) (fuel : Nat) (hv : s.graph.Grounded v)
    (hFuel : ∀ id, v = .link id → level id ≤ fuel) :
    Finishes keys k (renameType (fuel + 1) v name) s := by
  induction fuel generalizing v with
  | zero =>
    refine .get ?_
    have hNone : s.graph.form? v = none := by
      cases v with
      | link id => exact absurd (hPos id hv.lt_size) (by have := hFuel id rfl; omega)
      | _ => rfl
    rw [hNone]
    exact .pure trivial
  | succ fuel ih =>
    have hNext : ∀ field' ∈ typeFields,
        Finishes keys k (do renameType (fuel + 1) (← field v field') name) s := by
      intro field' hField
      refine .look (looks_field v field') fun w hw => ih (hv.next hField hw) ?_
      rintro id' rfl
      cases v with
      | link id =>
        have := hLevel id id' hv ⟨field', hField, hw⟩
        have := hFuel id rfl
        omega
      | _ => cases hw
    refine .get ?_
    split
    · exact advances_setField v (by decide) name
    all_goals first | exact hNext "typ" (by decide) | exact hNext "returns" (by decide) |
      exact .pure trivial

theorem advances_renameType (hv : s.graph.Grounded v) (name : Value) :
    Finishes keys k (renameType (s.graph.entries.size + 1) v name) s := by
  obtain ⟨level, hLe, hPos, hLevel⟩ := s.graph.exists_chainLevel
  exact advances_renameType_of_level hPos hLevel name _ hv fun id _ => hLe id

end PxdGen.Decl
