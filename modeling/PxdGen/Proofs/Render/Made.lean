import PxdGen.Proofs.Build
import PxdGen.Pxd.Page
/-! # Nodes that have been made

A tree is made from the inside out: each node is built from values that its kind checks, or is one
of the nodes that stand for themselves. What is to be a list is given as a list. `Made` says that a
node and everything in it has come about in this way.
-/

namespace PxdGen.Pxd

variable {args ws : List Value} {v x w : Value} {want : Want} {words : String}

/-! ### What building says about the fields -/

def Kind.names (kind : Kind) : List String :=
  kind.signature.required ++ kind.signature.defaults.map (·.1)

theorem map_fst_zip_eq_take {α β : Type} (as : List α) (bs : List β) :
    (as.zip bs).map (·.1) = as.take bs.length := by
  induction as generalizing bs with
  | nil => simp
  | cons a as ih =>
    cases bs with
    | nil => rfl
    | cons b bs => simp [ih]

theorem names_of_bind? {sig : Signature} {fields : List (String × Value)}
    (h : sig.bind? args = some fields) :
    fields.map (·.1) = sig.required ++ sig.defaults.map (·.1) := by
  simp only [Signature.bind?] at h
  split at h
  · cases h
  · rename_i hLength
    simp only [Bool.or_eq_true, decide_eq_true_eq, not_or, Nat.not_lt] at hLength
    obtain ⟨hRequired, hAll⟩ := hLength
    obtain rfl := Option.some.inj h
    rw [List.map_append, map_fst_zip_eq_take, List.take_append, List.take_of_length_le hRequired,
      List.map_drop, List.append_assoc, List.take_append_drop]

theorem run_of_forM {fields : List (String × Value)} {checks : List Check}
    (h : checks.forM (·.run fields) = .ok ()) : ∀ c ∈ checks, c.run fields = .ok () := by
  induction checks with
  | nil => simp
  | cons c rest ih =>
    have h : (c.run fields >>= fun _ => rest.forM (·.run fields)) = .ok () := h
    cases hc : c.run fields with
    | error f =>
      rw [hc] at h
      cases h
    | ok u =>
      rw [hc] at h
      intro d hd
      rcases List.mem_cons.1 hd with rfl | hd
      · exact hc
      · exact ih h d hd

/-- Fields that have been checked. -/
structure Checked (kind : Kind) (fields : List (String × Value)) : Prop where
  names : fields.map (·.1) = kind.names
  run : ∀ c ∈ kind.signature.checks, c.run fields = .ok ()

theorem checked_of_build {kind : Kind} {fields : List (String × Value)}
    (h : build kind args = .ok (.node kind fields)) : Checked kind fields := by
  unfold build at h
  split at h
  iterate 2
    · obtain rfl : [] = fields := by simpa using h
      exact ⟨rfl, by simp [Kind.signature]⟩
  · split at h
    · cases h
    · split at h
      · cases h
      · rename_i given hFields
        cases hRun : kind.signature.checks.forM (·.run given) with
        | error f =>
          rw [hRun] at h
          cases h
        | ok u =>
          rw [hRun] at h
          have h : (Except.ok (.node kind given) : Except Fault Value) = .ok (.node kind fields) :=
            h
          obtain rfl : given = fields := by simpa using h
          exact ⟨names_of_bind? hFields, run_of_forM hRun⟩

/-- Nothing is asked of a node that stands for itself. -/
theorem signature_single {kind : Kind} (h : kind.isSingle = true) :
    kind.signature = ⟨[], [], []⟩ := by
  cases kind <;> first | rfl | cases h

theorem checked_single {kind : Kind} (h : kind.isSingle = true) : Checked kind [] := by
  constructor <;> simp [Kind.names, signature_single h]

/-! ### Made nodes -/

/-- The field that a check asks to be a list. -/
def Check.listed? : Check → Option String
  | .field name (.every _ _) | .under name _ (.every _ _) => some name
  | _ => none

def Kind.lists (kind : Kind) : List String := kind.signature.checks.filterMap Check.listed?

/-- The value is `w`, or a list with `w` in it. -/
inductive Carries : Value → Value → Prop where
  | self (w : Value) : Carries w w
  | item {ws : List Value} {w : Value} : w ∈ ws → Carries (.list ws) w

/-- A node that has been made. -/
inductive Made : Value → Prop where
  | single {kind : Kind} : kind.isSingle = true → Made (single kind)
  | built {kind : Kind} {args : List Value} {fields : List (String × Value)} :
    build kind args = .ok (.node kind fields) →
    (∀ name ∈ kind.lists, ∃ ws, fieldOf fields name = .list ws) →
    (∀ x ∈ fields.map (·.2), ∀ w, Carries x w → w.kind?.isSome = true → Made w) →
    Made (.node kind fields)

/-- To show something of all made nodes, it is enough to show it of a node whose fields have been
checked, from what is known of the nodes in its fields. -/
theorem Made.checked_induction {motive : Value → Prop} (node : ∀ kind fields, Checked kind fields →
      (∀ name ∈ kind.lists, ∃ ws, fieldOf fields name = .list ws) →
      (∀ x ∈ fields.map (·.2), ∀ w, Carries x w → w.kind?.isSome = true → Made w ∧ motive w) →
      motive (.node kind fields)) (h : Made v) : motive v := by
  induction h with
  | @single kind h =>
    exact node kind [] (checked_single h) (by simp [Kind.lists, signature_single h]) (by simp)
  | built h hLists hParts ih =>
    exact node _ _ (checked_of_build h) hLists fun x hx w hw hk =>
      ⟨hParts x hx w hw hk, ih x hx w hw hk⟩

/-! ### Reading fields -/

variable {kind : Kind} {fields : List (String × Value)} {name : String}

theorem lookup_of_mem_names (hc : Checked kind fields) (h : name ∈ kind.names) :
    ∃ x, fields.lookup name = some x ∧ fieldOf fields name = x ∧ x ∈ fields.map (·.2) := by
  rw [← hc.names] at h
  have hLookup : ∃ x, fields.lookup name = some x ∧ x ∈ fields.map (·.2) := by
    clear hc
    induction fields with
    | nil => cases h
    | cons f rest ih =>
      obtain ⟨n, x⟩ := f
      by_cases e : name = n
      · exact ⟨x, by simp [e], by simp⟩
      · obtain ⟨y, hy, hmem⟩ := ih (by simpa [e] using h)
        refine ⟨y, ?_, List.mem_cons_of_mem _ hmem⟩
        rw [List.lookup_cons, show (name == n) = false from by simpa using e]
        exact hy
  obtain ⟨x, hx, hmem⟩ := hLookup
  exact ⟨x, hx, by simp [fieldOf, hx], hmem⟩

theorem lookupPart?_eq (name : String) (fields : List (String × Value)) :
    (Value.lookupPart? name fields).map (·.1) = fields.lookup name := by
  induction fields with
  | nil => rfl
  | cons f rest ih =>
    obtain ⟨n, x⟩ := f
    rw [Value.lookupPart?, List.lookup_cons, show (n == name) = (name == n) from BEq.comm]
    cases name == n with
    | true => rfl
    | false =>
      rw [← ih]
      cases Value.lookupPart? name rest <;> rfl

theorem field?_of_lookup (kind : Kind) (h : fields.lookup name = some x) :
    ∃ p : Value.Part (.node kind fields), (Value.node kind fields).field? name = some p ∧
    p.1 = x := by
  have hPart := lookupPart?_eq name fields
  rw [h] at hPart
  obtain ⟨p, hp, hpx⟩ := Option.map_eq_some_iff.1 hPart
  exact ⟨_, by rw [Value.field?, hp]; rfl, hpx⟩

theorem fieldOf_of_field? {p : Value.Part (.node kind fields)}
    (h : (Value.node kind fields).field? name = some p) : fieldOf fields name = p.1 := by
  rw [Value.field?] at h
  obtain ⟨q, hq, rfl⟩ := Option.map_eq_some_iff.1 h
  rw [fieldOf, ← lookupPart?_eq, hq]
  rfl

theorem Checked.admits (hc : Checked kind fields) {want : Want} {words : String}
    (h : .field name (.one want words) ∈ kind.signature.checks) :
    want.admits (fieldOf fields name) = true := by
  have hRun := hc.run _ h
  simp only [Check.run, Demand.meet] at hRun
  split at hRun
  · assumption
  · cases hRun

theorem Checked.admits_given (hc : Checked kind fields)
    (h : .given name (.one want words) ∈ kind.signature.checks)
    (hTrue : (fieldOf fields name).isTrue = true) : want.admits (fieldOf fields name) = true := by
  have hRun := hc.run _ h
  simp only [Check.run, Demand.meet, hTrue, if_true] at hRun
  split at hRun
  · assumption
  · cases hRun

theorem Checked.admits_every (hc : Checked kind fields)
    (h : .field name (.every want words) ∈ kind.signature.checks)
    (hList : fieldOf fields name = .list ws) : ∀ w ∈ ws, want.admits w = true := by
  have hRun := hc.run _ h
  simp only [Check.run, Demand.meet, hList, Value.items?] at hRun
  split at hRun
  · rename_i hAll
    exact List.all_eq_true.1 hAll
  · cases hRun

theorem exists_text_of_admits (h : Want.text.admits x = true) : ∃ t, x = .text t := by
  cases x <;> first | exact ⟨_, rfl⟩ | cases h

theorem exists_int_of_admits (h : Want.int.admits x = true) : ∃ n, x.asInt? = some n :=
  Option.isSome_iff_exists.1 h

/-! ### Sizes -/

/-- Whether an import has no more dots than a text can hold. -/
def hasFewDots (kind : Kind) (fields : List (String × Value)) : Bool :=
  match kind, (fieldOf fields "level").asInt? with
  | .importFrom, some n | .cImportFrom, some n => (repeatFault? 1 n).isNone
  | _, _ => true

mutual

/-- Whether every number in a value can be written out, and every import in it has few dots. -/
def isModest : Value → Bool
  | .int n => Text.isWritable n
  | .list ws => areModest ws
  | .node kind fields => hasFewDots kind fields && haveModest fields
  | _ => true

def areModest : List Value → Bool
  | [] => true
  | w :: ws => isModest w && areModest ws

def haveModest : List (String × Value) → Bool
  | [] => true
  | (_, x) :: rest => isModest x && haveModest rest

end

theorem isModest_of_mem (h : areModest ws = true) (hw : w ∈ ws) : isModest w = true := by
  induction ws with
  | nil => cases hw
  | cons u ws ih =>
    simp only [areModest, Bool.and_eq_true] at h
    rcases List.mem_cons.1 hw with rfl | hw
    · exact h.1
    · exact ih h.2 hw

theorem isModest_of_mem_fields {fields : List (String × Value)} (h : haveModest fields = true)
    (hx : x ∈ fields.map (·.2)) : isModest x = true := by
  induction fields with
  | nil => cases hx
  | cons f rest ih =>
    simp only [haveModest, Bool.and_eq_true] at h
    rcases List.mem_cons.1 hx with rfl | hx
    · exact h.1
    · exact ih h.2 hx

theorem isModest_of_carries (hm : isModest (.node kind fields) = true)
    (hx : x ∈ fields.map (·.2)) (hw : Carries x w) : isModest w = true := by
  simp only [isModest, Bool.and_eq_true] at hm
  have hx := isModest_of_mem_fields hm.2 hx
  cases hw with
  | self => exact hx
  | item h => exact isModest_of_mem (by simpa only [isModest] using hx) h

theorem isWritable_of_isModest (hm : isModest v = true) : v.isWritable = true := by
  cases v <;> first | rfl | exact hm

end PxdGen.Pxd
