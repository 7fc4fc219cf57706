import PxdGen.Proofs.Dump.Sound
import PxdGen.Proofs.InStep
/-! # Resolving the keys of a dump

When a dump has been read, its declarations name one another by keys. `result` replaces each key by
what has been registered under it. A place is a field of a declaration; `Becomes` says what a place
comes to hold, and a session is midway when this has happened at some places and nowhere else. Each
step of resolving brings new places to that state, or stops because a key at one of them is not
known.
-/

namespace PxdGen.Dump

open Decl Decl.Work

variable {v w : Value} {l n : String} {ks : List String} {form : Form} {place : KeyPlace} {j : Nat}
  {places : List KeyPlace}

/-! ### Places -/

/-- What has been registered under a key. -/
def named? (s : Session) (key : String) : Option Value := s.table.get? (.named (.text key))

/-- What a field holds when its keys are resolved. -/
inductive Becomes (s : Session) : String → Value → Value → Prop
  | key {name k : String} {w : Value} (hname : name ∈ singleFields)
    (h : named? s k = some w) : Becomes s name (.text k) w
  | keys {name : String} {ks : List String} {ws : List Value} (hname : name ∈ listFields)
    (h : List.Forall₂ (fun k w => named? s k = some w) ks ws) :
    Becomes s name (textList ks) (.list ws)
  | location {l file line : String} {n : Int} {v name : Value}
    (hl : Text.pieces ':' l = [file, line]) (hn : Text.integer? line = some n)
    (hv : named? s file = some v)
    (hname : s.graph.field? v "name" = some name) :
    Becomes s "location" (.text l) (.tuple [name, .int n])

/-- A key stands at a place: alone, in a list, or as the file of a location. -/
def KeyAt (s : Session) (i : Nat) (name k : String) : Prop :=
  (name ∈ keyFields ∧ s.graph.field? (.link i) name = some (.text k)) ∨
  (name ∈ keyFields ∧ ∃ items, s.graph.field? (.link i) name = some (.list items) ∧
    .text k ∈ items) ∨
  (name = "location" ∧ ∃ l line, s.graph.field? (.link i) name = some (.text l) ∧
    Text.pieces ':' l = [k, line])

/-- Fields of declarations. -/
abbrev Places := Nat → String → Prop

/-- A session in which the keys at the places `P` are resolved, and nothing else is changed. -/
structure Midway (s : Session) (P : Places) (t : Session) : Prop where
  rest : t = { s with graph := t.graph }
  origin : t.graph.origin = s.graph.origin
  size : t.graph.entries.size = s.graph.entries.size
  form : ∀ v, t.graph.form? v = s.graph.form? v
  kept : ∀ i name, ¬ P i name → t.graph.field? (.link i) name = s.graph.field? (.link i) name
  become : ∀ i name, P i name → ∃ v w, s.graph.field? (.link i) name = some v ∧
    t.graph.field? (.link i) name = some w ∧ Becomes s name v w

theorem Midway.start (s : Session) : Midway s (fun _ _ => False) s :=
  ⟨rfl, rfl, rfl, fun _ => rfl, fun _ _ _ => rfl, fun _ _ h => h.elim⟩

/-- Nothing but keys and locations is resolved. -/
theorem Becomes.mem {s : Session} {name : String} (h : Becomes s name v w) :
    name ∈ "location" :: keyFields := by
  cases h with
  | key hname _ => exact List.mem_cons_of_mem _ (mem_keyFields.2 (.inl hname))
  | keys hname _ => exact List.mem_cons_of_mem _ (mem_keyFields.2 (.inr hname))
  | location => exact List.mem_cons_self

theorem Becomes.location_text {s : Session} (h : Becomes s "location" v w) : ∃ l, v = .text l := by
  cases h with
  | key hname | keys hname => exact absurd hname (by decide)
  | location => exact ⟨_, rfl⟩

namespace Midway

variable {s t t' : Session} {P : Places}

theorem field?_other (h : Midway s P t) (i : Nat) {name : String}
    (hname : name ∉ "location" :: keyFields) :
    t.graph.field? (.link i) name = s.graph.field? (.link i) name := by
  refine h.kept i name fun hP => ?_
  obtain ⟨v, w, -, -, hbecomes⟩ := h.become i name hP
  exact hname hbecomes.mem

theorem named?_eq (h : Midway s P t) (k : String) : named? t k = named? s k := by
  rw [h.rest]
  rfl

end Midway

/-- Only one field of a declaration has changed. -/
structure SameBut (i : Nat) (name : String) (w : Value) (t t' : Session) : Prop where
  rest : t' = { t with graph := t'.graph }
  origin : t'.graph.origin = t.graph.origin
  size : t'.graph.entries.size = t.graph.entries.size
  form : ∀ v, t'.graph.form? v = t.graph.form? v
  field : t'.graph.field? (.link i) name = some w
  others : ∀ j n, ¬ (j = i ∧ n = name) → t'.graph.field? (.link j) n = t.graph.field? (.link j) n

theorem sameBut_setField {i : Nat} {t : Session} (hi : i < t.graph.entries.size) (name : String)
    (w : Value) : SameBut i name w t { t with graph := t.graph.setField i name w } where
  rest := rfl
  origin := rfl
  size := Graph.size_setField _ _ _ _
  form := fun v => Graph.form?_setField _ _ _ _ _
  field := by rw [Graph.field?_setField _ hi, if_pos ⟨rfl, rfl⟩]
  others := fun j n hne => by rw [Graph.field?_setField _ hi, if_neg hne]

theorem SameBut.refl {i : Nat} {name : String} {t : Session}
    (h : t.graph.field? (.link i) name = some w) : SameBut i name w t t :=
  ⟨rfl, rfl, rfl, fun _ => rfl, h, fun _ _ _ => rfl⟩

theorem SameBut.trans {i : Nat} {name : String} {w w' : Value} {t t' t'' : Session}
    (h : SameBut i name w t t') (h' : SameBut i name w' t' t'') : SameBut i name w' t t'' where
  rest := by rw [h'.rest, h.rest]
  origin := h'.origin.trans h.origin
  size := h'.size.trans h.size
  form := fun v => (h'.form v).trans (h.form v)
  field := h'.field
  others := fun j n hne => (h'.others j n hne).trans (h.others j n hne)

theorem Midway.sameBut {s t t' : Session} {P : Places} (h : Midway s P t) {i : Nat} {name : String}
    (hv : s.graph.field? (.link i) name = some v) (hbecomes : Becomes s name v w)
    (h' : SameBut i name w t t') : Midway s (fun j n => P j n ∨ (j = i ∧ n = name)) t' where
  rest := by rw [h'.rest, h.rest]
  origin := h'.origin.trans h.origin
  size := h'.size.trans h.size
  form := fun v => (h'.form v).trans (h.form v)
  kept := fun j n hne => by
    rw [not_or] at hne
    exact (h'.others j n hne.2).trans (h.kept j n hne.1)
  become := fun j n hP => by
    by_cases hji : j = i ∧ n = name
    · obtain ⟨rfl, rfl⟩ := hji
      exact ⟨v, w, hv, h'.field, hbecomes⟩
    · rw [h'.others j n hji]
      exact h.become j n (hP.resolve_right hji)

/-! ### Work that resolves -/

variable {α β : Type}

/-- A location as a dump gives it: the key of a file and a line, which is read as a number of at
most 4300 digits. -/
def isLocation (l : String) : Bool :=
  match Text.pieces ':' l with
  | [_, line] => (Text.integer? line).isSome
  | _ => false

theorem isLocation_iff : isLocation l = true ↔
    ∃ file line n, Text.pieces ':' l = [file, line] ∧ Text.integer? line = some n := by
  rw [isLocation]
  constructor
  · intro h
    split at h
    · obtain ⟨n, hn⟩ := Option.isSome_iff_exists.1 h
      exact ⟨_, _, n, ‹_›, hn⟩
    · cases h
  · rintro ⟨file, line, n, hl, hn⟩
    rw [hl]
    simp only [hn, Option.isSome_some]

/-- Why the keys at some places cannot be resolved: one of them is not known, or a location is not
one. -/
inductive Blocked (s : Session) (Q : Places) : Fault → Prop
  | missing {i : Nat} {name k : String} (hk : named? s k = none) (hQ : Q i name)
      (hat : KeyAt s i name k) : Blocked s Q (.missingKey (some k))
  | malformed {i : Nat} {l : String} (f : Fault) (hQ : Q i "location")
      (hl : s.graph.field? (.link i) "location" = some (.text l))
      (hmalformed : isLocation l = false) :
      Blocked s Q f

theorem Blocked.mono {s : Session} {Q Q' : Places} {f : Fault} (h : Blocked s Q f)
    (hQ : ∀ i name, Q i name → Q' i name) : Blocked s Q' f := by
  cases h with
  | missing hk hat hkey => exact .missing hk (hQ _ _ hat) hkey
  | malformed f hat hl hmalformed => exact .malformed f (hQ _ _ hat) hl hmalformed

/-- The work resolves the keys at the places `Q`, unless these cannot be resolved. -/
def Resolves (s : Session) (Q : Places) (R : α → Prop) (x : Work α) : Prop :=
  ∀ P t, Midway s P t → (∀ i name, Q i name → ¬ P i name) →
    (∃ a t', Gives x t a t' ∧ R a ∧ Midway s (fun i name => P i name ∨ Q i name) t' ∧
      ∀ i name k, Q i name → KeyAt s i name k → (named? s k).isSome = true) ∨
    ∃ f t', outcome x t = (.error f, t') ∧ Blocked s Q f

namespace Resolves

variable {s : Session} {Q Q' : Places} {R : α → Prop} {R' : β → Prop}

theorem congr {x : Work α} (h : Resolves s Q R x) (hQ : ∀ i name, Q i name ↔ Q' i name) :
    Resolves s Q' R x := by
  have : Q = Q' := by
    funext i name
    exact propext (hQ i name)
  exact this ▸ h

theorem pure {a : α} (h : R a) : Resolves s (fun _ _ => False) R (Pure.pure a) := by
  intro P t hP _
  refine .inl ⟨a, t, .pure a t, h, ?_, fun _ _ _ hQ => hQ.elim⟩
  simpa using hP

theorem bind {x : Work α} {f : α → Work β} (hx : Resolves s Q R x)
    (hf : ∀ a, R a → Resolves s Q' R' (f a)) (hdisjoint : ∀ i name, Q i name → ¬ Q' i name) :
    Resolves s (fun i name => Q i name ∨ Q' i name) R' (x >>= f) := by
  intro P t hP hfresh
  obtain ⟨a, t₁, hgives, hR, hmid, hknown⟩ | ⟨f', t₁, herror, hblocked⟩ :=
    hx P t hP fun i name hQ => hfresh i name (.inl hQ)
  · have hfresh' : ∀ i name, Q' i name → ¬ (P i name ∨ Q i name) := by
      rintro i name hQ' (hP | hQ)
      · exact hfresh i name (.inr hQ') hP
      · exact hdisjoint i name hQ hQ'
    obtain ⟨b, t₂, hgives', hR', hmid', hknown'⟩ | ⟨f', t₂, herror, hblocked⟩ :=
      hf a hR _ t₁ hmid hfresh'
    · refine .inl ⟨b, t₂, hgives.bind hgives', hR', ?_, ?_⟩
      · simpa only [or_assoc] using hmid'
      · rintro i name k (hQ | hQ')
        · exact hknown i name k hQ
        · exact hknown' i name k hQ'
    · refine .inr ⟨f', t₂, ?_, hblocked.mono fun _ _ => .inr⟩
      rw [outcome_bind, gives_iff_outcome.1 hgives]
      exact herror
  · refine .inr ⟨f', t₁, ?_, hblocked.mono fun _ _ => .inl⟩
    rw [outcome_bind, herror]

/-- Work that comes to the same in every session that is midway. -/
theorem ofOutcome {x y : Work α} (hx : ∀ P t, Midway s P t → outcome x t = outcome y t)
    (hy : Resolves s Q R y) : Resolves s Q R x := by
  intro P t hP hfresh
  rw [hx P t hP]
  obtain ⟨a, t', hgives, hrest⟩ | herror := hy P t hP hfresh
  · exact .inl ⟨a, t', gives_iff_outcome.2 ((hx P t hP).trans (gives_iff_outcome.1 hgives)), hrest⟩
  · exact .inr herror

theorem mapM {γ : Type} {f : γ → Work α} {Q : γ → Places} {as : List γ}
    (hf : ∀ a ∈ as, Resolves s (Q a) R (f a))
    (hdisjoint : as.Pairwise fun a b => ∀ i name, Q a i name → ¬ Q b i name) :
    Resolves s (fun i name => ∃ a ∈ as, Q a i name) (fun bs => ∀ b ∈ bs, R b) (as.mapM f) := by
  induction as with
  | nil => exact (pure (by simp)).congr (by simp)
  | cons a as ih =>
    rw [List.pairwise_cons] at hdisjoint
    rw [List.mapM_cons]
    have htail := ih (fun b hb => hf b (by simp [hb])) hdisjoint.2
    refine (bind (hf a (by simp)) (fun b hb => ?_) ?_).congr
      (Q := fun i name => Q a i name ∨ (∃ b ∈ as, Q b i name) ∨ False) (by simp)
    · refine bind htail (fun bs hbs => pure (by simpa using ⟨hb, hbs⟩)) (fun _ _ _ h => h)
    · rintro i name ha (⟨b, hb, hQ⟩ | h)
      · exact hdisjoint.1 b hb i name ha hQ
      · exact h

theorem forM {γ : Type} {f : γ → Work Unit} {Q : γ → Places} {as : List γ}
    (hf : ∀ a ∈ as, Resolves s (Q a) (fun _ => True) (f a))
    (hdisjoint : as.Pairwise fun a b => ∀ i name, Q a i name → ¬ Q b i name) :
    Resolves s (fun i name => ∃ a ∈ as, Q a i name) (fun _ => True) (as.forM f) := by
  induction as with
  | nil => exact (pure trivial).congr (by simp)
  | cons a as ih =>
    rw [List.pairwise_cons] at hdisjoint
    have htail := ih (fun b hb => hf b (by simp [hb])) hdisjoint.2
    refine (bind (hf a (by simp)) (fun _ _ => htail) ?_).congr (by simp)
    rintro i name ha ⟨b, hb, hQ⟩
    exact hdisjoint.1 b hb i name ha hQ

end Resolves

/-! ### The places of a declaration -/

variable {s t : Session} {i : Nat} {name k : String}

theorem gives_find (h : named? t k = some w) : Gives (find (.text k)) t w t := by
  have hget : t.table.get? (.named (.text k)) = some w := h
  refine Gives.get (Gives.bind (.pure (Key.named (.text k)) t) ?_)
  rw [hget]
  exact .pure w t

theorem outcome_find (h : named? t k = none) :
    outcome (find (.text k)) t = (.error (.missingKey (some k)), t) := by
  have hget : t.table.get? (.named (.text k)) = none := h
  have hlookup : outcome (lookup t.table (.text k)) t = (.error (.missingKey (some k)), t) := by
    have hkey : Gives (keyOf (.text k)) t (.named (.text k)) t := .pure _ t
    rw [lookup, outcome_bind, gives_iff_outcome.1 hkey]
    simp only [hget]
    rfl
  exact hlookup

theorem find_all (t : Session) (ks : List String) :
    (∃ ws, List.Forall₂ (fun k w => named? t k = some w) ks ws ∧
      Gives ((ks.map .text).mapM find) t ws t) ∨
    ∃ k ∈ ks, named? t k = none ∧
      outcome ((ks.map .text).mapM find) t = (.error (.missingKey (some k)), t) := by
  induction ks with
  | nil => exact .inl ⟨[], .nil, gives_mapM_nil.2 ⟨rfl, rfl⟩⟩
  | cons k ks ih =>
    rw [List.map_cons]
    cases hk : named? t k with
    | none =>
      refine .inr ⟨k, List.mem_cons_self, hk, ?_⟩
      rw [List.mapM_cons, outcome_bind, outcome_find hk]
    | some w =>
      obtain ⟨ws, hws, hgives⟩ | ⟨k', hk', hnone, herror⟩ := ih
      · exact .inl ⟨w :: ws, .cons hk hws, gives_mapM_cons.2 ⟨w, t, ws, gives_find hk, hgives, rfl⟩⟩
      · refine .inr ⟨k', List.mem_cons_of_mem k hk', hnone, ?_⟩
        rw [List.mapM_cons, outcome_bind, gives_iff_outcome.1 (gives_find hk)]
        show outcome ((ks.map .text).mapM find >>= _) t = _
        rw [outcome_bind, herror]

/-- The place of one field. -/
def Only (i : Nat) (name : String) : Places := fun j n => j = i ∧ n = name

theorem keyAt_text (hname : name ∈ singleFields)
    (h : s.graph.field? (.link i) name = some (.text k)) (k' : String) :
    KeyAt s i name k' ↔ k' = k := by
  have hfield : name ∈ keyFields := mem_keyFields.2 (.inl hname)
  simp only [KeyAt, h, hfield, ne_location_of_mem hfield]
  simp [eq_comm]

theorem keyAt_textList (hname : name ∈ listFields)
    (h : s.graph.field? (.link i) name = some (textList ks)) (k : String) :
    KeyAt s i name k ↔ k ∈ ks := by
  have hfield : name ∈ keyFields := mem_keyFields.2 (.inr hname)
  simp only [KeyAt, h, hfield, ne_location_of_mem hfield]
  simp [textList]

theorem keyAt_location {file line : String} (hl : Text.pieces ':' l = [file, line])
    (h : s.graph.field? (.link i) "location" = some (.text l)) (k : String) :
    KeyAt s i "location" k ↔ k = file := by
  have hfields : "location" ∉ keyFields := by decide
  simp only [KeyAt, h, hfields, false_and, false_or, true_and]
  constructor
  · rintro ⟨l', line', hl', hp⟩
    cases hl'
    rw [hl] at hp
    cases hp
    rfl
  · rintro rfl
    exact ⟨l, line, rfl, hl⟩

theorem resolves_key (hname : name ∈ singleFields)
    (h : s.graph.field? (.link i) name = some (.text k)) :
    Resolves s (Only i name) (fun _ => True)
      (field (.link i) name >>= fun v => find v >>= fun w => setField (.link i) name w) := by
  intro P t hP hfresh
  have hfield : t.graph.field? (.link i) name = some (.text k) := by
    rw [hP.kept i name (hfresh i name ⟨rfl, rfl⟩), h]
  cases hk : named? s k with
  | none =>
    refine .inr ⟨_, t, ?_, .missing hk ⟨rfl, rfl⟩ ((keyAt_text hname h k).2 rfl)⟩
    rw [outcome_bind, gives_iff_outcome.1 (gives_field hfield)]
    show outcome (find (.text k) >>= _) t = _
    rw [outcome_bind, outcome_find ((hP.named?_eq k).trans hk)]
  | some w =>
    have hlt : i < t.graph.entries.size := Graph.lt_size_of_field? _ hfield
    have hset := (gives_find ((hP.named?_eq k).trans hk)).bind (gives_setField i name w)
    refine .inl ⟨(), _, (gives_field hfield).bind hset, trivial,
      hP.sameBut h (.key hname hk) (sameBut_setField hlt name w), ?_⟩
    rintro _ _ k' ⟨rfl, rfl⟩ hat
    rw [(keyAt_text hname h k').1 hat, hk]
    rfl

theorem known_of_forall₂ {ws : List Value} (hname : name ∈ listFields)
    (h : s.graph.field? (.link i) name = some (textList ks))
    (hknown : List.Forall₂ (fun k w => named? s k = some w) ks ws) :
    ∀ j n k, Only i name j n → KeyAt s j n k → (named? s k).isSome = true := by
  rintro _ _ k ⟨rfl, rfl⟩ hat
  obtain ⟨w, -, hw⟩ := exists_of_forall₂_left hknown ((keyAt_textList hname h k).1 hat)
  rw [hw]
  rfl

theorem resolves_many (hname : name ∈ listFields)
    (h : s.graph.field? (.link i) name = some (textList ks)) :
    Resolves s (Only i name) (fun _ => True) (resolvePlace (.link i) (.many name)) := by
  intro P t hP hfresh
  have hfield : t.graph.field? (.link i) name = some (textList ks) := by
    rw [hP.kept i name (hfresh i name ⟨rfl, rfl⟩), h]
  have hitems : Gives (fieldItems (.link i) name) t (ks.map .text) t := gives_fieldItems hfield
  obtain ⟨ws, hws, hgives⟩ | ⟨k, hk, hnone, herror⟩ := find_all t ks
  · have hknown : List.Forall₂ (fun k w => named? s k = some w) ks ws :=
      hws.imp fun k w hw => (hP.named?_eq k).symm.trans hw
    have hlt : i < t.graph.entries.size := Graph.lt_size_of_field? _ hfield
    refine .inl ⟨(), _, hitems.bind (hgives.bind (gives_setField i name (.list ws))), trivial,
      hP.sameBut h (.keys hname hknown) (sameBut_setField hlt name _),
      known_of_forall₂ hname h hknown⟩
  · refine .inr ⟨_, t, ?_, .missing ((hP.named?_eq k).symm.trans hnone) ⟨rfl, rfl⟩
      ((keyAt_textList hname h k).2 hk)⟩
    rw [resolvePlace, outcome_bind, gives_iff_outcome.1 hitems]
    show outcome ((ks.map .text).mapM find >>= _) t = _
    rw [outcome_bind, herror]

theorem resolveEach_cases (i : Nat) (name : String) (ks : List String) (t : Session)
    (done : List Value) (h : t.graph.field? (.link i) name = some (.list (done ++ ks.map .text))) :
    (∃ ws t', List.Forall₂ (fun k w => named? t k = some w) ks ws ∧
      Gives (resolveEach (.link i) name done.length (ks.map .text)) t () t' ∧
      SameBut i name (.list (done ++ ws)) t t') ∨
    ∃ k ∈ ks, ∃ t', named? t k = none ∧
      outcome (resolveEach (.link i) name done.length (ks.map .text)) t =
        (.error (.missingKey (some k)), t') := by
  induction ks generalizing t done with
  | nil => exact .inl ⟨[], t, .nil, .pure () t, .refl h⟩
  | cons k ks ih =>
    rw [List.map_cons] at h ⊢
    cases hk : named? t k with
    | none =>
      refine .inr ⟨k, List.mem_cons_self, t, hk, ?_⟩
      rw [resolveEach, outcome_bind, outcome_find hk]
    | some w =>
      have hlt : i < t.graph.entries.size := Graph.lt_size_of_field? _ h
      have hset : (done ++ Value.text k :: ks.map .text).set done.length w =
          (done ++ [w]) ++ ks.map .text := by
        rw [List.set_append_right _ _ (Nat.le_refl _), Nat.sub_self, List.set_cons_zero,
          List.append_assoc, List.singleton_append]
      have hsame := sameBut_setField hlt name (.list (done ++ [w] ++ ks.map .text))
      -- the first key is replaced, and the others are resolved after it
      have hstep : outcome (resolveEach (.link i) name done.length (.text k :: ks.map .text)) t =
          outcome (resolveEach (.link i) name (done ++ [w]).length (ks.map .text))
            { t with graph := t.graph.setField i name (.list (done ++ [w] ++ ks.map .text)) } := by
        rw [resolveEach, outcome_bind, gives_iff_outcome.1 (gives_find hk), List.length_append]
        show outcome (field (.link i) name >>= _) t = _
        rw [outcome_bind, gives_iff_outcome.1 (gives_field h), ← hset]
        rfl
      obtain ⟨ws, t', hws, hgives, hsame'⟩ | ⟨k', hk', t', hnone, herror⟩ :=
        ih _ (done ++ [w]) hsame.field
      · refine .inl ⟨w :: ws, t', .cons hk hws, ?_, ?_⟩
        · rw [gives_iff_outcome, hstep]
          exact gives_iff_outcome.1 hgives
        · rw [List.append_assoc] at hsame'
          exact hsame.trans hsame'
      · exact .inr ⟨k', List.mem_cons_of_mem k hk', t', hnone, hstep.trans herror⟩

theorem resolves_each (hname : name ∈ listFields)
    (h : s.graph.field? (.link i) name = some (textList ks)) :
    Resolves s (Only i name) (fun _ => True) (resolvePlace (.link i) (.each name)) := by
  intro P t hP hfresh
  have hfield : t.graph.field? (.link i) name = some (textList ks) := by
    rw [hP.kept i name (hfresh i name ⟨rfl, rfl⟩), h]
  have hitems : Gives (fieldItems (.link i) name) t (ks.map .text) t := gives_fieldItems hfield
  obtain ⟨ws, t', hws, hgives, hsame⟩ | ⟨k, hk, t', hnone, herror⟩ :=
    resolveEach_cases i name ks t [] hfield
  · have hknown : List.Forall₂ (fun k w => named? s k = some w) ks ws :=
      hws.imp fun k w hw => (hP.named?_eq k).symm.trans hw
    exact .inl ⟨(), t', hitems.bind hgives, trivial, hP.sameBut h (.keys hname hknown) hsame,
      known_of_forall₂ hname h hknown⟩
  · refine .inr ⟨_, t', ?_, .missing ((hP.named?_eq k).symm.trans hnone) ⟨rfl, rfl⟩
      ((keyAt_textList hname h k).2 hk)⟩
    rw [resolvePlace, outcome_bind, gives_iff_outcome.1 hitems]
    exact herror

def ArgumentTypes (s : Session) (i : Nat) : Places := fun j n =>
  n = "typ" ∧ ∃ items, s.graph.field? (.link i) "arguments" = some (.list items) ∧ .link j ∈ items

theorem resolves_arguments {js : List Nat}
    (hform : s.graph.form? (.link i) = some form) (htakes : takesArguments form = true)
    (hargs : s.graph.field? (.link i) "arguments" = some (.list (js.map .link))) (hjs : js.Nodup)
    (htypes : ∀ j ∈ js, ∃ k, s.graph.field? (.link j) "typ" = some (.text k)) :
    Resolves s (ArgumentTypes s i) (fun _ => True) (resolvePlace (.link i) .arguments) := by
  have hread : ∀ P t, Midway s P t → outcome (resolvePlace (.link i) .arguments) t =
      outcome ((js.map Value.link).forM fun arg =>
        field arg "typ" >>= fun v => find v >>= fun w => setField arg "typ" w) t := by
    intro P t hP
    have hargs' : t.graph.field? (.link i) "arguments" = some (.list (js.map .link)) := by
      rw [hP.field?_other i (by decide), hargs]
    rw [resolvePlace, resolveArguments, outcome_bind, gives_iff_outcome.1 (gives_get.2 ⟨rfl, rfl⟩)]
    simp only [hP.form, hform, htakes, if_true]
    rw [outcome_bind, gives_iff_outcome.1 (gives_fieldItems hargs')]
  refine .ofOutcome hread
    ((Resolves.forM (Q := fun arg j n => arg = .link j ∧ n = "typ") ?_ ?_).congr ?_)
  · intro arg harg
    obtain ⟨j, hj, rfl⟩ := List.mem_map.1 harg
    obtain ⟨k, hk⟩ := htypes j hj
    refine (resolves_key (by decide) hk).congr fun j' n => ?_
    rw [Only, Value.link.injEq, eq_comm]
  · refine List.Pairwise.map _ (fun j j' hne => ?_) hjs
    rintro i n ⟨hi, -⟩ ⟨hi', -⟩
    exact hne (Value.link.inj (hi.trans hi'.symm))
  · intro j n
    simp only [ArgumentTypes, hargs]
    constructor
    · rintro ⟨arg, harg, rfl, hn⟩
      exact ⟨hn, _, rfl, harg⟩
    · rintro ⟨hn, items, hitems, hj⟩
      cases hitems
      exact ⟨_, hj, rfl, hn⟩

def Location (s : Session) (i : Nat) : Places := fun j n =>
  j = i ∧ n = "location" ∧ ∃ l, s.graph.field? (.link i) "location" = some (.text l)

theorem isLocation_of_gives {t' : Session}
    (hl : t.graph.field? (.link i) "location" = some (.text l))
    (h : Gives (resolveLocation (.link i)) t () t') : isLocation l = true := by
  obtain ⟨o, t₁, hread, h⟩ := gives_bind.1 h
  obtain ⟨rfl, rfl⟩ := gives_pure.1 (show Gives (pure (t.graph.field? (.link i) "location")) _ _ _
    from hread)
  simp only [hl] at h
  split at h
  · rename_i file line hpieces
    obtain ⟨_, _, -, h⟩ := gives_bind.1 h
    obtain ⟨_, _, -, h⟩ := gives_bind.1 h
    split at h
    · exact isLocation_iff.2 ⟨file, line, _, hpieces, ‹_›⟩
    · cases h
  · cases h

theorem resolves_location
    (hnamed : ∀ k v, named? s k = some v → ∃ j name, v = .link j ∧
    s.graph.field? v "name" = some name)
    (h : ∀ v, s.graph.field? (.link i) "location" = some v → v = .nothing ∨ ∃ l, v = .text l) :
    Resolves s (Location s i) (fun _ => True) (resolveLocation (.link i)) := by
  intro P t hP hfresh
  have hread : ∀ o, s.graph.field? (.link i) "location" = o →
      (∀ l, o = some (.text l) → ¬ P i "location") → Gives (field? (.link i) "location") t o t := by
    intro o ho hP'
    have hkept : t.graph.field? (.link i) "location" = s.graph.field? (.link i) "location" := by
      refine hP.kept i "location" fun hPi => ?_
      obtain ⟨v, w, hv, -, hbecomes⟩ := hP.become i "location" hPi
      obtain ⟨l, rfl⟩ := hbecomes.location_text
      exact hP' l (ho.symm.trans hv) hPi
    show Gives (pure (t.graph.field? (.link i) "location")) t o t
    rw [hkept, ho]
    exact .pure o t
  -- without a location there is nothing to do
  have hskip : (∀ l, s.graph.field? (.link i) "location" ≠ some (.text l)) →
      Midway s (fun j n => P j n ∨ Location s i j n) t ∧
        ∀ j n k, Location s i j n → KeyAt s j n k → (named? s k).isSome = true := by
    intro hne
    have hempty : ∀ j n, ¬ Location s i j n := fun j n ⟨_, _, l, hl⟩ => hne l hl
    exact ⟨by simpa only [hempty, or_false] using hP, fun j n k hQ => absurd hQ (hempty j n)⟩
  cases hv : s.graph.field? (.link i) "location" with
  | none =>
    refine .inl ⟨(), t, (hread none hv (by simp)).bind (.pure () t), trivial, hskip (by simp [hv])⟩
  | some v =>
    obtain rfl | ⟨l, rfl⟩ := h v hv
    · exact .inl ⟨(), t, (hread _ hv (by simp)).bind (.pure () t), trivial, hskip (by simp [hv])⟩
    have hplace : Location s i i "location" := ⟨rfl, rfl, l, hv⟩
    have hgives := hread _ hv fun _ _ => hfresh i "location" hplace
    cases hlocation : isLocation l with
    | false =>
      cases hrun : outcome (resolveLocation (.link i)) t with
      | mk r t' =>
        cases r with
        | error f => exact .inr ⟨f, t', rfl, .malformed f hplace hv hlocation⟩
        | ok _ =>
          have hkept := hP.kept i "location" (hfresh i "location" hplace)
          have := isLocation_of_gives (hkept.trans hv) (gives_iff_outcome.2 hrun)
          rw [hlocation] at this
          cases this
    | true =>
      obtain ⟨file, line, n, hl, hn⟩ := isLocation_iff.1 hlocation
      cases hfile : named? s file with
      | none =>
        refine .inr ⟨_, t, ?_, .missing hfile hplace ((keyAt_location hl hv file).2 rfl)⟩
        rw [resolveLocation, outcome_bind, gives_iff_outcome.1 hgives]
        simp only [hl]
        rw [outcome_bind, outcome_find ((hP.named?_eq file).trans hfile)]
      | some w =>
        obtain ⟨j, name, rfl, hname⟩ := hnamed file w hfile
        have hname' : t.graph.field? (.link j) "name" = some name := by
          rw [hP.field?_other j (by decide), hname]
        have hlt : i < t.graph.entries.size := hP.size ▸ Graph.lt_size_of_field? _ hv
        have hset : Gives (resolveLocation (.link i)) t ()
            { t with graph := t.graph.setField i "location" (.tuple [name, .int n]) } := by
          refine hgives.bind ?_
          simp only [hl, hn]
          exact (gives_find ((hP.named?_eq file).trans hfile)).bind
            ((gives_field hname').bind (gives_setField i _ _))
        refine .inl ⟨(), _, hset, trivial, ?_, ?_⟩
        · have hmid := hP.sameBut hv (.location hl hn hfile hname)
            (sameBut_setField hlt "location" _)
          have hQ : ∀ j n, Location s i j n ↔ j = i ∧ n = "location" := fun j n =>
            ⟨fun h => ⟨h.1, h.2.1⟩, fun h => ⟨h.1, h.2, l, hv⟩⟩
          simpa only [hQ] using hmid
        · rintro _ _ k ⟨rfl, rfl, -⟩ hat
          rw [(keyAt_location hl hv k).1 hat, hfile]
          rfl

/-! ### Whole declarations -/

def placesAt (s : Session) (i : Nat) : KeyPlace → Places
  | .one n | .many n | .each n => Only i n
  | .arguments => ArgumentTypes s i

/-- The keys at a place of keys are as a dump gives them. -/
def Ready (s : Session) (i : Nat) : KeyPlace → Prop
  | .one n => n ∈ singleFields ∧ ∃ k, s.graph.field? (.link i) n = some (.text k)
  | .many n | .each n =>
    n ∈ listFields ∧ ∃ ks, s.graph.field? (.link i) n = some (textList ks)
  | .arguments => ∃ (form : Form) (js : List Nat), s.graph.form? (.link i) = some form ∧
      takesArguments form = true ∧ s.graph.field? (.link i) "arguments" =
      some (.list (js.map .link)) ∧ js.Nodup ∧
      ∀ j ∈ js, ∃ k, s.graph.field? (.link j) "typ" = some (.text k)

theorem resolves_place (h : Ready s i place) :
    Resolves s (placesAt s i place) (fun _ => True) (resolvePlace (.link i) place) := by
  cases place with
  | one n =>
    obtain ⟨hn, k, hk⟩ := h
    exact resolves_key hn hk
  | many n =>
    obtain ⟨hn, ks, hks⟩ := h
    exact resolves_many hn hks
  | each n =>
    obtain ⟨hn, ks, hks⟩ := h
    exact resolves_each hn hks
  | arguments =>
    obtain ⟨form, js, hform, htakes, hargs, hjs, htypes⟩ := h
    exact resolves_arguments hform htakes hargs hjs htypes

/-- The name of the fields that are resolved at a place of keys. -/
def KeyPlace.target : KeyPlace → String
  | .one n | .many n | .each n => n
  | .arguments => "typ"

theorem placesAt_target (h : placesAt s i place j n) : n = KeyPlace.target place := by
  cases place with
  | arguments => exact h.1
  | _ => exact h.2

theorem nodup_targets (h : keyPlaces? .dump form = some places) :
    ("location" :: places.map KeyPlace.target).Nodup := by
  cases form <;> cases h <;> decide

def placesOf (s : Session) (i : Nat) (places : List KeyPlace) : Places := fun j n =>
  Location s i j n ∨ ∃ place ∈ places, placesAt s i place j n

theorem resolves_entry (horigin : s.graph.origin = .dump)
    (hnamed : ∀ k v, named? s k = some v → ∃ j name, v = .link j ∧
    s.graph.field? v "name" = some name)
    (hlocation : ∀ v, s.graph.field? (.link i) "location" = some v → v = .nothing ∨
      ∃ l, v = .text l)
    (hform : s.graph.form? (.link i) = some form) (hplaces : keyPlaces? .dump form = some places)
    (hready : ∀ place ∈ places, Ready s i place) :
    Resolves s (placesOf s i places) (fun vs => vs = []) (resolveEntry (.link i)) := by
  have hnodup := nodup_targets hplaces
  rw [List.nodup_cons] at hnodup
  have hresolve : Resolves s (fun j n => (∃ place ∈ places, placesAt s i place j n) ∨ False)
      (fun vs : List Value => vs = []) (resolve (.link i) places >>= fun _ => Pure.pure []) := by
    refine .bind (R := fun _ => True)
      (.forM (fun place hplace => resolves_place (hready place hplace)) ?_)
      (fun _ _ => .pure rfl) fun _ _ _ h => h
    refine (List.pairwise_map.1 hnodup.2).imp fun hne j n h h' => ?_
    exact hne ((placesAt_target h).symm.trans (placesAt_target h'))
  refine (Resolves.bind (resolves_location hnamed hlocation)
    (fun _ _ => .ofOutcome (fun P t hP => ?_) hresolve) ?_).congr (by simp [placesOf])
  · rw [outcome_bind, gives_iff_outcome.1 (gives_get.2 ⟨rfl, rfl⟩)]
    simp only
    rw [outcome_bind, gives_iff_outcome.1 gives_origin]
    simp only [hP.form, hform, hP.origin, horigin, Option.bind_some, hplaces]
  · rintro j n ⟨-, rfl, -⟩ (⟨place, hplace, h⟩ | h)
    · exact hnodup.1 (placesAt_target h ▸ List.mem_map_of_mem hplace)
    · exact h

/-! ### Everything that has been read -/

/-- The places of everything that has been read. -/
def allPlaces (s : Session) : Places := fun j n =>
  ∃ v ∈ s.table.values, ∃ i form places, v = .link i ∧ s.graph.form? v = some form ∧
    keyPlaces? .dump form = some places ∧ placesOf s i places j n

/-- Everything that has been read is as a dump gives it, and has places of its own. -/
structure Resolvable (s : Session) : Prop where
  origin : s.graph.origin = .dump
  named : ∀ v ∈ s.table.values, ∃ j name, v = .link j ∧ s.graph.field? v "name" = some name
  location : ∀ i, .link i ∈ s.table.values → ∀ v, s.graph.field? (.link i) "location" = some v →
    v = .nothing ∨ ∃ l, v = .text l
  ready : ∀ i, .link i ∈ s.table.values → ∃ form places, s.graph.form? (.link i) = some form ∧
    keyPlaces? .dump form = some places ∧ ∀ place ∈ places, Ready s i place
  once : s.table.values.Nodup
  standing : ∀ i, .link i ∈ s.table.values → s.graph.form? (.link i) ≠ some .argument
  owned : ∃ owner : Nat → Nat, ∀ i items,
    s.graph.field? (.link i) "arguments" = some (.list items) → ∀ j, .link j ∈ items → owner j = i ∧
    s.graph.form? (.link j) = some .argument

theorem placesOf_cases (h : placesOf s i places j n) :
    j = i ∨ ∃ items, s.graph.field? (.link i) "arguments" = some (.list items) ∧
    .link j ∈ items := by
  obtain h | ⟨place, -, h⟩ := h
  · exact .inl h.1
  · cases place with
    | arguments => exact .inr h.2
    | _ => exact .inl h.1

namespace Resolvable

theorem entry (h : Resolvable s) (hv : v ∈ s.table.values) :
    Resolves s (fun j n => ∃ i form places, v = .link i ∧ s.graph.form? v = some form ∧
      keyPlaces? .dump form = some places ∧ placesOf s i places j n)
      (fun vs => vs = []) (resolveEntry v) := by
  obtain ⟨i, -, rfl, -⟩ := h.named v hv
  obtain ⟨form, places, hform, hplaces, hready⟩ := h.ready i hv
  have hnamed : ∀ k w, named? s k = some w →
      ∃ j name, w = .link j ∧ s.graph.field? w "name" = some name := fun k w hw =>
      h.named w (Table.mem_values_of_get? _ hw)
  refine (resolves_entry h.origin hnamed (h.location i hv) hform hplaces hready).congr fun j n => ?_
  constructor
  · exact fun hQ => ⟨i, form, places, rfl, hform, hplaces, hQ⟩
  · rintro ⟨_, form', places', hi, hform', hplaces', hQ⟩
    cases hi
    obtain rfl := Option.some.inj (hform.symm.trans hform')
    obtain rfl := Option.some.inj (hplaces.symm.trans hplaces')
    exact hQ

theorem resolveAll (h : Resolvable s) :
    Resolves s (allPlaces s) (fun _ => True) Decl.resolveAll := by
  obtain ⟨owner, howner⟩ := h.owned
  have hmapM : Resolves s (allPlaces s) (fun vss => ∀ vs ∈ vss, vs = [])
      (s.table.values.mapM resolveEntry) := by
    refine .mapM (fun v hv => h.entry hv) (h.once.imp_of_mem fun {v w} hv hw hne => ?_)
    -- what two declarations have in common would be one of them, or an argument of both
    rintro j n ⟨i, form, places, rfl, -, -, hQ⟩ ⟨i', form', places', rfl, -, -, hQ'⟩
    obtain rfl | ⟨items, hitems, hj⟩ := placesOf_cases hQ <;>
      obtain rfl | ⟨items', hitems', hj'⟩ := placesOf_cases hQ'
    · exact hne rfl
    · exact h.standing j hv (howner _ _ hitems' j hj').2
    · exact h.standing j hw (howner _ _ hitems j hj).2
    · refine hne ?_
      rw [← (howner _ _ hitems j hj).1, (howner _ _ hitems' j hj').1]
  have hall : Resolves s (fun j n => allPlaces s j n ∨ False) (fun _ => True)
      (s.table.values.mapM resolveEntry >>= fun vss => vss.flatten.forM forget) := by
    refine hmapM.bind (fun vss hvss => ?_) fun _ _ _ h => h
    rw [List.flatten_eq_nil_iff.2 hvss]
    exact .pure trivial
  refine .ofOutcome (fun P t hP => ?_) (hall.congr (by simp))
  rw [Decl.resolveAll, outcome_bind, gives_iff_outcome.1 (gives_get.2 ⟨rfl, rfl⟩)]
  simp only
  rw [show t.table = s.table by rw [hP.rest]]

end Resolvable

end PxdGen.Dump
