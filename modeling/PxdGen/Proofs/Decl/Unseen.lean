import PxdGen.Decl.Definition
import PxdGen.Decl.Flatten
import PxdGen.Decl.Result
import PxdGen.Proofs.InStep
/-! # What the passes do not see

Preparing, mentioning and defining declarations look at the graph of a session and at nothing else.
So each pass ends alike in two sessions that have the same graph, whatever else differs between
them. Mentioning and defining change nothing in the graph but the names of declarations.
-/

namespace PxdGen.Decl

open Work

/-- Declarations of this origin are in sessions that correspond. -/
def Meets (S : Session → Session → Prop) (o : Origin) : Prop := ∃ s t, S s t ∧ s.graph.origin = o

/-- Sessions that correspond have the same graph, and correspond whatever the declarations of a unit
in it are named. -/
structure SeesNames (S : Session → Session → Prop) : Prop where
  graph : ∀ {s t}, S s t → t.graph = s.graph
  named : ∀ {s t}, S s t → Meets S .unit → ∀ (id : Nat) (name : Value),
    S { s with graph := s.graph.setField id "name" name }
      { t with graph := s.graph.setField id "name" name }
  told : ∀ {s t}, S s t → ∀ text, S { s with console := s.console ++ text }
    { t with console := t.console ++ text }

namespace SeesNames

variable {S : Session → Session → Prop} (hS : SeesNames S) {α : Type}

include hS

/-! ### The primitives -/

@[grind ←]
theorem say (line : String) : Steady S (say line) := .modify fun _ _ h => hS.told h _

theorem onGraph {f : Graph → Work α} (h : ∀ g, Steady S (f g)) :
    Steady S (get >>= fun s => f s.graph) :=
  .get fun s t hs => by
    rw [hS.graph hs]
    exact h s.graph

@[grind ←]
theorem origin : Steady S origin := hS.onGraph (f := fun g => pure g.origin) fun _ => .pure rfl

@[grind ←]
theorem shown (v : Value) : Steady S (shown v) :=
  hS.onGraph (f := fun g => pure (v.display g.display)) fun _ => .pure rfl

@[grind ←]
theorem literal (v : Value) : Steady S (literal v) :=
  hS.onGraph (f := fun g => pure (v.literal g.display)) fun _ => .pure rfl

@[grind ←]
theorem hasForm (v : Value) (form : Form) : Steady S (hasForm v form) :=
  hS.onGraph (f := fun g => pure (g.hasForm v form)) fun _ => .pure rfl

@[grind ←]
theorem isContainer (v : Value) : Steady S (isContainer v) :=
  hS.onGraph (f := fun g => pure (g.isContainer v)) fun _ => .pure rfl

@[grind ←]
theorem field? (v : Value) (name : String) : Steady S (field? v name) :=
  hS.onGraph (f := fun g => pure (g.field? v name)) fun _ => .pure rfl

@[grind ←]
theorem steps : Steady S steps :=
  hS.onGraph (f := fun g => pure (g.entries.size + 1)) fun _ => .pure rfl

@[grind ←]
theorem field (v : Value) (name : String) : Steady S (field v name) := by
  grind [Work.field]

@[grind ←]
theorem setName (hUnit : Meets S .unit) (v name : Value) : Steady S (setField v "name" name) := by
  cases v with
  | link id =>
    refine .modify fun s t h => ?_
    rw [hS.graph h]
    exact hS.named h hUnit id name
  | _ => exact .throw _

omit hS in
@[grind .]
theorem check (e : Except Fault α) : Steady S (check e) := by
  cases e with
  | ok a => exact .pure rfl
  | error f => exact .throw f

omit hS in
@[grind .]
theorem items (v : Value) : Steady S (items v) := by
  grind [Work.items]

@[grind ←]
theorem fieldItems (v : Value) (name : String) : Steady S (fieldItems v name) :=
  .bindEq (hS.field v name) items

omit hS in
@[grind .]
theorem build (kind : Pxd.Kind) (args : List Value) : Steady S (build kind args) :=
  check _

theorem rendering (x : Pxd.Rendering α) : Steady S (rendering x) :=
  .bindEq (.modify fun _ _ h => hS.told h _) fun _ => check _

/-! ### Mentioning and defining -/

omit hS in
@[grind .]
theorem namedType (name : Value) : Steady S (namedType name) := by
  grind [Decl.namedType]

omit hS in
@[grind .]
theorem declaration (type name : Value) : Steady S (declaration type name) := by
  grind [Decl.declaration, typedName]

omit hS in
@[grind .]
theorem asInteger (v : Value) : Steady S (asInteger v) := by
  cases v <;> grind [Decl.asInteger]

@[grind ←]
theorem structName (v : Value) : Steady S (structName v) := by
  grind [Decl.structName]

@[grind ←]
theorem adoptTypedefName (hUnit : Meets S .unit) (arg : Value) :
    Steady S (adoptTypedefName arg) := by
  grind [Decl.adoptTypedefName]

section

variable {sub : Value → Work Value} (hsub : ∀ v, Steady S (sub v))

include hsub

@[grind ←]
theorem mentionSignature (v : Value) {each : Value → Work Unit} (heach : ∀ v, Steady S (each v)) :
    Steady S (mentionSignature sub v each) := by
  refine .bindEq (hS.fieldItems v "arguments") fun args => ?_
  grind [argumentList]

@[grind ←]
theorem mentionFunction (v : Value) : Steady S (mentionFunction sub v) :=
  .bindEq (hS.field v "name") fun _ =>
    .bindEq (hS.mentionSignature hsub v fun _ => .pure rfl) fun _ => build _ _

@[grind ←]
theorem mentionStep (v : Value) : Steady S (mentionStep sub v) := by
  refine .bind (R := fun o o' => o = o' ∧ Meets S o) ?_ fun o o' ho => ?_
  · exact .get fun s t h => .pure ⟨by rw [hS.graph h], s, t, h, rfl⟩
  obtain ⟨rfl, hMeets⟩ := ho
  refine .get fun s t h => ?_
  rw [hS.graph h]
  split
  case h_12 =>
    refine .bindEq (hS.field v "typ") fun w => .bindEq (hsub w) fun type => ?_
    refine .bindEq (hS.field v "const") fun _ => .bindEq (hS.field v "volatile") fun _ => ?_
    unfold qualify
    split
    · exact .pure rfl
    · exact .throw _
  case h_13 =>
    refine .bindEq (hS.mentionSignature hsub v fun arg => ?_) fun _ => build _ _
    split
    · exact hS.adoptTypedefName (eq_of_beq ‹_› ▸ hMeets) arg
    · exact .pure rfl
  all_goals grind [typedName]

end

@[grind ←]
theorem mention (fuel : Nat) (v : Value) : Steady S (mention fuel v) := by
  induction fuel generalizing v with
  | zero => exact .throw _
  | succ fuel ih =>
    refine .bindEq (hS.mentionStep ih v) fun w => ?_
    grind

@[grind ←]
theorem defineAs {sub : Value → Work Value} (hsub : ∀ v, Steady S (sub v)) (kind : Pxd.Kind)
    (v : Value) (held : String) (keep : Value → Bool) :
    Steady S (defineAs sub kind v held keep) := by
  grind [Decl.defineAs, definition, cdef]

@[grind ←]
theorem defineTypedef {sub : Value → Work Value} (hsub : ∀ v, Steady S (sub v)) (v : Value) :
    Steady S (defineTypedef sub v) := by
  refine .bindEq (hS.field v "name") fun name => .bindEq (hS.field v "typ") fun type => ?_
  refine .bindEq hS.origin fun o => .get fun s t h => ?_
  rw [hS.graph h]
  dsimp only
  split
  · refine .bindEq (hS.field type "name") fun own => ?_
    split <;> grind [definition]
  · grind

theorem define (fuel n : Nat) (v : Value) : Steady S (define fuel n v) := by
  induction n generalizing v with
  | zero => exact .throw _
  | succ n ih =>
    have hsub := hS.mention fuel
    refine .bindEq hS.origin fun o => .get fun s t h => ?_
    rw [hS.graph h]
    split <;> grind

theorem isElsewhere (header v : Value) : Steady S (isElsewhere header v) := by
  refine .bindEq (hS.field v "location") fun location => .bindEq hS.origin fun o => ?_
  split
  · exact .pure rfl
  · exact .pure rfl
  · refine .bindEq (.bindEq (items location) fun parts => ?_) fun file => ?_
    · split
      · exact .pure rfl
      · exact .throw _
    · grind

theorem defineHere (header : Value) (fuel n : Nat) (v : Value) :
    Steady S (do if ← Decl.isElsewhere header v then pure [] else Decl.define fuel n v) := by
  refine .bindEq (hS.isElsewhere header v) fun b => ?_
  cases b with
  | true => exact .pure rfl
  | false => exact hS.define fuel n v

theorem moduleOf (v header : Value) : Steady S (moduleOf v header) :=
  .bindEq hS.steps fun fuel => .bindEq (items v) fun vs =>
    .bindEq (.mapMEq (hS.defineHere header fuel fuel) vs) fun _ =>
      .bindEq (build _ _) fun _ => .bindEq (build _ _) fun _ => build _ _

theorem namesOf (vs : List Value) : Steady S (namesOf vs) := by
  refine .foldlM (fun names v => .bindEq (hS.field? v "name") fun name => ?_) vs _
  grind

end SeesNames

/-- Sessions that correspond have the same graph, and correspond whatever declarations are in it. -/
structure SeesGraph (S : Session → Session → Prop) : Prop extends SeesNames S where
  changed : ∀ {s t}, S s t → ∀ g : Graph, g.origin = s.graph.origin →
    S { s with graph := g } { t with graph := g }
  named := fun h _ _ _ => changed h _ rfl

attribute [grind →] SeesGraph.toSeesNames

namespace SeesGraph

variable {S : Session → Session → Prop} (hS : SeesGraph S)

include hS

/-! ### Making and changing declarations -/

@[grind ←]
theorem setField (v : Value) (name : String) (w : Value) : Steady S (setField v name w) := by
  cases v with
  | link id =>
    refine .modify fun s t h => ?_
    rw [hS.graph h]
    exact hS.changed h _ rfl
  | _ => exact .throw _

@[grind ←]
theorem make (form : Form) (args : List Value) : Steady S (make form args) := by
  refine .bindEq hS.origin fun o => ?_
  cases Entry.make? o form args with
  | none => exact .throw _
  | some e =>
    refine .get fun s t h => ?_
    rw [hS.graph h]
    refine .bindEq (.modify fun s t h => ?_) fun _ => .pure rfl
    rw [hS.graph h]
    exact hS.changed h _ rfl

theorem append (v : Value) (name : String) (item : Value) : Steady S (append v name item) := by
  refine .bindEq (hS.field v name) fun w => ?_
  cases w with
  | list vs => exact hS.setField v name _
  | _ => exact .throw _

theorem add (operation : String) (v item : Value) : Steady S (add operation v item) := by
  refine .get fun s t h => ?_
  rw [hS.graph h]
  split
  · unfold addTo
    split
    · exact .pure rfl
    · exact hS.append v _ _
  · exact .throw _

/-! ### Flattening -/

theorem findToplevel (v : Value) : Steady S (findToplevel v) := by
  refine .get fun s t h => ?_
  rw [hS.graph h]
  refine .bindEq (SeesNames.items v) fun candidates => ?_
  cases s.graph.origin with
  | dump =>
    dsimp only
    split
    · exact .throw _
    · refine .bindEq (hS.field _ _) fun members => ?_
      cases members <;> grind
  | unit => grind

@[grind ←]
theorem outerName (v : Value) : Steady S (outerName v) := by
  grind [Decl.outerName]

@[grind ←]
theorem nestedIn (v : Value) : Steady S (nestedIn v) := by
  refine .get fun s t h => ?_
  rw [hS.graph h]
  exact .bindEq (hS.fieldItems v "members") fun _ => .pure rfl

@[grind ←]
theorem detach (v : Value) (l : Lifted) : Steady S (detach v l) := by
  have hMember : ∀ member, Steady S (do if ← Work.hasForm member .field then
      if (← Work.field member "typ").same l.container then
        Work.setField member "typ" l.typedef) := by
    grind
  refine .bindEq (hS.fieldItems v "members") fun members => .bindEq (hS.setField _ _ _) fun _ => ?_
  refine .bindEq hS.origin fun o => ?_
  have hMembers := InStep.bindEq (hS.fieldItems v "members") fun ms => .forM hMember ms
  cases o with
  | dump => exact hMembers
  | unit =>
    simp only [beq_self_eq_true, if_true]
    split
    · exact .bindEq (.throw _) fun _ => hMembers
    · exact .bindEq (hS.field _ _) fun _ => .bindEq (hS.shown _) fun _ =>
        .bindEq (hS.say _) fun _ => hMembers

theorem flattenContainer (fuel : Nat) (v : Value) : Steady S (flattenContainer fuel v) := by
  induction fuel generalizing v with
  | zero => exact .throw _
  | succ fuel ih =>
    refine .bindEq (hS.field v "context") fun context => .bindEq (hS.outerName v) fun outer => ?_
    refine .bindEq (hS.nestedIn v) fun nested => .bindEq (.mapMEq (fun p => ?_) nested)
      fun lifted => ?_
    · refine .bindEq (hS.shown outer) fun _ => .bindEq (hS.field _ "name") fun name => ?_
      grind
    · exact .bindEq (.forM (hS.detach v) _) fun _ => .pure rfl

theorem flattenOne (fuel : Nat) (v : Value) : Steady S (flattenOne fuel v) := by
  induction fuel generalizing v with
  | zero => exact .throw _
  | succ fuel ih =>
    have hContainer := hS.flattenContainer fuel v
    refine .bindEq (hS.isContainer v) fun b => ?_
    grind

theorem flatten (v : Value) : Steady S (flatten v) :=
  .bindEq hS.steps fun fuel => .bindEq (SeesNames.items v) fun vs =>
    .bindEq (.mapMEq (hS.flattenOne (fuel + 1)) vs) fun _ => .pure rfl

end SeesGraph

end PxdGen.Decl
