import PxdGen.Proofs.Decl.Graph
import PxdGen.Proofs.Decl.Unseen
import PxdGen.Proofs.Render.Made
/-! # Types in the body of a union

What a struct of a unit holds besides statements is left out of its definition. The definition of a
union leaves nothing out: a type among the members is mentioned by its name, which is no statement,
so the node of the union is refused, and with it the module.
-/

namespace PxdGen.Decl

open Work

variable {α : Type} {s s' : Session}

variable {β : Type} {kind : Pxd.Kind} {args ws : List Value} {v name w header : Value} {fuel : Nat}
  {form : Form}

/-! ### Graphs that differ in names -/

/-- Nothing but names has changed in a graph. -/
structure Graph.KeepsAllButNames (g g' : Graph) : Prop where
  origin : g'.origin = g.origin
  forms : ∀ v, g'.form? v = g.form? v
  fields : ∀ v name, name ≠ "name" → g'.field? v name = g.field? v name

namespace Graph.KeepsAllButNames

variable {g g' g'' : Graph}

theorem refl (g : Graph) : g.KeepsAllButNames g := ⟨rfl, fun _ => rfl, fun _ _ _ => rfl⟩

theorem trans (h : g.KeepsAllButNames g') (h' : g'.KeepsAllButNames g'') :
    g.KeepsAllButNames g'' where
  origin := h'.origin.trans h.origin
  forms := fun v => (h'.forms v).trans (h.forms v)
  fields := fun v name hName => (h'.fields v name hName).trans (h.fields v name hName)

theorem setName (h : g.KeepsAllButNames g') (id : Nat) (name : Value) :
    g.KeepsAllButNames (g'.setField id "name" name) where
  origin := h.origin
  forms := fun v => by rw [form?_setField, h.forms]
  fields := fun v field hField => by
    rw [← h.fields v field hField]
    cases v with
    | link id' =>
      simp only [field?, get?_setField]
      split
      · cases g'.get? id' <;> simp [hField]
      · rfl
    | _ => rfl

end Graph.KeepsAllButNames

/-- Sessions with one graph, in which nothing but names differs from another one. -/
def Renamed (g : Graph) (s t : Session) : Prop := t.graph = s.graph ∧ g.KeepsAllButNames s.graph

theorem seesNames_renamed (g : Graph) : SeesNames (Renamed g) where
  graph := And.left
  named := fun h _ id name => ⟨rfl, h.2.setName id name⟩
  told := fun h _ => h

/-- Work that sees names only changes nothing else. -/
theorem keepsAllButNames_of_gives {x : Work α} (hx : ∀ g, InStep (Renamed g) Eq x x) {a : α}
    (h : Gives x s a s') : s.graph.KeepsAllButNames s'.graph := by
  have hAgree := hx s.graph ⟨rfl, Graph.KeepsAllButNames.refl s.graph⟩
  rw [gives_iff_outcome.1 h] at hAgree
  cases hAgree with
  | ok _ hS => exact hS.2

/-- Each item of a list is worked on in a graph where nothing but names has changed. -/
theorem exists_gives_of_mapM {f : α → Work β}
    (hf : ∀ a g, InStep (Renamed g) Eq (f a) (f a)) {as : List α} {bs : List β}
    (h : Gives (as.mapM f) s bs s') {a : α} (ha : a ∈ as) :
    ∃ t b t', s.graph.KeepsAllButNames t.graph ∧ b ∈ bs ∧ Gives (f a) t b t' := by
  induction as generalizing s bs with
  | nil => cases ha
  | cons first as ih =>
    obtain ⟨b, t, bs', hFirst, hRest, rfl⟩ := gives_mapM_cons.1 h
    rcases List.mem_cons.1 ha with rfl | ha
    · exact ⟨s, b, t, .refl _, by simp, hFirst⟩
    · obtain ⟨u, b', u', hKeeps, hb', hGives⟩ := ih hRest ha
      exact ⟨u, b', u', (keepsAllButNames_of_gives (hf first) hFirst).trans hKeeps,
        List.mem_cons_of_mem _ hb', hGives⟩

/-! ### Types among the members -/

theorem eq_ok_of_gives_check {e : Except Fault α} {a : α} (h : Gives (check e) s a s') :
    e = .ok a := by
  cases e with
  | error f => cases h
  | ok b =>
    obtain ⟨rfl, -⟩ := gives_pure.1 h
    rfl

theorem build_eq_ok_of_gives (h : Gives (build kind args) s v s') : Pxd.build kind args = .ok v :=
  eq_ok_of_gives_check h

theorem exists_fields_of_build (h : Pxd.build kind args = .ok v) :
    ∃ fields, v = .node kind fields := by
  unfold Pxd.build at h
  split at h
  · exact ⟨_, (Except.ok.inj h).symm⟩
  · exact ⟨_, (Except.ok.inj h).symm⟩
  · split at h
    · cases h
    · split at h
      · cases h
      · rename_i fields _
        cases hRun : kind.signature.checks.forM (·.run fields) with
        | error f =>
          rw [hRun] at h
          cases h
        | ok u =>
          rw [hRun] at h
          exact ⟨fields, (Except.ok.inj h).symm⟩

/-- Types that are mentioned by their names. -/
def Form.isNamedType : Form → Bool
  | .struct | .enumeration | .union | .typedef | .fundamentalType => true
  | _ => false

theorem exists_fields_of_gives_namedType (h : Gives (namedType name) s w s') :
    ∃ fields, w = .node .typeName fields := by
  obtain ⟨_, _, -, h⟩ := gives_bind.1 h
  exact exists_fields_of_build (build_eq_ok_of_gives h)

/-- A type is mentioned by a name, which is no statement. -/
theorem isOf_stmt_of_gives_mention
    (hForm : s.graph.form? v = some form) (hType : form.isNamedType = true)
    (h : Gives (mention fuel v) s w s') : w.isOf .stmt = false := by
  cases fuel with
  | zero => cases h
  | succ fuel =>
    obtain ⟨w', t, hStep, h⟩ := gives_bind.1 h
    have hStep := gives_after gives_origin hStep
    have hStep := gives_after (gives_get.2 ⟨rfl, rfl⟩) hStep
    rw [hForm] at hStep
    have hNode : ∃ fields, w' = .node .typeName fields := by
      cases form with
      | struct | enumeration | union | typedef | fundamentalType =>
        obtain ⟨_, _, -, hNamed⟩ := gives_bind.1 hStep
        exact exists_fields_of_gives_namedType hNamed
      | _ => cases hType
    obtain ⟨fields, rfl⟩ := hNode
    obtain ⟨rfl, -⟩ := gives_pure.1 h
    rfl

theorem isOf_stmt_of_build_unionDef {body : List Value}
    (h : Pxd.build .unionDef [name, .list body] = .ok v) : ∀ w ∈ body, w.isOf .stmt = true := by
  have hBuild : Pxd.build .unionDef [name, .list body] =
      ((Pxd.Kind.signature .unionDef).checks.forM (·.run [("name", name), ("body", .list body)]) >>=
        fun _ => .ok (.node .unionDef [("name", name), ("body", .list body)])) := rfl
  rw [hBuild] at h
  cases hRun : (Pxd.Kind.signature .unionDef).checks.forM
      (·.run [("name", name), ("body", .list body)]) with
  | error f =>
    rw [hRun] at h
    cases h
  | ok u =>
    have hChecked : Pxd.Checked .unionDef [("name", name), ("body", .list body)] :=
      ⟨rfl, Pxd.run_of_forM hRun⟩
    exact hChecked.admits_every (.tail _ (.head _)) rfl

theorem not_gives_define_of_union {n : Nat} {stmts : List Value}
    (hUnion : s.graph.form? v = some .union)
    (hMembers : s.graph.field? v "members" = some (.list ws))
    (hw : w ∈ ws) (hForm : s.graph.form? w = some form) (hType : form.isNamedType = true) :
    ¬ Gives (define fuel n v) s stmts s' := by
  intro h
  cases n with
  | zero => cases h
  | succ n =>
    unfold define at h
    have h := gives_after gives_origin h
    have h := gives_after (gives_get.2 ⟨rfl, rfl⟩) h
    rw [hUnion] at h
    obtain ⟨name, _, hName, h⟩ := gives_bind.1 h
    obtain ⟨-, rfl⟩ := gives_field_iff.1 hName
    have h := gives_after (gives_fieldItems hMembers) h
    obtain ⟨body, t, hBody, h⟩ := gives_bind.1 h
    obtain ⟨u, b, _, hKeeps, hb, hMention⟩ :=
      exists_gives_of_mapM (fun a g => (seesNames_renamed g).mention fuel a) hBody hw
    have hNot := isOf_stmt_of_gives_mention ((hKeeps.forms w).trans hForm) hType hMention
    obtain ⟨_, _, hDefinition, -⟩ := gives_bind.1 h
    have hAll : (body.filter fun _ => true) = body := List.filter_eq_self.2 fun _ _ => rfl
    rw [hAll, definition, bodyOf, if_neg (by simp [List.ne_nil_of_mem hb])] at hDefinition
    have hIs := isOf_stmt_of_build_unionDef (build_eq_ok_of_gives hDefinition) b hb
    rw [hNot] at hIs
    cases hIs

theorem eq_false_of_gives_isElsewhere (ho : s.graph.origin = .unit) {b : Bool}
    (h : Gives (isElsewhere header v) s b s') : b = false ∧ s' = s := by
  obtain ⟨location, _, hLocation, h⟩ := gives_bind.1 h
  obtain ⟨-, rfl⟩ := gives_field_iff.1 hLocation
  have h := gives_after gives_origin h
  rw [ho] at h
  exact gives_pure.1 h

/-- **A module with a type in a union fails**: a union among the declarations of a unit that has a
type among its members, such as an enumeration, cannot be defined, whatever else there is. -/
theorem fails_moduleOf_of_union {vs : List Value}
    (ho : s.graph.origin = .unit) (hv : v ∈ vs) (hUnion : s.graph.form? v = some .union)
    (hMembers : s.graph.field? v "members" = some (.list ws)) (hw : w ∈ ws)
    (hForm : s.graph.form? w = some form) (hType : form.isNamedType = true) :
    Fails (moduleOf (.list vs) header) s := by
  refine fails_iff.2 fun module s' h => ?_
  have h := gives_after gives_steps h
  have h := gives_after (gives_items rfl) h
  obtain ⟨_, _, hStmts, -⟩ := gives_bind.1 h
  obtain ⟨t, _, _, hKeeps, -, hOne⟩ :=
    exists_gives_of_mapM (fun a g => (seesNames_renamed g).defineHere header _ _ a) hStmts hv
  obtain ⟨b, t', hElsewhere, hDefine⟩ := gives_bind.1 hOne
  obtain ⟨rfl, rfl⟩ := eq_false_of_gives_isElsewhere (hKeeps.origin.trans ho) hElsewhere
  refine not_gives_define_of_union ((hKeeps.forms v).trans hUnion) ?_ hw
    ((hKeeps.forms w).trans hForm) hType hDefine
  rw [hKeeps.fields v "members" (by decide), hMembers]

end PxdGen.Decl
