import PxdGen.Proofs.Decl.Body
import PxdGen.Proofs.Render.Statement
/-! # Statements of drafted modules

The blocks of a module that is drafted for them are those of its records and enumerations, whose
bodies have been given something to hold if they had nothing, and that of the header, which may have
nothing in it.
-/

namespace PxdGen.Decl

open Work
open Pxd (Kind fieldOf single)

variable {α β : Type}

/-- Whatever the work gives has the property. -/
def Brings (x : Work α) (P : α → Prop) : Prop := ∀ s a s', Gives x s a s' → P a

variable {v : Value} {f : α → Work β}

namespace Brings

variable {P : α → Prop} {Q : β → Prop} {x : Work α}

theorem pure {a : α} (h : P a) : Brings (Pure.pure a) P := by
  intro s b s' hGives
  obtain ⟨rfl, rfl⟩ := gives_pure.1 hGives
  exact h

theorem throw (e : Fault) : Brings (MonadExcept.throw e) P :=
  fun _ _ _ hGives => absurd hGives gives_throw

theorem bind (hx : Brings x P) (hf : ∀ a, P a → Brings (f a) Q) : Brings (x >>= f) Q := by
  intro s b s'' hGives
  obtain ⟨a, s', hx', hf'⟩ := gives_bind.1 hGives
  exact hf a (hx s a s' hx') s' b s'' hf'

theorem mono {P' : α → Prop} (hx : Brings x P) (h : ∀ a, P a → P' a) : Brings x P' :=
  fun s a s' hGives => h a (hx s a s' hGives)

theorem after (hf : ∀ a, Brings (f a) Q) : Brings (x >>= f) Q :=
  bind (P := fun _ => True) (fun _ _ _ _ => trivial) fun a _ => hf a

theorem mapM (as : List α) (h : ∀ a ∈ as, Brings (f a) Q) :
    Brings (as.mapM f) fun bs => ∀ b ∈ bs, Q b := by
  induction as with
  | nil =>
    rw [List.mapM_nil]
    exact .pure (by simp)
  | cons a as ih =>
    rw [List.mapM_cons]
    refine (h a (by simp)).bind fun b hb => ?_
    refine (ih fun c hc => h c (by simp [hc])).bind fun bs hbs => .pure ?_
    exact List.forall_mem_cons.2 ⟨hb, hbs⟩

end Brings

/-! ### What is built -/

variable {kind : Kind}

theorem eq_node_of_build {args : List Value} {fields : List (String × Value)}
    (hBind : kind.signature.bind? args = some fields) (hFields : fields ≠ [])
    (h : Pxd.build kind args = .ok v) : v = .node kind fields := by
  have hNone :
      ∀ {given : List (String × Value)}, Pxd.Signature.bind? ⟨[], [], []⟩ args = some given →
      given = [] := by
    intro given hGiven
    simp only [Pxd.Signature.bind?] at hGiven
    split at hGiven
    · cases hGiven
    · obtain rfl := Option.some.inj hGiven
      simp
  unfold Pxd.build at h
  split at h
  · exact absurd (hNone hBind) hFields
  · exact absurd (hNone hBind) hFields
  · split at h
    · cases h
    · rw [hBind] at h
      dsimp only at h
      cases hRun : kind.signature.checks.forM (·.run fields) with
      | error f =>
        rw [hRun] at h
        cases h
      | ok u =>
        rw [hRun] at h
        exact (Except.ok.inj h).symm

theorem brings_build (kind : Kind) (args : List Value) (fields : List (String × Value))
    (hBind : kind.signature.bind? args = some fields) (hFields : fields ≠ []) :
    Brings (build kind args) (· = .node kind fields) := fun _ _ _ hGives =>
  eq_node_of_build hBind hFields (build_eq_ok_of_gives hGives)

theorem fieldOf_putField {name other : String} (h : name ≠ other) (v : Value)
    (fields : List (String × Value)) :
    fieldOf (Value.putField other v fields) name = fieldOf fields name := by
  rw [fieldOf, lookup_putField, if_neg h, fieldOf]

/-! ### Statements -/

/-- A value that is no statement with a block, nor one that declares another. -/
def isPlain : Value → Bool
  | .node kind _ => kind.blocks.isEmpty && !kind.isDeclaring
  | _ => true

theorem brings_plain (hk : (kind.blocks.isEmpty && !kind.isDeclaring) = true) (args : List Value) :
    Brings (build kind args) (isPlain · = true) := by
  intro s v s' hGives
  obtain ⟨fields, rfl⟩ := exists_fields_of_build (build_eq_ok_of_gives hGives)
  exact hk

def bodyKinds : List Kind := [.structDef, .unionDef, .enumDef, .cppClassDef]

/-- A statement about a header. -/
inductive Drafted : Value → Prop where
  | plain {v : Value} : isPlain v = true → Drafted v
  | block {kind : Kind} {fields : List (String × Value)} {body : List Value} :
    kind ∈ bodyKinds → fieldOf fields "body" = .list body →
    body ≠ [] → (∀ w ∈ body, Drafted w) → Drafted (.node kind fields)
  | words {kind : Kind} {fields : List (String × Value)} : kind.isDeclaring = true →
    Drafted (fieldOf fields "value") → Drafted (.node kind fields)

/-! ### Mentions -/

theorem brings_declaration (type name : Value) :
    Brings (declaration type name) (isPlain · = true) :=
  .after fun _ => brings_plain rfl _

section Step

variable {sub : Value → Work Value}

theorem brings_mentionFunction (v : Value) : Brings (mentionFunction sub v) (isPlain · = true) :=
  .after fun _ => .after fun _ => brings_plain rfl _

theorem brings_mentionStep (hSub : ∀ v, Brings (sub v) (isPlain · = true)) (v : Value) :
    Brings (mentionStep sub v) (isPlain · = true) := by
  have hNamed : ∀ name, Brings (namedType name) (isPlain · = true) := fun _ => .after fun _ =>
    brings_plain rfl _
  refine .after fun origin => .after fun session => ?_
  split
  · exact .after fun _ => .after fun _ => .after fun _ => brings_declaration _ _
  · exact .after fun _ => .after fun _ => brings_plain rfl _
  iterate 5
    · exact .after fun name => hNamed _
  · exact .after fun _ => .after fun _ => .after fun _ => brings_plain rfl _
  · exact .after fun _ => .after fun _ => brings_plain rfl _
  · exact .after fun _ => .after fun _ => .after fun _ => .after fun _ => .after fun _ =>
        .after fun _ =>
      brings_plain rfl _
  · exact .after fun typ => hSub typ
  · refine .after fun typ => (hSub typ).bind fun type hType => .after fun _ => .after fun _ => ?_
    unfold qualify
    split
    · exact .pure hType
    · exact .throw _
  · exact .after fun _ => brings_plain rfl _
  · exact .after fun _ => .after fun _ => brings_plain rfl _
  · exact .after fun name => hNamed _
  · exact brings_mentionFunction v
  · exact .pure rfl

end Step

theorem brings_mention (fuel : Nat) : ∀ v, Brings (mention fuel v) (isPlain · = true) := by
  induction fuel with
  | zero => exact fun v => .throw _
  | succ fuel ih =>
    intro v
    refine (brings_mentionStep ih v).bind fun w hw => ?_
    split
    · refine .after fun origin => ?_
      split
      · exact .after fun _ => .after fun _ => .pure rfl
      · exact .pure rfl
    · exact .pure hw

/-! ### Definitions -/

section Toplevel

variable {sub : Value → Work Value}

theorem brings_definition (hk : kind ∈ bodyKinds) (name : Value) {stmts : List Value}
    (h : ∀ w ∈ stmts, isPlain w = true) : Brings (definition kind name stmts) Drafted := by
  have hBind : kind.signature.bind? [name, bodyOf stmts] =
      some [("name", name), ("body", bodyOf stmts)] := by
    simp only [bodyKinds, List.mem_cons, List.not_mem_nil, or_false] at hk
    rcases hk with rfl | rfl | rfl | rfl <;> rfl
  refine (brings_build kind _ _ hBind (by simp)).mono ?_
  rintro _ rfl
  refine .block hk rfl ?_ fun w hw => .plain ?_
  · split
    · simp
    · rename_i hNe
      simpa using hNe
  · split at hw
    · obtain rfl := List.mem_singleton.1 hw
      rfl
    · exact h w hw

theorem brings_single {x : Work Value} (h : Brings x Drafted) :
    Brings (do pure [← x]) fun ws => ∀ w ∈ ws, Drafted w :=
  h.bind fun _ hw => .pure (List.forall_mem_singleton.2 hw)

theorem brings_cdef (h : Drafted v) : Brings (cdef v) Drafted :=
  (brings_build .cdefDecl _ [("modifiers", .list []), ("value", v)] rfl (by simp)).mono
    fun _ hw => hw ▸ .words rfl h

variable (hSub : ∀ v, Brings (sub v) (isPlain · = true))

include hSub

theorem brings_defineAs (hk : kind ∈ bodyKinds) (v : Value) (held : String) (keep : Value → Bool) :
    Brings (defineAs sub kind v held keep) fun ws => ∀ w ∈ ws, Drafted w := by
  refine .after fun name => .after fun members => ?_
  refine (Brings.mapM members fun m _ => hSub m).bind fun stmts hStmts => ?_
  have hKept :
    ∀ w ∈ stmts.filter keep, isPlain w = true := fun w hw => hStmts w (List.mem_filter.1 hw).1
  exact (brings_definition hk name hKept).bind fun d hd => brings_single (brings_cdef hd)

theorem brings_defineTypedef (v : Value) :
    Brings (defineTypedef sub v) fun ws => ∀ w ∈ ws, Drafted w := by
  have hEnd : ∀ value, Drafted value →
      Brings (do pure [← build .cTypedefDecl [value]]) fun ws => ∀ w ∈ ws, Drafted w :=
      fun value h =>
    brings_single ((brings_build .cTypedefDecl _ [("value", value)] rfl (by simp)).mono
      fun _ hw => hw ▸ .words rfl h)
  refine .after fun name => .after fun typ => .after fun origin => .after fun session => ?_
  have hPlain : Brings (do declaration (← sub (← field v "typ")) name) Drafted :=
    .after fun _ => .after fun _ => (brings_declaration _ name).mono fun _ => .plain
  dsimp only
  split
  · rename_i kind held hKind
    have hk : kind ∈ bodyKinds := by
      obtain ⟨form, -, hForm⟩ := Option.bind_eq_some_iff.1 hKind
      cases form <;> cases hForm <;> decide
    refine .after fun typeName => ?_
    split
    · exact hPlain.bind hEnd
    · refine .after fun members => (Brings.mapM members fun m _ => hSub m).bind fun stmts hStmts =>
        ?_
      exact (brings_definition hk name hStmts).bind hEnd
  · exact hPlain.bind hEnd

theorem brings_defineStep {visit : Value → Work (List Value)}
    (hVisit : ∀ v, Brings (visit v) fun ws => ∀ w ∈ ws, Drafted w) (v : Value) :
    Brings (defineStep sub visit v) fun ws => ∀ w ∈ ws, Drafted w := by
  refine .after fun origin => .after fun session => ?_
  split
  iterate 3
    · exact brings_defineAs hSub (by decide) v _ _
  · exact brings_single ((brings_mentionFunction v).mono fun _ => .plain)
  · exact .after fun name => .after fun _ => .after fun _ =>
      brings_single ((brings_declaration _ name).mono fun _ => .plain)
  · exact brings_defineTypedef hSub v
  · exact brings_defineAs hSub (by decide) v _ _
  · refine .after fun members => (Brings.mapM members fun m _ => hVisit m).bind fun stmts hs =>
      .pure ?_
    intro w hw
    obtain ⟨ws, hws, hw⟩ := List.mem_flatten.1 hw
    exact hs ws hws w hw
  · exact .after fun _ => .after fun _ => .pure (by simp)
  · exact .pure (by simp)

end Toplevel

theorem brings_define (fuel n : Nat) :
    ∀ v, Brings (define fuel n v) fun ws => ∀ w ∈ ws, Drafted w := by
  induction n with
  | zero => exact fun v => .throw _
  | succ n ih => exact fun v => brings_defineStep (brings_mention fuel) ih v

/-- A module with the block of a header. -/
def headerModule (header : Value) (stmts : List Value) : Value :=
  .node .moduleNode [("body", .list [.node .cdefDecl [("modifiers", .list []),
    ("value", .node .externFrom [("name", header), ("body", .list stmts)])]])]

theorem brings_headerModule (header : Value) (stmts : List Value) :
    Brings (do build .moduleNode [.list [← cdef (← build .externFrom [header, .list stmts])]])
      (· = headerModule header stmts) := by
  refine (brings_build .externFrom _ [("name", header), ("body", .list stmts)] rfl (by simp)).bind
    ?_
  rintro _ rfl
  refine (brings_build .cdefDecl _ [("modifiers", .list []), ("value", _)] rfl (by simp)).bind ?_
  rintro _ rfl
  exact brings_build .moduleNode _ [("body", .list [_])] rfl (by simp)

/-- **No block in a statement of a drafted module is empty.** -/
theorem brings_moduleOf (v header : Value) : Brings (moduleOf v header) fun m =>
    ∃ stmts, m = headerModule header stmts ∧ ∀ w ∈ stmts, Drafted w := by
  refine .after fun fuel => .after fun vs => ?_
  refine (Brings.mapM (Q := fun ws => ∀ w ∈ ws, Drafted w) vs fun item _ => ?_).bind fun lists
    hLists => ?_
  · refine .after fun elsewhere => ?_
    split
    · exact .pure (by simp)
    · exact brings_define _ _ _
  refine (brings_headerModule header lists.flatten).mono ?_
  rintro _ rfl
  refine ⟨lists.flatten, rfl, fun w hw => ?_⟩
  obtain ⟨ws, hws, hw⟩ := List.mem_flatten.1 hw
  exact hLists ws hws w hw

end PxdGen.Decl
