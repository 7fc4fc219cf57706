import PxdGen.Proofs.Decl.Drafted
import PxdGen.Text.Path
/-! # The declarations of a header

A module for a header of a dump has the declarations that come from a file whose path ends in the
name of the header. That leaves out nothing of the header itself, but a header also gets the
declarations of those whose names end in its own.

Mentioning and defining the declarations of a dump changes none of them, so what one is translated
to does not depend on the others.
-/

namespace PxdGen.Text

theorem getLastD_pieces_go_suffix (sep : Char) (cs piece : List Char) (default : String) :
    ((pieces.go sep cs piece).getLastD default).toList <:+ piece.reverse ++ cs := by
  induction cs generalizing piece default with
  | nil => simp [pieces.go]
  | cons c cs ih =>
    rw [pieces.go]
    split
    · rw [List.getLastD_cons]
      exact (ih [] _).trans ⟨piece.reverse ++ [c], by simp⟩
    · simpa using ih (c :: piece) default

theorem endsWith_baseName (path : String) : path.endsWith (baseName path) = true := by
  rw [String.endsWith_eq_endsWith_toSlice, String.Slice.endsWith_string_iff]
  rw [String.copy_toSlice]
  exact getLastD_pieces_go_suffix '/' path.toList [] ""

end PxdGen.Text

namespace PxdGen.Decl

open Work

variable {s s' : Session} {v : Value}

/-! ### Defining declarations of a dump -/

/-- One session, in which nothing has happened since another one but that something was told. -/
def Told (s₀ s t : Session) : Prop := t = s ∧ ∃ k, s = { s₀ with console := k }

theorem seesNames_told {s₀ : Session} (ho : s₀.graph.origin = .dump) : SeesNames (Told s₀) where
  graph := fun h => by rw [h.1]
  named := by
    rintro s t - ⟨s', t', ⟨-, k, rfl⟩, hUnit⟩
    cases ho.symm.trans hUnit
  told := by
    rintro s t ⟨rfl, k, rfl⟩ text
    exact ⟨rfl, k ++ text, rfl⟩

/-- Work that sees names only leaves the declarations of a dump as they are. -/
theorem exists_console_of_gives {α : Type} {x : Work α} (hx : ∀ {S}, SeesNames S → Steady S x)
    (ho : s.graph.origin = .dump) {a : α} (h : Gives x s a s') :
    ∃ k, s' = { s with console := k } := by
  have hAgree := hx (seesNames_told ho) (s := s) (t := s) ⟨rfl, s.console, rfl⟩
  rw [gives_iff_outcome.1 h] at hAgree
  cases hAgree with
  | ok _ hS => exact hS.2

/-- The forms of declarations that a module of a dump can define. -/
def Form.isDefined : Form → Bool
  | .struct | .union | .enumeration | .function | .globalVariable | .typedef => true
  | _ => false

section

variable (sub : Value → Work Value) (v : Value)

theorem brings_defineAs_single (kind : Pxd.Kind) (held : String) (keep : Value → Bool) :
    Brings (defineAs sub kind v held keep) fun ws => ∃ w, ws = [w] :=
  .after fun _ => .after fun _ => .after fun _ => .after fun _ => .after fun _ => .pure ⟨_, rfl⟩

theorem brings_defineTypedef_single : Brings (defineTypedef sub v) fun ws => ∃ w, ws = [w] := by
  refine .after fun _ => .after fun _ => .after fun _ => .after fun _ => ?_
  dsimp only
  split
  · refine .after fun _ => ?_
    split
    · exact .after fun _ => .after fun _ => .pure ⟨_, rfl⟩
    · exact .after fun _ => .after fun _ => .after fun _ => .after fun _ => .pure ⟨_, rfl⟩
  · exact .after fun _ => .after fun _ => .pure ⟨_, rfl⟩

end

theorem exists_eq_of_gives_define {fuel n : Nat} {form : Form} {stmts : List Value}
    (hForm : s.graph.form? v = some form) (hDefined : form.isDefined = true)
    (h : Gives (define fuel n v) s stmts s') : ∃ w, stmts = [w] := by
  cases n with
  | zero => cases h
  | succ n =>
    have h := gives_after gives_origin h
    have h := gives_after (gives_get.2 ⟨rfl, rfl⟩) h
    rw [hForm] at h
    cases form with
    | struct | union | enumeration => exact brings_defineAs_single _ _ _ _ _ _ _ _ h
    | function =>
      obtain ⟨w, _, -, h⟩ := gives_bind.1 h
      exact ⟨w, (gives_pure.1 h).1⟩
    | globalVariable =>
      obtain ⟨name, _, -, h⟩ := gives_bind.1 h
      obtain ⟨type, _, -, h⟩ := gives_bind.1 h
      obtain ⟨mentioned, _, -, h⟩ := gives_bind.1 h
      obtain ⟨w, _, -, h⟩ := gives_bind.1 h
      exact ⟨w, (gives_pure.1 h).1⟩
    | typedef => exact brings_defineTypedef_single _ _ _ _ _ h
    | _ => cases hDefined

/-! ### The body of a module -/

/-- A declaration that can be defined, with the path of the file that it comes from. -/
structure Graph.ComesFrom (g : Graph) (v : Value) (path : String) : Prop where
  form : ∃ form, g.form? v = some form ∧ form.isDefined = true
  location : ∃ location rest, g.field? v "location" = some location ∧
    location.items? = some (.text path :: rest)

/-- What a declaration becomes in a session, whatever has been told before. -/
def Translates (s : Session) (v w : Value) : Prop :=
  ∃ k k', Gives (define (s.graph.entries.size + 1) (s.graph.entries.size + 1) v)
    { s with console := k } [w] { s with console := k' }

theorem gives_isElsewhere {path header : String} (ho : s.graph.origin = .dump)
    (hv : s.graph.ComesFrom v path) :
    Gives (isElsewhere (.text header) v) s (!path.endsWith header) s := by
  obtain ⟨location, rest, hField, hItems⟩ := hv.location
  refine Gives.bind (gives_field hField) (Gives.bind gives_origin ?_)
  rw [ho]
  cases location with
  | nothing => cases hItems
  | _ => exact Gives.bind (Gives.bind (gives_items hItems) rfl) rfl

theorem forall₂_of_gives_mapM {header : String} (ho : s.graph.origin = .dump)
    {items : List (Value × String)} (hItems : ∀ p ∈ items, s.graph.ComesFrom p.1 p.2) {k : String}
    {lists : List (List Value)}
    (h : Gives ((items.map (·.1)).mapM fun item => do
      if ← isElsewhere (.text header) item then pure []
      else define (s.graph.entries.size + 1) (s.graph.entries.size + 1) item)
        { s with console := k } lists s') :
    List.Forall₂ (Translates s) ((items.filter fun p => p.2.endsWith header).map (·.1))
        lists.flatten := by
  induction items generalizing k lists with
  | nil =>
    obtain ⟨rfl, -⟩ := gives_mapM_nil.1 h
    exact .nil
  | cons p items ih =>
    obtain ⟨ws, t, rest, hFirst, hRest, rfl⟩ := gives_mapM_cons.1 h
    have hp := hItems p (by simp)
    have hFirst := gives_after (gives_isElsewhere (s := { s with console := k }) ho hp) hFirst
    have hOthers := fun q hq => hItems q (List.mem_cons_of_mem p hq)
    cases hEnds : p.2.endsWith header with
    | false =>
      rw [hEnds] at hFirst
      obtain ⟨rfl, rfl⟩ := gives_pure.1 hFirst
      simpa [hEnds] using ih hOthers hRest
    | true =>
      rw [hEnds] at hFirst
      obtain ⟨form, hForm, hDefined⟩ := hp.form
      obtain ⟨w, rfl⟩ := exists_eq_of_gives_define (s := { s with console := k }) hForm hDefined
        hFirst
      obtain ⟨k', rfl⟩ := exists_console_of_gives (s := { s with console := k })
        (fun hS => hS.define _ _ _) ho hFirst
      have hAll := List.Forall₂.cons ⟨k, k', hFirst⟩ (ih hOthers hRest)
      simpa [hEnds] using hAll

/-- **The body of a module for a header of a dump** has one statement for each declaration whose
file's path ends in the name of the header, in their order, and nothing else. The declarations of
the header are among them, whatever its path. -/
theorem body_of_gives_moduleOf (ho : s.graph.origin = .dump) {items : List (Value × String)}
    (hItems : ∀ p ∈ items, s.graph.ComesFrom p.1 p.2) {path : String} {m : Value}
    (h : Gives (moduleOf (.list (items.map (·.1))) (.text (Text.baseName path))) s m s') :
    (∃ stmts, m = headerModule (.text (Text.baseName path)) stmts ∧ List.Forall₂ (Translates s)
      ((items.filter fun p => p.2.endsWith (Text.baseName path)).map (·.1)) stmts) ∧
    ∀ p ∈ items, Text.baseName p.2 = Text.baseName path → p.2.endsWith (Text.baseName path) =
        true := by
  refine ⟨?_, fun p _ hName => hName ▸ Text.endsWith_baseName p.2⟩
  have h := gives_after gives_steps h
  have h := gives_after (gives_items rfl) h
  obtain ⟨lists, t, hLists, h⟩ := gives_bind.1 h
  exact ⟨lists.flatten, brings_headerModule _ _ _ _ _ h, forall₂_of_gives_mapM ho hItems hLists⟩

/-- Variables of three headers, where the name of the second ends in that of the first. -/
def similarHeaders : Session where
  graph := { entries := #[⟨.fundamentalType, [("name", .text "int")]⟩, variableOf "a" "/inc/foo.h",
    variableOf "b" "/inc/myfoo.h", variableOf "c" "/inc/bar.h"] }
where
  variableOf (name path : String) :
    Entry :=
    ⟨.globalVariable,
      [("name", .text name), ("typ", .link 0), ("location", .tuple [.text path, .int 1])]⟩

theorem body_of_gives_moduleOf_similar : ∃ m s' stmts,
    Gives (moduleOf (.list [.link 1, .link 2, .link 3]) (.text (Text.baseName "/inc/foo.h")))
      similarHeaders m s' ∧ m = headerModule (.text "foo.h") stmts ∧
      List.Forall₂ (Translates similarHeaders) [.link 1, .link 2] stmts := by
  have hOk :
      (outcome (moduleOf (.list [.link 1, .link 2, .link 3]) (.text (Text.baseName "/inc/foo.h")))
      similarHeaders).1.isOk = true := by decide +kernel
  obtain ⟨m, h⟩ := exists_gives_of_isOk hOk
  have hItems :
      ∀ p ∈ [(Value.link 1, "/inc/foo.h"), (.link 2, "/inc/myfoo.h"), (.link 3, "/inc/bar.h")],
      similarHeaders.graph.ComesFrom p.1 p.2 := by
    simp only [List.forall_mem_cons]
    refine ⟨?_, ?_, ?_, by simp⟩ <;> exact ⟨⟨_, rfl, rfl⟩, ⟨_, _, rfl, rfl⟩⟩
  obtain ⟨⟨stmts, hm, hStmts⟩, -⟩ := body_of_gives_moduleOf rfl hItems h
  have hFoo : "/inc/foo.h".endsWith (Text.baseName "/inc/foo.h") = true := by decide +kernel
  have hMyfoo : "/inc/myfoo.h".endsWith (Text.baseName "/inc/foo.h") = true := by decide +kernel
  have hBar : "/inc/bar.h".endsWith (Text.baseName "/inc/foo.h") = false := by decide +kernel
  simp only [List.filter, hFoo, hMyfoo, hBar] at hStmts
  exact ⟨m, _, stmts, h, hm, hStmts⟩

end PxdGen.Decl
