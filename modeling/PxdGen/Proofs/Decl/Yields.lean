import PxdGen.Decl.Member
import PxdGen.Proofs.Decl.Graph
/-! # Outcomes apart from the console

Most work also tells on the console what it does, and nothing depends on that. `Yields x s a s'`
says that `x` gives `a` and leads from `s` to `s'` whatever has been told before, and whatever it
tells.
-/

namespace PxdGen.Decl

open Work

variable {α β : Type}

variable {v : Value} {name : String} {rest : List Value}

def Yields (x : Work α) (s : Session) (a : α) (s' : Session) : Prop :=
  ∀ k, ∃ k', Gives x { s with console := k } a { s' with console := k' }

namespace Yields

variable {x : Work α} {s s' s'' : Session} {a : α} {b : β}

theorem gives (h : Yields x s a s') : ∃ k, Gives x s a { s' with console := k } := h s.console

/-- Work that tells nothing and does not look at the console. -/
theorem silent (h : ∀ k, Gives x { s with console := k } a { s' with console := k }) :
    Yields x s a s' := fun k => ⟨k, h k⟩

theorem pure (a : α) (s : Session) : Yields (Pure.pure a) s a s := .silent fun _ => .pure a _

theorem bind {f : α → Work β} (hx : Yields x s a s') (hf : Yields (f a) s' b s'') :
    Yields (x >>= f) s b s'' := by
  intro k
  obtain ⟨k', hx⟩ := hx k
  obtain ⟨k'', hf⟩ := hf k'
  exact ⟨k'', hx.bind hf⟩

end Yields

variable {s s' : Session}

namespace Work

/-! ### The primitives -/

theorem yields_say (line : String) : Yields (say line) s () s := fun _ => ⟨_, rfl⟩

theorem yields_get_bind {f : Session → Work β} {b : β}
    (h : ∀ k, Yields (f { s with console := k }) s b s') : Yields (get >>= f) s b s' := by
  intro k
  obtain ⟨k', h⟩ := h k k
  exact ⟨k', Gives.get h⟩

theorem yields_modify (f : Session → Session)
    (h : ∀ k, f { s with console := k } = { f s with console := k }) :
    Yields (modify f) s () (f s) :=
  .silent fun k => gives_modify.2 (h k).symm

theorem yields_shown (v : Value) : Yields (shown v) s (v.display s.graph.display) s :=
  .silent fun _ => rfl

theorem yields_literal (v : Value) : Yields (literal v) s (v.literal s.graph.display) s :=
  .silent fun _ => rfl

theorem yields_check {e : Except Fault α} {a : α} (h : e = .ok a) : Yields (check e) s a s := by
  rw [h]
  exact .pure a s

theorem yields_field {w : Value} (h : s.graph.field? v name = some w) :
    Yields (field v name) s w s := .silent fun _ => gives_field h

theorem yields_setField (id : Nat) (name : String) (w : Value) :
    Yields (setField (.link id) name w) s () { s with graph := s.graph.setField id name w } :=
  .silent fun _ => rfl

theorem yields_make {form : Form} {args : List Value} {e : Entry}
    (h : Entry.make? s.graph.origin form args = some e) :
    Yields (make form args) s (.link s.graph.entries.size) { s with graph := (s.graph.add e).2 } :=
  .silent fun k => gives_make (s := { s with console := k }) h

theorem yields_make_unit {g : Graph} {form : Form} {args : List Value} {e : Entry}
    (ho : g.origin = .unit) (h : Entry.make? .unit form args = some e) :
    Yields (make form args) { s with graph := g } (.link g.entries.size)
      { s with graph := (g.add e).2 } :=
  yields_make (s := { s with graph := g }) (ho ▸ h)

theorem yields_append {id : Nat} {vs : List Value} (item : Value)
    (h : s.graph.field? (.link id) name = some (.list vs)) :
      Yields (append (.link id) name item) s ()
      { s with graph := s.graph.setField id name (.list (vs ++ [item])) } :=
  .bind (yields_field h) (yields_setField id name _)

theorem yields_push (v : Value) : Yields (push v) s () { s with context := v :: s.context } :=
  .silent fun _ => rfl

theorem yields_top (h : s.context = v :: rest) : Yields top s v s := by
  refine .silent fun k => ?_
  refine Gives.get ?_
  rw [h]
  exact .pure v _

theorem yields_pop (h : s.context = v :: rest) : Yields pop s v { s with context := rest } := by
  refine .silent fun k => ?_
  refine Gives.get ?_
  rw [h]
  exact Gives.bind (a := ()) (gives_modify.2 rfl) (.pure v _)

theorem yields_register (key : Key) (v : Value) :
    Yields (register key v) s () { s with table := s.table.insert key v } := .silent fun _ => rfl

end Work

end PxdGen.Decl
