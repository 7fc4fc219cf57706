import PxdGen.Decl.Form
/-! # The graph of declarations

Declarations refer to one another, in circles too, and are changed after they have been made. They
are numbered in the order of their making; a value links to one by its number.
-/

namespace PxdGen.Decl

structure Entry where
  form : Form := .anyDecl
  fields : List (String × Value) := []
deriving Inhabited, Repr

namespace Entry

def get? (e : Entry) (name : String) : Option Value := e.fields.lookup name

def set (e : Entry) (name : String) (v : Value) : Entry :=
  { e with fields := Value.putField name v e.fields }

def shown (e : Entry) : List (String × Value) := e.fields.filter (·.1 != "render_hints")

def blank (form : Form) : Entry := ⟨form, [("location", .nothing), ("name", .text "")]⟩

/-- Gives a declaration the fields of its form, or `none` if the number of given fields is wrong. -/
def fill? (origin : Origin) (e : Entry) (args : List Value) : Option Entry :=
  let sig := e.form.signature origin
  let names := sig.required ++ sig.optional
  if e.form == .anyDecl then some e
  else if args.length < sig.required.length || names.length < args.length then none
  else
    let given := names.zip (args ++ List.replicate (names.length - args.length) .nothing)
    let kept := (given.filter fun (n, _) => !sig.dropped.contains n).map fun (n, v) =>
      if sig.emptied.contains n && v matches .nothing then (n, Value.list []) else (n, v)
    some ((kept ++ sig.lists.map (·, Value.list [])).foldl (fun e (n, v) => e.set n v) e)

/-- A new declaration of a form, or `none` if the number of given fields is wrong. -/
def make? (origin : Origin) (form : Form) (args : List Value) : Option Entry :=
  fill? origin (blank form) args

end Entry

structure Graph where
  origin : Origin := .dump
  entries : Array Entry := #[]
  /-- the template parameters of all classes together -/
  classParams : List Value := []
  /-- the template parameters of all class templates together -/
  templateParams : List Value := []
deriving Inhabited, Repr

mutual

def linksOf : Value → List Nat
  | .link id => [id]
  | .list items | .tuple items => linksOfAll items
  | .record fields => linksOfFields fields
  | _ => []

def linksOfAll : List Value → List Nat
  | [] => []
  | v :: rest => linksOf v ++ linksOfAll rest

def linksOfFields : List (String × Value) → List Nat
  | [] => []
  | (_, v) :: rest => linksOf v ++ linksOfFields rest

end

namespace Graph

def get? (g : Graph) (id : Nat) : Option Entry := g.entries[id]?

def form? (g : Graph) (v : Value) : Option Form :=
  match v with
  | .link id => (g.get? id).map (·.form)
  | _ => none

def hasForm (g : Graph) (v : Value) (form : Form) : Bool := g.form? v == some form

def isContainer (g : Graph) (v : Value) : Bool :=
  match g.form? v with
  | some form => form.isContainer
  | none => false

def field? (g : Graph) (v : Value) (name : String) : Option Value :=
  match v with
  | .link id => (g.get? id).bind (·.get? name)
  | _ => none

def setField (g : Graph) (id : Nat) (name : String) (v : Value) : Graph :=
  { g with entries := g.entries.modify id (·.set name v) }

def add (g : Graph) (e : Entry) : Nat × Graph :=
  (g.entries.size, { g with entries := g.entries.push e })

def display (g : Graph) (id : Nat) : String :=
  "<" ++ g.origin.label ++ "." ++ ((g.get? id).map (·.form.label)).getD "C_ASTNode" ++ " object>"

def sortOf (g : Graph) (v : Value) : String :=
  match g.form? v with
  | some form => form.label
  | none => v.sort

/-- The links of a declaration, by the alphabetical order of its fields. -/
def links (g : Graph) (id : Nat) : List Nat :=
  match g.get? id with
  | none => []
  | some e => linksOfAll ((e.shown.mergeSort fun a b => a.1 ≤ b.1).map (·.2))

def addNew (known : Array Nat) (ids : List Nat) : Array Nat :=
  ids.foldl (fun acc id => if acc.contains id then acc else acc.push id) known

/-- Follows the links of the known declarations from the `i`-th on. -/
def surveyFrom (g : Graph) : Nat → Nat → Array Nat → Array Nat
  | 0, _, known => known
  | fuel + 1, i, known =>
    match known[i]? with
    | none => known
    | some id => surveyFrom g fuel (i + 1) (addNew known (g.links id))

/-- The declarations that can be reached from some values, breadth first. -/
def survey (g : Graph) (tops : List Value) : Array Nat :=
  surveyFrom g (g.entries.size + 1) 0 (addNew #[] (linksOfAll tops))

end Graph

/-- A declaration written out: its form, the fields it is made from, and fields set afterwards. -/
structure Spec where
  label : String
  args : List Value
  set : List (String × Value) := []

/-- The declaration that a specification describes. What a form computes cannot be set. -/
def Spec.entry (origin : Origin) (form : Form) (spec : Spec) : Except Fault Entry :=
  match Entry.make? origin form spec.args with
  | none => .error .wrongSort
  | some e =>
    if spec.set.any (fun (n, _) => form.computed.contains n) then .error .missingField
    else .ok (spec.set.foldl (fun e (n, v) => e.set n v) e)

/-- The graph of declarations that are written out. All forms have to be known before any
declaration is made. -/
def Graph.ofSpecs (origin : Origin) (specs : List Spec) : Except Fault Graph := do
  let forms ← specs.mapM fun spec =>
    match Form.ofLabel? origin spec.label with
    | some form => .ok (form, spec)
    | none => .error .missingField
  let entries ← forms.mapM fun (form, spec) => spec.entry origin form
  .ok { origin := origin, entries := entries.toArray }

end PxdGen.Decl
