import PxdGen.Decl.Graph
import PxdGen.Disk
import PxdGen.Pxd.Build
import PxdGen.Pxd.Statement
import PxdGen.Table
/-! # Sessions

A session is the state of work on declarations: the graph itself, what has been printed and warned
of, and what readers need to know while they read. Its table finds declarations by their keys, and
the declarations that are being filled form a stack.

Work stops at a fault, and what it did before stays done.
-/

namespace PxdGen.Decl

/-- What declarations are found by. -/
inductive Key where
  | named (v : Value)
  /-- the key of a declaration that was given none -/
  | serial (id : Nat)
deriving Repr

instance : BEq Key where
  beq
    | .named a, .named b => a.same b
    | .serial a, .serial b => a == b
    | _, _ => false

/-- What was asked of a program that reads source files. -/
inductive Call where
  | command (words : List String)
  /-- to parse a file, which may be named by the arguments only; some files are given by their
  contents -/
  | parse (file : Option String) (args : List String) (options : Int)
      (unsaved : Option (List (String × String)))
  | load (path : String)
deriving Repr

structure Session where
  graph : Graph := {}
  console : String := ""
  /-- the newest first -/
  warnings : List String := []
  /-- the declarations being filled, the innermost first -/
  context : List Value := []
  table : Table Key Value := {}
  /-- named sections of preprocessor text -/
  sections : Table Key Value := {}
  /-- the text of the section that is being read -/
  openText : Option (List Value) := none
  /-- the section that is being read -/
  openKey : Option Key := none
  /-- the revision of the program that wrote the dump -/
  revision : Option (List Int) := none
  /-- the newest first -/
  calls : List Call := []
  /-- finished files with their names, the newest first -/
  outputs : List (String × String) := []
  /-- the files and directories under the current directory -/
  disk : Disk := {}

abbrev Work := ExceptT Fault (StateM Session)

namespace Work

def origin : Work Origin := do pure (← get).graph.origin

def write (text : String) : Work Unit :=
  modify fun s => { s with console := s.console ++ text }

def say (line : String) : Work Unit := write (line ++ "\n")

def call (c : Call) : Work Unit := modify fun s => { s with calls := c :: s.calls }

/-- Forgets what has been read, but not the declarations themselves. -/
def startReading : Work Unit :=
  modify fun s =>
    { s with context := [], table := {}, sections := {}, openText := none, openKey := none,
             revision := none }

def warn (text : String) : Work Unit := modify fun s => { s with warnings := text :: s.warnings }

def shown (v : Value) : Work String := do
  let g := (← get).graph
  pure (v.display g.display)

def literal (v : Value) : Work String := do
  let g := (← get).graph
  pure (v.literal g.display)

def hasForm (v : Value) (form : Form) : Work Bool := do pure ((← get).graph.hasForm v form)

def isContainer (v : Value) : Work Bool := do pure ((← get).graph.isContainer v)

def field? (v : Value) (name : String) : Work (Option Value) := do
  pure ((← get).graph.field? v name)

def field (v : Value) (name : String) : Work Value := do
  match ← field? v name with
  | some w => pure w
  | none => throw .missingField

def setField (v : Value) (name : String) (w : Value) : Work Unit :=
  match v with
  | .link id => modify fun s => { s with graph := s.graph.setField id name w }
  | _ => throw .missingField

def make (form : Form) (args : List Value) : Work Value := do
  match Entry.make? (← origin) form args with
  | none => throw .wrongSort
  | some e =>
    let s ← get
    let id := s.graph.entries.size
    modify fun s => { s with graph := (s.graph.add e).2 }
    pure (.link id)

def items (v : Value) : Work (List Value) :=
  match v.items? with
  | some vs => pure vs
  | none => throw .wrongSort

def fieldItems (v : Value) (name : String) : Work (List Value) := do items (← field v name)

def append (v : Value) (name : String) (item : Value) : Work Unit := do
  match ← field v name with
  | .list vs => setField v name (.list (vs ++ [item]))
  | _ => throw .missingField

def keyOf (v : Value) : Work Key := if v.isKey then pure (.named v) else throw .wrongSort

def lookup (table : Table Key Value) (v : Value) : Work Value := do
  match table.get? (← keyOf v) with
  | some w => pure w
  | none => throw (.missingKey v.asText?)

/-- The declaration that has been read under a key. -/
def find (v : Value) : Work Value := do lookup (← get).table v

def register (key : Key) (v : Value) : Work Unit :=
  modify fun s => { s with table := s.table.insert key v }

def forget (v : Value) : Work Unit := do
  let _ ← find v
  modify fun s => { s with table := s.table.erase (.named v) }

def top : Work Value := do
  match (← get).context with
  | v :: _ => pure v
  | [] => throw .outOfRange

def push (v : Value) : Work Unit := modify fun s => { s with context := v :: s.context }

def pop : Work Value := do
  match (← get).context with
  | v :: rest =>
    modify fun s => { s with context := rest }
    pure v
  | [] => throw .outOfRange

def check {α : Type} : Except Fault α → Work α
  | .ok a => pure a
  | .error f => throw f

def build (kind : Pxd.Kind) (args : List Value) : Work Value := check (Pxd.build kind args)

def rendering {α : Type} (x : Pxd.Rendering α) : Work α := do
  let (r, sheet) := StateT.run (ExceptT.run x) {}
  write sheet.console
  check r

/-- As many steps as any chain of links can have that does not run in a circle. -/
def steps : Work Nat := do pure ((← get).graph.entries.size + 1)

end Work

end PxdGen.Decl
