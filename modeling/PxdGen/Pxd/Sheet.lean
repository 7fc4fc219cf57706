import PxdGen.Pxd.Page
/-! # The state of rendering

While a module is rendered there is a page, once it has been started, and a stack of pending words
such as `cdef` that the next declaration puts in front of itself. What cannot be rendered is
mentioned on the console. All of this stays as it is when rendering stops at a fault.
-/

namespace PxdGen.Pxd

structure Sheet where
  console : String := ""
  page : Option Page := none
  /-- the newest first -/
  pending : List Value := []

abbrev Rendering := ExceptT Fault (StateM Sheet)

/-- What stands for a node that cannot be rendered. -/
def placeholder : String := "__UNDEFINED__"

namespace Rendering

def say (line : String) : Rendering Unit :=
  modify fun s => { s with console := s.console ++ line ++ "\n" }

def onPage (f : Page → Page) : Rendering Unit := do
  match (← get).page with
  | none => throw .missingField
  | some p => modify fun s => { s with page := some (f p) }

def indent : Rendering Unit := onPage (·.indent 1)

def dedent : Rendering Unit := onPage (·.dedent 1)

def newline : Rendering Unit := onPage (·.newline 1)

def put (s : String) : Rendering Unit := do
  match (← get).page.bind (·.marginFault?) with
  | some f => throw f
  | none => onPage (·.writeLines s)

def line (s : String) : Rendering Unit := do put s; newline

/-- As `line`, for a text that is put together only if there is a page. -/
def lineOf (text : Rendering String) : Rendering Unit := do
  onPage id
  line (← text)

def pushPending (v : Value) : Rendering Unit :=
  modify fun s => { s with pending := v :: s.pending }

/-- Takes the newest pending words, if there are any. -/
def popPending : Rendering (Option Value) := do
  match (← get).pending with
  | [] => pure none
  | v :: rest =>
    modify fun s => { s with pending := rest }
    pure (some v)

/-- The pending words that are not empty, with a space behind them. -/
def popLead : Rendering String := do
  match ← popPending with
  | some v => pure (if v.isTrue then v.plain ++ " " else "")
  | none => pure ""

def need (v : Value) (name : String) : Rendering (Value.Part v) :=
  match v.field? name with
  | some p => pure p
  | none => throw .missingField

def items {v : Value} (p : Value.Part v) : Rendering (List (Value.Part v)) :=
  match p.items? with
  | some ps => pure ps
  | none => throw .wrongSort

def textOf (v : Value) : Rendering String :=
  match v with
  | .text s => pure s
  | _ => throw .wrongSort

def joined (separator : String) (vs : List Value) : Rendering String := do
  pure (separator.intercalate (← vs.mapM textOf))

end Rendering

end PxdGen.Pxd
