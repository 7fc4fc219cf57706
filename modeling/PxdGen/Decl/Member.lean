import PxdGen.Decl.Session
/-! # What can be asked of a declaration

Beside its fields a declaration has a few properties that follow from them, and operations that fill
it. Which ones it has depends on its form and on its origin.
-/

namespace PxdGen.Decl

open Work

/-- Nothing is known of what a container or an enumeration holds. -/
def opaqueness (form : Form) (v : Value) : Option (Work Value) :=
  let counts (name : String) (n : Nat) : Work Value := do
    match (← field v name).length? with
    | some count => pure (.flag (count == n))
    | none => throw .wrongSort
  match form with
  | .struct | .union => some (counts "members" 0)
  | .enumeration => some (counts "values" 1)
  | _ => none

/-- Where an operation adds, and whether it passes over nothing. -/
structure Slot where
  name : String
  skips : Bool

/-- The list that an operation of the given name adds to. -/
def slot? (origin : Origin) (form : Form) (operation : String) : Option Slot :=
  match operation with
  | "add_argument" => argument form
  | "add_value" => value form
  | "add_member" => if origin == .unit then member form else none
  | "add_child" =>
    if origin == .unit then (argument form).or ((value form).or (member form)) else none
  | _ => none
where
  argument : Form → Option Slot
    | .ignored | .function | .operatorFunction => some ⟨"arguments", origin == .unit⟩
    | .functionType => some ⟨"arguments", false⟩
    | _ => none
  value : Form → Option Slot
    | .enumeration => some ⟨"values", false⟩
    | _ => none
  member : Form → Option Slot
    | .struct | .union | .file | .nameSpace | .cppClass | .classTemplate => some ⟨"members", true⟩
    | _ => none

def addTo (slot : Slot) (v item : Value) : Work Unit := do
  match item, slot.skips with
  | .nothing, true => pure ()
  | _, _ => append v slot.name item

def add (operation : String) (v item : Value) : Work Unit := do
  let s ← get
  match (s.graph.form? v).bind (slot? s.graph.origin · operation) with
  | some slot => addTo slot v item
  | none => throw .missingField

def takesArguments : Form → Bool
  | .ignored | .function | .functionType | .operatorFunction => true
  | _ => false

/-- Replaces the types of the arguments, which are keys, by what is found under them. -/
def resolveArguments (find : Value → Work Value) (v : Value) : Work Unit := do
  match (← get).graph.form? v with
  | some form =>
    if takesArguments form then
      (← fieldItems v "arguments").forM fun arg => do
        setField arg "typ" (← find (← field arg "typ"))
    else throw .missingField
  | none => throw .missingField

def itemAt (items : List Value) (index : Int) : Work Value :=
  let i := if index < 0 then index + items.length else index
  match if i < 0 then none else items[i.toNat]? with
  | some v => pure v
  | none => throw .outOfRange

def lookupIn (v key : Value) : Work Value := do
  match v, key.asInt? with
  | .record fields, _ => lookup (Table.ofList (fields.map fun (n, w) => (.named (.text n), w))) key
  | .nothing, _ | .flag _, _ | .int _, _ | .float _, _ | .link _, _ | .node _ _, _ | .ofKind _, _ =>
    throw .wrongSort
  | _, some i => do itemAt (← items v) i
  | _, none => throw .wrongSort

/-- Classes that can be templates; all of one form share their parameters. -/
def isTemplate : Form → Bool
  | .cppClass | .classTemplate => true
  | _ => false

def templateParams (v : Value) : Work Value := do
  let g := (← get).graph
  match g.form? v with
  | some .cppClass => pure (.list g.classParams)
  | some .classTemplate => pure (.list g.templateParams)
  | _ => throw .missingField

def addTemplateParam (v param : Value) : Work Unit := do
  if (← field? v "template_params").isSome then append v "template_params" param
  else
    match (← get).graph.form? v with
    | some .cppClass =>
      modify fun s =>
        { s with graph := { s.graph with classParams := s.graph.classParams ++ [param] } }
    | some .classTemplate =>
      modify fun s =>
        { s with graph := { s.graph with templateParams := s.graph.templateParams ++ [param] } }
    | _ => throw .missingField

def operation? (origin : Origin) (form : Form) (name : String) : Option (Form × String) :=
  let owner := if form == .classTemplate then Form.cppClass else form
  match name with
  | "__init__" => some (.anyDecl, name)
  | "init" => some (owner, name)
  | "fixup_argtypes" => if takesArguments form then some (owner, name) else none
  | "add_template_parameter" => if isTemplate form then some (form, name) else none
  | _ =>
    (slot? origin form name).map fun slot =>
      (owner, match slot.name with
        | "arguments" => "add_argument"
        | "values" => "add_value"
        | _ => "add_member")

/-- A field or a property. An operation is only described. -/
def property (v : Value) (name : String) : Work Value := do
  match ← field? v name with
  | some w => pure w
  | none =>
    match (← get).graph.form? v, name with
    | some form, "opaque" => (opaqueness form v).getD (throw .missingField)
    | some .pointerType, "refs" => do pure (.list [← field v "typ"])
    | some _, "template_params" => templateParams v
    | some form, _ => do
      let origin ← origin
      if name == "render_hints" && origin == .dump then pure (.record [])
      else
        match operation? origin form name with
        | some (owner, known) => do
          pure (.text ("<bound method " ++ owner.label ++ "." ++ known ++ " of " ++
            (← shown v) ++ ">"))
        | none => throw .missingField
    | none, _ => throw .missingField

def refill (v : Value) (args : List Value) : Work Unit := do
  match v with
  | .link id =>
    let s ← get
    match (s.graph.get? id).bind fun e => e.fill? s.graph.origin args with
    | some e =>
      modify fun s =>
        { s with graph := { s.graph with entries := s.graph.entries.modify id fun _ => e } }
    | none => throw .wrongSort
  | _ => throw .missingField

def perform (v : Value) (name : String) (args : List Value) : Work Unit := do
  match (← get).graph.form? v with
  | none => throw .missingField
  | some form =>
    if (← field? v name).isSome then throw .wrongSort
    else
      match (operation? (← origin) form name).map (·.2), args with
      | some "__init__", _ => do
        setField v "location" .nothing
        setField v "name" (.text "")
        if (← field? v "init").isSome then throw .wrongSort else refill v args
      | some "init", _ => refill v args
      | some "fixup_argtypes", [types] => resolveArguments (lookupIn types) v
      | some "add_template_parameter", [param] => addTemplateParam v param
      | some _, [item] =>
        match slot? (← origin) form name with
        | some slot => addTo slot v item
        | none => throw .wrongSort
      | some _, _ => throw .wrongSort
      | none, _ => do
        let _ ← property v name
        throw .wrongSort

end PxdGen.Decl
