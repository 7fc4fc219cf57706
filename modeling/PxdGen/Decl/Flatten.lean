import PxdGen.Decl.Order
/-! # Toplevel declarations

A pxd file has no nested structs and unions. Flattening lifts each of them out of the container it
stands in: it gets a name that is composed of the names around it, a typedef for it is made, and the
fields that had it as their type now have the typedef.

What is ignored is dropped at the end, with everything that has no location.
-/

namespace PxdGen.Decl

open Work

/-- The members of the global namespace of a dump, or of the file of a unit. -/
def findToplevel (v : Value) : Work Value := do
  let s ← get
  let candidates ← items v
  match s.graph.origin with
  | .dump =>
    let isGlobal := fun item => s.graph.hasForm item .nameSpace &&
      (s.graph.field? item "name").any (·.same (.text "::"))
    match candidates.find? isGlobal with
    | none => throw .noToplevel
    | some ns =>
      match ← field ns "members" with
      | .nothing | .flag _ | .int _ | .float _ => throw .wrongSort
      | .record _ | .link _ | .node _ _ | .ofKind _ => throw .wrongSort
      | members => pure members
  | .unit =>
    match candidates.find? (s.graph.hasForm · .file) with
    | none => pure .nothing
    | some file => field file "members"

def outerName (container : Value) : Work Value := do
  let name ← field container "name"
  match ← origin with
  | .dump => pure name
  | .unit => if name.isTrue then pure name else field container "typedef_name"

structure Lifted where
  position : Nat
  container : Value
  typedef : Value

/-- Takes a lifted container out of the members, and gives the fields of its type the typedef. -/
def detach (container : Value) (lifted : Lifted) : Work Unit := do
  let members ← fieldItems container "members"
  setField container "members" (.list (members.eraseIdx lifted.position))
  if (← origin) == .unit then
    match members[lifted.position]? with
    | none => throw .outOfRange
    | some removed => say ("removed member " ++ (← shown (← field removed "name")))
  (← fieldItems container "members").forM fun member => do
    if ← hasForm member .field then
      if (← field member "typ").same lifted.container then setField member "typ" lifted.typedef

/-- The members that are containers, with their positions. -/
def nestedIn (container : Value) : Work (List (Nat × Value)) := do
  let g := (← get).graph
  let members ← fieldItems container "members"
  pure ((members.zipIdx.filter fun (m, _) => g.isContainer m).map fun (m, i) => (i, m))

/-- Lifts one nested container, where `inner` flattens it. -/
def lift (inner : Value → Work (List Value)) (outer context : Value) (position : Nat)
    (nested : Value) : Work (List Value × Lifted) := do
  let name := "__" ++ (← shown outer) ++ "_" ++ (← shown (← field nested "name"))
  setField nested "name" (.text name)
  setField nested "context" context
  let before ← inner nested
  let typedef ← make .typedef [.text (name ++ "_t"), nested, context]
  pure (before ++ [typedef], ⟨position, nested, typedef⟩)

/-- A container, behind all that has been lifted out of it. -/
def flattenContainer : Nat → Value → Work (List Value)
  | 0, _ => throw .endless
  | fuel + 1, container => do
    let context ← field container "context"
    let outer ← outerName container
    let lifted ← (← nestedIn container).mapM fun (i, nested) =>
      lift (flattenContainer fuel) outer context i nested
    (lifted.map (·.2)).reverse.forM (detach container)
    pure (lifted.flatMap (·.1) ++ [container])

/-- A declaration, behind what has been lifted out of it. The containers that a typedef of a unit
leads to are flattened too, but the typedef stands for the last of them. -/
def flattenOne : Nat → Value → Work (List Value)
  | 0, _ => throw .endless
  | fuel + 1, item => do
    if ← isContainer item then flattenContainer fuel item
    else if (← origin) == .unit && (← hasForm item .typedef) then
      let inner ← flattenOne fuel (← field item "typ")
      pure (inner.dropLast ++ [item])
    else pure [item]

def flatten (v : Value) : Work Value := do
  let fuel ← steps
  pure (.list (← (← items v).mapM (flattenOne (fuel + 1))).flatten)

def isKept (item : Value) : Work Bool := do
  if ← hasForm item .ignored then pure false
  else
    match ← field item "location" with
    | .nothing => pure false
    | _ => pure true

def dropIgnored (v : Value) (name : String) : Work Unit := do
  let g := (← get).graph
  setField v name (.list ((← fieldItems v name).filter fun item => !g.hasForm item .ignored))

/-- The field that holds the parts of a declaration. -/
def Form.parts? : Form → Option String
  | .struct | .union => some "members"
  | .enumeration => some "values"
  | .function | .functionType => some "arguments"
  | _ => none

/-- Drops what is ignored within a declaration. -/
def dropParts (item : Value) : Work Unit := do
  match ((← get).graph.form? item).bind Form.parts? with
  | some name => dropIgnored item name
  | none => pure ()

/-- Drops what is ignored or has no location, and what is ignored within the others. -/
def filterIgnored (v : Value) : Work Value := do
  let kept ← (← items v).filterM isKept
  kept.forM dropParts
  pure (.list kept)

/-- The toplevel declarations as they can be written to a pxd file. -/
def prepare (v : Value) : Work Value := do
  let toplevel ← findToplevel v
  match ← origin with
  | .dump => filterIgnored (← flatten (← sortByLocation toplevel))
  | .unit => flatten toplevel

end PxdGen.Decl
