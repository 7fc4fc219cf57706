import PxdGen.Decl.Session
/-! # Listing declarations

A declaration is listed with its name, its context and its bases, and its members are listed under
it, one level further in.
-/

namespace PxdGen.Decl

open Work

def listOne (v : Value) (level : Int) : Work Unit := do
  let margin := Text.copies "   " level
  let sort := (← get).graph.sortOf v
  let name := (← field? v "name").getD (.text "")
  say (margin ++ " " ++ sort ++ " " ++ (← literal name))
  let context := (← field? v "context").getD .nothing
  let contextName := (← field? context "name").getD (.text "no context")
  say (margin ++ " context: " ++ (← shown contextName))
  say (margin ++ " bases " ++ (← shown ((← field? v "bases").getD .nothing)))
  say ""

def listItem : Nat → Value → Int → Work Unit
  | 0, _, _ => throw .endless
  | fuel + 1, v, level => do
    if v.isTrue then
      listOne v level
      match ← field? v "members" with
      | none => pure ()
      | some members => (← items members).forM fun m => listItem fuel m (level + 1)

def list (v : Value) (level : Int) : Work Unit := do listItem ((← steps) + 1) v level

def listAt (v level : Value) : Work Unit :=
  match v.isTrue, level.asInt? with
  | false, _ => pure ()
  | true, some n => list v n
  | true, none => throw .wrongSort

end PxdGen.Decl
