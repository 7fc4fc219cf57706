import PxdGen.Decl.Session
/-! # The order of locations

A declaration is located by a file and a line. Declarations are put in the order of their
locations, and those with equal locations stay as they are. Values of different sorts have no
order, and nothing has no order even with itself.
-/

namespace PxdGen.Decl

open Work

mutual

/-- Whether the first value comes before the second; `none` if they cannot be ordered. -/
def before? : Value → Value → Option Bool
  | .text a, .text b => some (a < b)
  | .list a, .list b | .tuple a, .tuple b => beforeAll? a b
  | a, b =>
    match a.asInt?, b.asInt? with
    | some m, some n => some (m < n)
    | _, _ => none

/-- The first items that differ decide. -/
def beforeAll? : List Value → List Value → Option Bool
  | [], [] => some false
  | [], _ :: _ => some true
  | _ :: _, [] => some false
  | a :: as, b :: bs => if a.same b then beforeAll? as bs else before? a b

end

def allOrdered : List Value → Bool
  | [] => true
  | v :: rest => rest.all (fun w => (before? v w).isSome) && allOrdered rest

def sortByLocation (v : Value) : Work Value := do
  let placed ← (← items v).mapM fun item => do pure (← field item "location", item)
  if allOrdered (placed.map (·.1)) then
    let sorted := placed.mergeSort fun a b => !(before? b.1 a.1).getD false
    pure (.list (sorted.map (·.2)))
  else throw .wrongSort

end PxdGen.Decl
