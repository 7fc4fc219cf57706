import PxdGen.Index.Kind
import PxdGen.Value
/-! # Enumerations

The kinds of an enumeration can be asked for by their numbers, and new ones can be made. A kind that
is made has to have a number of its own. It has no name, so that it cannot be shown.
-/

namespace PxdGen.Index

structure Enumeration where
  kinds : KindTable
  /-- numbers of kinds of tokens that were registered -/
  registered : List Value := []

namespace Enumeration

inductive Answer where
  | kind (k : Kind)
  | number (n : Int)
  | nothing

def isOfTokens (e : Enumeration) : Bool := e.kinds.label == "TokenKind"

def number (v : Value) : Except Fault Int :=
  match v.asInt? with
  | some n => .ok n
  | none => .error .wrongSort

def find (e : Enumeration) (v : Value) : Except Fault Kind := do
  if e.isOfTokens then tokenKind (← number v) else e.kinds.find (← number v)

/-- Makes a kind; it cannot be shown. -/
def make (e : Enumeration) (v : Value) : Except Fault Answer × Enumeration :=
  let claimed : Except Fault KindTable := do e.kinds.add (← number v) ""
  match claimed with
  | .error fault => (.error fault, e)
  | .ok kinds => (.error (.missingKey none), { e with kinds := kinds })

def register (e : Enumeration) (v : Value) : Except Fault Answer × Enumeration :=
  if !v.isKey then (.error .wrongSort, e)
  else
    let isKnown := e.registered.any (·.same v) || match v.asInt? with
      | some n => (tokenKind n).isOk
      | none => false
    match isKnown, v.asInt? with
    | true, some n => (.error (.tokenKindTaken n), e)
    | true, none => (.error .wrongSort, e)
    | false, _ => (.ok .nothing, { e with registered := v :: e.registered })

def answer (e : Enumeration) (request : String) (v : Value) : Except Fault Answer × Enumeration :=
  match request, e.isOfTokens with
  | "from_id", false | "from_value", true => ((e.find v).map .kind, e)
  | "from_param", false => ((e.find v).map fun k => .number k.value, e)
  | "new", false => e.make v
  | "new", true => (.error .wrongSort, e)
  | "register", true => e.register v
  | _, _ => (.error .missingField, e)

end Enumeration

end PxdGen.Index
