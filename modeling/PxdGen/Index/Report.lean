import PxdGen.Value
/-! # Reports of failure

What is reported when a unit cannot be loaded or saved, when a database of compile commands cannot
be read, or when the library itself cannot be used. Some reports have a status, which is refused if
it is none of those that can occur.
-/

namespace PxdGen.Index

inductive ReportSort where
  | loading
  | saving
  | database
  | library
deriving DecidableEq, Repr

/-- A report as it is shown, with its status. -/
structure Report where
  text : String
  status : Value := .nothing
deriving Repr

/-- Whether a status can occur in reports of a sort. -/
def ReportSort.takes : ReportSort → Int → Bool
  | .saving, n => 1 ≤ n && n ≤ 3
  | .database, n => n ≤ 1
  | _, _ => true

/-- A report with a status, which has to be an integer that can occur. -/
def statusReport (sort : ReportSort) (refusal : Int → Fault) (status message : Value) :
    Except Fault Report :=
  match status.asInt? with
  | none => .error .unmet
  | some n =>
    if sort.takes n then .ok ⟨"Error " ++ Text.ofInt n ++ ": " ++ message.plain, status⟩
    else .error (refusal n)

/-- Makes a report from what is known of the failure. -/
def report (sort : ReportSort) (args : List Value) : Except Fault Report :=
  match sort, args with
  | .loading, [] => .ok ⟨"", .nothing⟩
  | .loading, [v] => .ok ⟨v.plain, .nothing⟩
  | .loading, vs => .ok ⟨(Value.tuple vs).plain, .nothing⟩
  | .saving, [status, message] => statusReport .saving .saveStatus status message
  | .database, [status, message] => statusReport .database .databaseStatus status message
  | .library, [.text message] => .ok ⟨message, .nothing⟩
  | _, _ => .error .wrongSort

end PxdGen.Index
