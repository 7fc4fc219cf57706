import PxdGen.Index.Tree
import PxdGen.Text.Quoted
/-! # Summaries

Positions, ranges, fix-its and diagnostics in one line each, as they are shown to a user.
-/

namespace PxdGen.Index

def quotedName : Option String → String
  | some name => Text.quoted name
  | none => "None"

def Location.summary (l : Location) : String :=
  "<SourceLocation file " ++ quotedName l.file ++ ", line " ++ Text.ofInt l.line.toNat ++
    ", column " ++ Text.ofInt l.column.toNat ++ ">"

def Range.summary (r : Range) : String :=
  "<SourceRange start " ++ r.start.summary ++ ", end " ++ r.stop.summary ++ ">"

namespace FixItData

def summary (f : FixItData) : String :=
  "<FixIt range " ++ f.range.summary ++ ", value " ++ Text.quoted f.text ++ ">"

def brief (f : FixItData) : String :=
  let place (l : Location) : String := Text.ofInt l.line.toNat ++ ":" ++ Text.ofInt l.column.toNat
  place f.range.start ++ "-" ++ place f.range.stop ++ " " ++ f.text

end FixItData

namespace DiagnosticData

def offered (d : DiagnosticData) : List FixItData := d.fixIts.takeWhile fun f => !f.text.isEmpty

def summary (d : DiagnosticData) : String :=
  "<Diagnostic severity " ++ Text.ofInt d.severity ++ ", location " ++ d.location.summary ++
    ", spelling " ++ Text.quoted d.spelling ++ ">"

end DiagnosticData

end PxdGen.Index
