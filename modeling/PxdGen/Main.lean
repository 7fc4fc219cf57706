import PxdGen.Job.Program
/-! # The command line

Takes the name of a header and of an output file, with directories that the header was searched in,
reads a dump of the header from standard input, and writes the pxd file.
-/

namespace PxdGen

/-- Prints what work has printed and warned of, and gives its result or the status to end with. -/
def report {α : Type} (x : Decl.Work α) : IO (Except UInt32 α) := do
  let (result, session) := StateT.run (ExceptT.run x) ({} : Decl.Session)
  IO.print session.console
  session.warnings.reverse.forM IO.eprintln
  match result with
  | .ok a => pure (.ok a)
  | .error (.exit status) => pure (.error status.toNat.toUInt32)
  | .error fault => do
    IO.eprintln (fault.message.getD "the header cannot be wrapped")
    pure (.error 1)

end PxdGen

def main (args : List String) : IO UInt32 := do
  match ← PxdGen.report (PxdGen.Job.readRequest args) with
  | .error status => pure status
  | .ok request => do
    let document ← (← IO.getStdin).readToEnd
    match ← PxdGen.report (PxdGen.Job.codeOfDump request document) with
    | .error status => pure status
    | .ok code => do
      IO.FS.writeFile request.output code
      pure 0
