import PxdGen.Index.Outline
import PxdGen.Job.Header
import PxdGen.Job.Option
/-! # Programs

The programs that can be run from a command line: one writes the pxd file of a header that is found
by its name, one only goes as far as that, one writes the pxd files of a list of headers, one lists
what is in a header, and one tells what the whole is called.
-/

namespace PxdGen.Job

open Decl Decl.Work

/-- A header to be wrapped, and where the pxd file goes. -/
structure Request where
  header : String
  output : String
  includeDirs : List String := []
deriving DecidableEq, Repr

def requestOptions : OptionTable :=
  ⟨[('i', true), ('h', false)], [("include", false), ("help", false)]⟩

def usage {α : Type} (status : Int) : Work α := do
  say "usage: run.py -i include-dir -i another-include-dir header-name output-file"
  say "example: run.py -i ~/mycode/inc libme/me.h me.pxd"
  throw (.exit status)

/-- The directories that options ask to search, each of which is told. -/
def searchDirs : List GivenOption → Work (List String)
  | [] => pure []
  | o :: rest =>
    if o.name == "-i" then do
      say ("include: " ++ o.argument)
      pure (o.argument :: (← searchDirs rest))
    else if o.name == "-h" || o.name == "--help" then usage 0
    else throw .unhandledOption

/-- What the words of a command line ask for. -/
def readRequest (args : List String) : Work Request :=
  match requestOptions.read args with
  | .error fault => do
    say fault.message
    usage 2
  | .ok (given, [header, output]) => do
    pure { header := header, output := output, includeDirs := ← searchDirs given }
  | .ok _ => usage 3

/-- Reads the header of a request, through a file that only includes it. -/
def readRequested (request : Request) (tree : Option Index.Tree) : Work Value := do
  let found ← parseTree "input.h" (.list (request.includeDirs.map .text)) (.text "")
    (some [("input.h", "#include <" ++ request.header ++ ">")]) tree
  prepare (.list found)

/-- The text of the pxd file for a request whose header has been dumped. -/
def codeOfDump (request : Request) (document : String) : Work String := do
  let config : Config := { headers := [], includeDirs := .list (request.includeDirs.map .text) }
  let ready ← prepare (.list (← readDump config request.header (some document)))
  (← draft ready (.text (Text.baseName request.header)) (.text request.output)).code

def writeFile (path text : String) : Work Unit := do
  match (← get).disk.write path text with
  | .ok disk => modify fun s => { s with disk := disk }
  | .error fault => throw fault

inductive Program where
  /-- writes the pxd file of one header -/
  | wrap
  /-- reads one header and stops before its file is written -/
  | attempt
  /-- writes the pxd files of many headers -/
  | wrapAll
  /-- lists the contents of a header -/
  | outline
  /-- tells of the whole -/
  | about
deriving DecidableEq, Repr

/-- The directory for the pxd files of many headers. -/
def resultDirectory : String := "tests/result_clang"

/-- Directories that are searched when the contents of a header are listed. -/
def outlineOptions : List String := ["-I/usr/include/c++/4.2.1", "-I/usr/include/c++/4.2.1/tr1"]

def listInclusions (tree : Index.Tree) : Work Unit :=
  tree.otherInclusions.forM fun i =>
    say (Text.copies "\t" i.depth.toNat ++ " " ++ (Index.nameValue i.file).plain)

def runOutline (args : List String) (tree : Option Index.Tree) : Work Unit := do
  match args with
  | [] => throw .outOfRange
  | file :: _ => do
    call (.parse (some file) outlineOptions unitOptions none)
    match tree with
    | none => throw .notParsed
    | some tree => do
      say ("Translation unit: '" ++ tree.file ++ "'")
      say "Includes: "
      listInclusions tree
      say "---"
      say "Diagnostics:"
      tree.diagnostics.toList.forM Index.outlineDiagnostic
      say "---"
      say "AST:"
      Index.outline tree .ownFiles

/-- What is told of the whole for an option. -/
def aboutLine? : String → Option String
  | "--name" => some "CWrap"
  | "--version" | "-V" => some "0.0"
  | "--fullname" => some "CWrap-0.0"
  | "--description" => some "Automatical generate Cython wrappers from C header files"
  | _ => none

/-- Runs a program that is called `name` in a directory. The units answer the requests to read a
header in turn. -/
def Program.run (program : Program) (name directory : String) (args : List String)
    (units : List (Option Index.Tree)) : Work Unit := do
  modify fun s =>
    { s with graph := { s.graph with origin := .unit }, disk := { s.disk with home := directory } }
  let unit := (units.head?).bind id
  match program with
  | .wrap => do
    let request ← readRequest args
    let items ← readRequested request unit
    let file ← draft items (.text request.header) (.text request.output)
    writeFile request.output (← file.code)
  | .attempt => do
    let request ← readRequest args
    let _ ← readRequested request unit
    throw .missingField
  | .wrapAll => do
    say (Value.list ((name :: args).map .text)).plain
    say "------------------------"
    say ""
    let paths := if args.isEmpty then ["test.h"] else args
    let headers := paths.zipIdx.map fun (path, i) =>
      { path := Text.absolutePath directory path, material := .tree ((units[i]?).bind id) : Header }
    generate (.text "clang") { headers := headers } (.text resultDirectory)
  | .outline => runOutline args unit
  | .about => args.forM fun arg => (aboutLine? arg).forM say

end PxdGen.Job
