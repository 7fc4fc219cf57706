import PxdGen.Decl.Flatten
import PxdGen.Decl.Listing
import PxdGen.Decl.Definition
import PxdGen.Dump.Reader
import PxdGen.Index.Reader
/-! # From headers to pxd files

A job reads a list of headers, all in the same way, and writes a pxd file for each of them. All
headers are read before the first file is written.
-/

namespace PxdGen.Job

open Decl Decl.Work

/-- What the reading program gives for a header. -/
inductive Material where
  /-- a dump, if one was written -/
  | document (text : Option String)
  /-- a compilation unit, if the header could be read -/
  | tree (tree : Option Index.Tree)

structure Header where
  path : String
  /-- the stem of the pxd file, if it is not that of the header -/
  stem : Value := .nothing
  material : Material

structure Config where
  headers : List Header
  includeDirs : Value := .list []
  language : Value := .text ""

/-- Settings under their names. Some names are those of what is given apart from the settings, and
are refused. -/
def settings (reserved : List String) : Value → Except Fault (List (String × Value))
  | .nothing => .ok []
  | .record fields =>
    if fields.any fun (name, _) => reserved.contains name then .error .wrongSort else .ok fields
  | _ => .error .wrongSort

def Header.make (directory : String) (path extra : Value) (material : Material) :
    Except Fault Header := do
  let given ← settings ["self", "path"] extra
  match path with
  | .text path =>
    .ok { path := Text.absolutePath directory path, material := material
          stem := (given.lookup "extern_name").getD .nothing }
  | _ => .error .wrongSort

/-- A job with its settings. -/
def Config.make (headers : List Header) (extra : Value) : Except Fault Config := do
  let given ← settings ["self", "frontend", "files", "save_dir"] extra
  .ok { headers := headers, includeDirs := (given.lookup "include_dirs").getD (.list [])
        language := (given.lookup "language").getD (.text "") }

/-- The declarations of a header, with what is needed to write them. -/
structure Container where
  items : Value
  header : String
  stem : Value

def includeOptions (v : Value) : Work (List String) := do
  (← items v).mapM fun dir =>
    match dir with
    | .text s => pure ("-I" ++ s)
    | _ => throw .wrongSort

def languageOption (v : Value) : Work String :=
  if v.isTrue then
    match v with
    | .text s => pure ("-x" ++ s)
    | _ => throw .wrongSort
  else pure ""

/-- The options of reading a unit: declarations may be incomplete, macros are kept, and bodies of
functions are passed over. -/
def unitOptions : Int := 2 + 1 + 64

/-! ### Dumps -/

def listMember (v : Value) : Work Unit := do
  let isBuiltin ← match ← field v "location" with
    | .nothing => pure false
    | location =>
      match ← fileOf location with
      | .text file => pure ((file.splitOn "gccxml_builtins").length > 1)
      | .list vs | .tuple vs => pure (vs.any (·.same (.text "gccxml_builtins")))
      | _ => throw .wrongSort
  if !isBuiltin then list v 0

def readDump (config : Config) (path : String) (document : Option String) : Work (List Value) := do
  let options ← includeOptions config.includeDirs
  call (.command (["gccxml"] ++ options ++ [path, "-fxml="]))
  startReading
  let found ← Dump.parse (document.getD "")
  say "file parsed"
  say "AST:"
  found.forM fun v => do
    if ← hasForm v .nameSpace then
      (← fieldItems v "members").forM listMember
  pure found

/-! ### Units -/

def openTree (file : String) (includeDirs language : Value)
    (unsaved : Option (List (String × String))) (tree : Option Index.Tree) : Work Index.Tree := do
  let options ← includeOptions includeDirs
  let language ← languageOption language
  call (.parse (some file) (options ++ [language]) unitOptions unsaved)
  match tree with
  | none => throw .notParsed
  | some tree => pure tree

def readTree (file : String) (includeDirs language : Value)
    (unsaved : Option (List (String × String))) (tree : Option Index.Tree) : Work Value := do
  Index.readUnit (← openTree file includeDirs language unsaved tree)

/-- The words on the right of a column. -/
def padLeft (width : Nat) (s : String) : String :=
  String.ofList (List.replicate (width - s.length) ' ') ++ s

/-- Reads a compilation unit and tells what has been found. -/
def tellTree (tree : Index.Tree) : Work (List Value) := do
  startReading
  let _ ← Index.readUnit tree
  say "all:"
  (← get).table.toList.forM fun (key, v) => do
    match key with
    | .named (.int n) => say (Text.hexOfInt n ++ " " ++ (← shown (← field v "name")))
    | _ => throw .wrongSort
  say ""
  let found ← result
  say "in clang_parser.py/parse(), items:"
  found.forM fun v => do
    let sort := (← get).graph.sortOf v
    say (padLeft 20 sort ++ ": " ++ (← shown (← field v "name")))
  pure found

def parseTree (file : String) (includeDirs language : Value)
    (unsaved : Option (List (String × String))) (tree : Option Index.Tree) :
    Work (List Value) := do
  tellTree (← openTree file includeDirs language unsaved tree)

def readUnit (config : Config) (path : String) (tree : Option Index.Tree) :
    Work (List Value) := do
  let found ← parseTree path config.includeDirs config.language none tree
  say "in __init__/generate_asts()"
  say "file parsed"
  say ("AST: " ++ (← shown (.list found)))
  found.forM fun v => do
    let sort := (← get).graph.sortOf v
    say (sort ++ " " ++ (← shown (← field v "name")))
  pure found

/-! ### Jobs -/

def readHeader (config : Config) (header : Header) : Work Container := do
  let name := Text.baseName header.path
  let stem := match header.stem with
    | .nothing => .text ("_" ++ Text.stemOf name)
    | stem => stem
  say ("Parsing " ++ header.path)
  let found ← match header.material with
    | .document text => readDump config header.path text
    | .tree tree => readUnit config header.path tree
  let ready ← prepare (.list found)
  pure ⟨ready, name, stem⟩

/-- Reads all headers, then hands the draft of each file on. -/
def run (config : Config) (emit : Draft → Work Unit) : Work Unit := do
  let containers ← config.headers.mapM (readHeader config)
  containers.forM fun c => do emit (← draft c.items (.text c.header) c.stem)

def keep (d : Draft) : Work Unit := do
  let code ← d.code
  modify fun s => { s with outputs := (d.filename, code) :: s.outputs }

/-- The path of a file in a directory, and how it is shown. Without a directory the file goes to the
current one, which is shown by its full path. -/
def savePath (directory : Value) (filename : String) : Work (String × String) := do
  match directory.isTrue, directory with
  | false, _ => do pure (filename, Text.joinPath (← get).disk.home filename)
  | true, .text d => pure (Text.joinPath d filename, Text.joinPath d filename)
  | true, _ => throw .wrongSort

/-- Renders a file and saves it in a directory. The text is refused when it is written, so that an
empty file is left. -/
def save (directory : Value) (d : Draft) : Work Unit := do
  let (path, shown) ← savePath directory d.filename
  say ("Rendering " ++ shown)
  let _ ← d.code
  match (← get).disk.write path "" with
  | .ok disk => do
    modify fun s => { s with disk := disk }
    throw .wrongSort
  | .error .malformed => throw .malformed
  | .error _ => throw (.noAccess shown)

def frontend? : String → Option Origin
  | "gccxml" => some .dump
  | "clang" => some .unit
  | _ => none

/-- Finds a reader of headers; it may turn out to be unusable for a reason. -/
def findFrontend (name : Value) (trouble : Option String) : Work Origin :=
  match name.asText?.bind frontend?, trouble with
  | none, _ => throw (if name.isKey then .noFrontend name.plain "" else .wrongSort)
  | some _, some reason => do
    say ("Import Error " ++ reason)
    throw (.noFrontend name.plain reason)
  | some origin, none => pure origin

def generate (frontend : Value) (config : Config) (directory : Value) : Work Unit := do
  let origin ← findFrontend frontend none
  modify fun s => { s with graph := { s.graph with origin := origin } }
  run config (save directory)

end PxdGen.Job
