import PxdGen.Decl.Resolve
import PxdGen.Text.Blank
import PxdGen.Text.Lines
/-! # The declarations that have been read

When everything has been read, macros and synonyms are taken from the preprocessor sections, keys
are resolved, and the interesting declarations are collected in the order of the table.
-/

namespace PxdGen.Decl

open Work

/-- The lines of a text that may be given in pieces. -/
def linesOf (v : Value) : Work (List String) := do
  let pieces ← (← items v).mapM fun piece =>
    match piece with
    | .text s => pure s
    | _ => throw .wrongSort
  pure (Text.lines (String.join pieces))

/-- Reads macros: a name, arguments in parentheses and a body on each line. -/
def readMacros (v : Value) : Work Unit := do
  match v with
  | .nothing => pure ()
  | v => (← linesOf v).forM fun line => do
    match Text.firstWord? line with
    | none => throw .malformed
    | some (head, body) =>
      match Text.cutAt? '(' head with
      | none => throw .malformed
      | some (name, args) =>
        let m ← make .macroDef [.text name, .text ("(" ++ args), .text body]
        register (.named (.text name)) m

def namedIn (names : Value) (name : String) : Work (Option Value) :=
  match names with
  | .record fields => pure (fields.lookup name)
  | .list vs | .tuple vs => if vs.any (·.same (.text name)) then throw .wrongSort else pure none
  | .text s => if Text.contains s name then throw .wrongSort else pure none
  | _ => throw .wrongSort

/-- Gives a synonym the declaration that it stands for, if it is known. -/
def linkSynonym (names : String → Work (Option Value)) (aliases : Table Key Value)
    (synonym : Value) : Work Unit := do
  match ← field synonym "value" with
  | .text value =>
    match ← names value with
    | some target => setField synonym "typ" target
    | none =>
      match aliases.get? (.named (.text value)) with
      | some target => setField synonym "typ" target
      | none => pure ()
  | _ => pure ()

/-- Reads synonyms, a name and a value on each line. A value is a declaration or another synonym. -/
def readSynonyms (v : Value) (names : String → Work (Option Value)) : Work Unit := do
  match v with
  | .nothing => pure ()
  | v => do
    let aliases ← (← linesOf v).foldlM (fun (aliases : Table Key Value) line => do
      match Text.firstWord? line with
      | none => throw .malformed
      | some (name, value) =>
        let synonym ← make .synonym [.text name, .text value]
        register (.named (.text name)) synonym
        pure (aliases.insert (.named (.text name)) synonym)) {}
    aliases.values.forM (linkSynonym names aliases)

def sectionText (name : String) : Work Value := do
  pure (((← get).sections.get? (.named (.text name))).getD .nothing)

/-- Whether a revision is older than 1.114. -/
def isOld : List Int → Bool
  | [] => true
  | n :: rest =>
    n < 1 || (n == 1 && match rest with
      | [] => true
      | m :: _ => m < 114)

def checkRevision : Work Unit := do
  match (← get).revision with
  | none => warn "Could not determine CVS revision of GCCXML"
  | some revision =>
    if isOld revision then
      match revision with
      | [major, minor] =>
        warn ("CVS Revision of GCCXML is " ++ Text.ofInt major ++ "." ++ Text.ofInt minor)
      | _ => throw .wrongSort

/-- Replaces a location that is written as a key and a line by a file name and a line. -/
def resolveLocation (v : Value) : Work Unit := do
  match ← field? v "location" with
  | none | some .nothing => pure ()
  | some (.text location) =>
    match Text.pieces ':' location with
    | [file, line] => do
      let name ← field (← find (.text file)) "name"
      match Text.integer? line with
      | some n => setField v "location" (.tuple [name, .int n])
      | none => throw .malformed
    | _ => throw .malformed
  | some _ => throw .missingField

def resolveEntry (v : Value) : Work (List Value) := do
  resolveLocation v
  match ((← get).graph.form? v).bind (keyPlaces? (← origin)) with
  | some places => do
    resolve v places
    pure []
  | none => pure [v]

def resolveAll : Work Unit := do
  let unresolved ← (← get).table.values.mapM resolveEntry
  unresolved.flatten.forM forget

def namesOf (vs : List Value) : Work (Table Key Value) :=
  vs.foldlM (fun (names : Table Key Value) v => do
    match ← field? v "name" with
    | none | some .nothing => pure names
    | some name => if name.isKey then pure (names.insert (.named name) v) else throw .wrongSort) {}

def result : Work (List Value) := do
  let dumped := (← origin) == .dump
  if dumped then checkRevision
  readMacros (← sectionText "functions")
  if dumped then resolveAll
  let s ← get
  let interesting := s.table.values.filter fun v =>
    (s.graph.form? v).any (·.isInteresting s.graph.origin)
  let names ← namesOf interesting
  readSynonyms (← sectionText "aliases") fun name => pure (names.get? (.named (.text name)))
  pure interesting

end PxdGen.Decl
