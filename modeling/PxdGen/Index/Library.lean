import PxdGen.Index.Function
/-! # Loading the indexing library

Before the library is used its functions are looked up one by one, and what is known of each is set
on it. A library of another version may lack some of them; whether that matters is a setting. The
settings can be changed until the library has been loaded.
-/

namespace PxdGen.Index

/-- A function that has been looked up, with what was set on it. -/
structure Lookup where
  name : String
  /-- the names of what was set -/
  settings : List String := []
  arguments : Value := .list []
  result : Value := .nothing
  check : Value := .nothing
deriving Repr

/-- Looks up a function. The item has its name, and then what is to be set on it: its arguments, its
result, and, if there is nothing more, its check. -/
def lookUp (missing : List String) (isLenient : Bool) (item : Value) :
    Except Fault (Option Lookup) :=
  match item, item.items? with
  | .record _, _ => .error (.missingKey none)
  | _, some [] => .error .outOfRange
  | _, some (.text name :: rest) =>
    if missing.contains name then
      if isLenient then .ok none else .error (.librarySymbol name)
    else
      let found : Lookup := { name := name }
      .ok (some (match rest with
        | [] => found
        | [arguments] => { found with settings := ["argtypes"], arguments := arguments }
        | [arguments, result, check] =>
          { found with settings := ["argtypes", "errcheck", "restype"], arguments := arguments,
                       result := result, check := check }
        | arguments :: result :: _ =>
          { found with settings := ["argtypes", "restype"], arguments := arguments,
                       result := result }))
  | _, _ => .error .wrongSort

/-- Looks up functions in turn until one is not there. Those found before it stay found. -/
def lookUpAll (missing : List String) (isLenient : Bool) :
    List Value → List Lookup × Except Fault Unit
  | [] => ([], .ok ())
  | item :: rest =>
    match lookUp missing isLenient item with
    | .error fault => ([], .error fault)
    | .ok found =>
      let (others, outcome) := lookUpAll missing isLenient rest
      (found.toList ++ others, outcome)

/-- What was set on a function in words; nothing stays nothing. -/
def Lookup.word : Value → Value
  | .nothing => .nothing
  | v => .text v.plain

def lookUpFunctions (missing : List String) (isLenient : Bool) : List Lookup × Except Fault Unit :=
  lookUpAll missing isLenient (functions.map (·.item))

structure Settings where
  libraryPath : Value := .nothing
  libraryFile : Value := .nothing
  isChecked : Value := .flag true
  isLoaded : Value := .flag false
deriving Repr

/-- What comes of loading a library: a refusal in the words of the loader, or a library that lacks
some functions. -/
inductive Loader where
  | refuses (reason : String)
  | opens (missing : List String)
deriving Repr

/-- Whether a library that was opened has a function. -/
def Loader.has (loader : Loader) (name : Value) : Except Fault Value :=
  match loader, name with
  | .opens missing, .text name => .ok (.flag !(missing.contains name))
  | _, _ => .error .wrongSort

/-- A change of the settings, or a question that depends on them. -/
inductive Step where
  | setPath (v : Value)
  | setFile (v : Value)
  | setChecked (v : Value)
  | setLoaded (v : Value)
  | fileName
  /-- loads the library and counts its functions -/
  | load (loader : Loader)
  /-- loads the library and asks it for a function -/
  | hasFunction (loader : Loader) (name : Value)

structure StepResult where
  answer : Except Fault Value
  opened : List Value := []

namespace Settings

/-- The file of the library: as it is set, or one of the usual name in the path that is set. -/
def fileName (s : Settings) : Except Fault Value :=
  if s.libraryFile.isTrue then .ok s.libraryFile
  else if s.libraryPath.isTrue then
    match s.libraryPath with
    | .text path => .ok (.text (path ++ "/libclang.so"))
    | _ => .error .wrongSort
  else .ok (.text "libclang.so")

/-- A setting that can be changed until the library is loaded. -/
def change (s t : Settings) (what : String) : StepResult × Settings :=
  if s.isLoaded.isTrue then (⟨.error (.settingLate what), []⟩, s) else (⟨.ok .nothing, []⟩, t)

/-- Loads the library, and gives the files that were opened with the functions that were found. -/
def load (s : Settings) (loader : Loader) : List Value × Except Fault (List Lookup) × Settings :=
  match s.fileName with
  | .error fault => ([], .error fault, s)
  | .ok file =>
    match loader with
    | .refuses reason => ([file], .error (.libraryFile reason), s)
    | .opens missing =>
      match lookUpFunctions missing !s.isChecked.isTrue with
      | (_, .error fault) => ([file], .error fault, s)
      | (found, .ok ()) => ([file], .ok found, { s with isLoaded := .flag true })

def run (s : Settings) : Step → StepResult × Settings
  | .setPath v => s.change { s with libraryPath := v } "library path"
  | .setFile v => s.change { s with libraryFile := v } "library file"
  | .setChecked v => s.change { s with isChecked := v } "compatibility_check"
  | .setLoaded v => (⟨.ok .nothing, []⟩, { s with isLoaded := v })
  | .fileName => (⟨s.fileName, []⟩, s)
  | .load loader =>
    let (opened, found, s) := s.load loader
    (⟨found.map fun fs => .list [.flag true, .int fs.length], opened⟩, s)
  | .hasFunction loader name =>
    let (opened, found, s) := s.load loader
    (⟨found.bind fun _ => loader.has name, opened⟩, s)

end Settings

end PxdGen.Index
