import PxdGen.Text.Integer
/-! # Faults

A fault is the cause for which a piece of work stops. What it says to the user, if anything, is
given by `Fault.message`.
-/

namespace PxdGen

inductive Fault where
  /-- a check failed that words its own complaint -/
  | refused (complaint : String)
  /-- a check failed that has no words -/
  | unmet
  /-- a value of another sort was needed -/
  | wrongSort
  /-- something else than a module was to be rendered -/
  | notModule (sort : String)
  | missingField
  | undefinedName
  /-- a local quantity was used before it had a value -/
  | unsetName
  | outOfRange
  | missingKey (key : Option String)
  /-- a text does not have the form that its reader needs -/
  | malformed
  | malformedMarkup
  | unknownEncoding
  /-- an encoding that nothing can be read in -/
  | unusableEncoding
  /-- bytes that mean nothing in their encoding -/
  | undecodable
  /-- a chain of references that never ends was followed -/
  | endless
  /-- a number was too large to count with -/
  | tooLarge
  | noToplevel
  /-- a reader of headers that is not there, or cannot be used for a reason -/
  | noFrontend (name reason : String)
  | noAccess (path : String)
  | noFile
  | isDirectory
  | notDirectory
  /-- a file was to have a name that no file can have -/
  | nameTooLong
  | exit (status : Int)
  | unhandledOption
  | unknownCursorKind
  | unknownTypeKind (id : Int)
  | unknownTokenKind (id : Int)
  /-- a kind of this enumeration has the number already -/
  | kindTaken (enumeration : String)
  | tokenKindTaken (id : Int)
  | noElementType
  | noElements
  | noArgument
  | argumentBeyond (index length : Int)
  | negativeIndex
  | indexSort
  | tooFewLocations
  | contentsSort
  | notParsed
  | notLoaded (path : String)
  | notSaved (status : Int)
  | saveStatus (status : Int)
  | databaseError (status : Int)
  | databaseStatus (status : Int)
  | librarySymbol (name : String)
  | libraryFile (reason : String)
  | settingLate (what : String)
deriving DecidableEq, Repr

/-- The words of a fault that the program chose itself. -/
def Fault.message : Fault → Option String
  | .refused complaint => some complaint
  | .notModule sort =>
    some (".render(...) must be called with a Module node as argument. Got `" ++ sort ++
      "` instead.")
  | .missingKey key => key
  | .noToplevel => some "Toplevel namespace not found."
  | .noFrontend name reason => some ("Frontend `" ++ name ++ "` not found." ++ reason)
  | .noAccess path => some ("Could not gain write access to " ++ path)
  | .unhandledOption => some "unhandled option"
  | .unknownCursorKind => some "Unknown cursor kind"
  | .unknownTypeKind id => some ("Unknown type kind " ++ Text.ofInt id)
  | .unknownTokenKind id => some ("Unknown TokenKind: " ++ Text.ofInt id)
  | .kindTaken enumeration => some (enumeration ++ " already loaded")
  | .tokenKindTaken id => some ("TokenKind already registered: " ++ Text.ofInt id)
  | .noElementType => some "Element type not available on this type."
  | .noElements => some "Type does not have elements."
  | .noArgument => some "Argument could not be retrieved."
  | .argumentBeyond index length =>
    some ("Index greater than container length: " ++ Text.ofInt index ++ " > " ++ Text.ofInt length)
  | .negativeIndex => some "Only non-negative indexes are accepted."
  | .indexSort => some "Must supply a non-negative int."
  | .tooFewLocations => some "Must pass object with at least 2 elements"
  | .contentsSort => some "Unexpected unsaved file contents."
  | .notParsed => some "Error parsing translation unit."
  | .notLoaded path => if path.isEmpty then none else some path
  | .notSaved status => some ("Error " ++ Text.ofInt status ++ ": Error saving TranslationUnit.")
  | .saveStatus status =>
    some ("Encountered undefined TranslationUnit save error constant: " ++ Text.ofInt status ++
      ". Please file a bug to have this value supported.")
  | .databaseError status =>
    some ("Error " ++ Text.ofInt status ++ ": CompilationDatabase loading failed")
  | .databaseStatus status =>
    some ("Encountered undefined CompilationDatabase error constant: " ++ Text.ofInt status ++
      ". Please file a bug to have this value supported.")
  | .librarySymbol name =>
    some ("lib: undefined symbol: " ++ name ++
      ". Please ensure that your python bindings are compatible with your libclang.so version.")
  | .libraryFile reason =>
    some (reason ++ ". To provide a path to libclang use Config.set_library_path() or " ++
      "Config.set_library_file().")
  | .settingLate what =>
    some (what ++ " must be set before before using any other functionalities in libclang.")
  | _ => none

end PxdGen
