import PxdGen.Index.Summary
import PxdGen.Table
/-! # What objects are taken from

Objects come from a compilation unit and from the commands that compile files, and each of their
parts is asked for by a function of the library. A library may lack some functions, and then what
goes through one of them is missing.
-/

namespace PxdGen.Index

/-- A command that compiles a file. -/
structure CommandData where
  directory : String := ""
  args : List String := []
deriving Repr

inductive Database where
  /-- it cannot be read -/
  | unreadable (status : Int)
  | files (commands : Table String (List CommandData))
deriving Repr

/-- What objects are taken from. -/
structure Holdings where
  tree : Tree
  database : Database := .files {}
  /-- functions that the library does not have -/
  missing : List String := []
  commentKinds : KindTable := Index.commentKinds
  tokenKinds : KindTable := Index.tokenKinds

def entry {α : Type} (items : List α) (index : Int) : Except Fault α :=
  let place := if index < 0 then index + items.length else index
  if place < 0 then .error .outOfRange
  else
    match items[place.toNat]? with
    | some a => .ok a
    | none => .error .outOfRange

def Tree.diagnosticAt (tree : Tree) (number : Int) : Except Fault DiagnosticData :=
  entry tree.diagnostics.toList number

/-! ### Completions -/

def chunkKindNames : List String := ["Optional", "TypedText", "Text", "Placeholder", "Informative",
  "CurrentParameter", "LeftParen", "RightParen", "LeftBracket", "RightBracket", "LeftBrace",
  "RightBrace", "LeftAngle", "RightAngle", "Comma", "ResultType", "Colon", "SemiColon", "Equal",
  "HorizontalSpace", "VerticalSpace"]

def availabilityNames : List String := ["Available", "Deprecated", "NotAvailable", "NotAccessible"]

def nameAt (names : List String) (n : Int) : Except Fault String :=
  if n < 0 then .error (.missingKey none)
  else
    match names[n.toNat]? with
    | some name => .ok name
    | none => .error (.missingKey none)

namespace Holdings

variable (h : Holdings)

/-! ### Kinds -/

def kindTable? : String → Option KindTable
  | "CursorKind" => some h.tree.cursorKinds
  | "TypeKind" => some h.tree.typeKinds
  | "CommentKind" => some h.commentKinds
  | "TokenKind" => some h.tokenKinds
  | _ => none

def withKinds (table : KindTable) : Holdings :=
  match table.label with
  | "CursorKind" => { h with tree := { h.tree with cursorKinds := table } }
  | "TypeKind" => { h with tree := { h.tree with typeKinds := table } }
  | "CommentKind" => { h with commentKinds := table }
  | _ => { h with tokenKinds := table }

/-! ### Functions of the library -/

def has (function : String) : Bool := !h.missing.contains function

/-- Goes through a function of the library. -/
def need (function : String) : Except Fault Unit :=
  if h.has function then .ok () else .error .missingField

/-- The fault of what goes through some functions, if one of them is not there. -/
def lacking (functions : List String) : Option Fault :=
  if functions.all h.has then none else some .missingField

def call {α : Type} (function : String) (answer : Except Fault α) : Except Fault α := do
  h.need function
  answer

def callText {α : Type} (function : String) (answer : Except Fault α) : Except Fault α := do
  let a ← h.call function answer
  h.need "clang_getCString"
  .ok a

def knowsNull : Bool := h.has "clang_getNullCursor" && h.has "clang_equalCursors"

/-- Goes on if cursors can be compared with the null cursor. -/
def checkNull {α : Type} (answer : Except Fault α) : Except Fault α :=
  if h.knowsNull then answer else .error .missingField

/-- As `call`, for a function that answers with a cursor, where `attach` makes an object of one that
is not null. -/
def callCursor {α β : Type} (function : String) (answer : Option α) (null : β)
    (attach : α → Except Fault β) : Except Fault β := do
  h.need function
  h.checkNull (match answer with
    | some c => attach c
    | none => .ok null)

/-! ### Places in words -/

def fileName (name : String) : Except Fault String := h.callText "clang_getFileName" (.ok name)

def place (l : Location) : Except Fault Location :=
  h.call "clang_getInstantiationLocation" (.ok l)

def locationText (l : Location) : Except Fault String := do
  let l ← h.place l
  let _ ← l.file.mapM h.fileName
  .ok l.summary

def rangeText (r : Range) : Except Fault String := do
  h.need "clang_getRangeStart"
  h.need "clang_getRangeEnd"
  let _ ← h.locationText r.start
  let _ ← h.locationText r.stop
  .ok r.summary

def fixItText (f : FixItData) : Except Fault String := do
  let _ ← h.rangeText f.range
  .ok f.summary

/-! ### Diagnostics -/

/-- Something about the diagnostic with a number, which a function asks for. -/
def diagnostic {α : Type} (function : String) (number : Int) (part : DiagnosticData → α) :
    Except Fault α :=
  h.call function (do .ok (part (← h.tree.diagnosticAt number)))

def diagnosticPart (function : String) (number : Int) (part : DiagnosticData → String) :
    Except Fault String :=
  h.callText function (h.diagnostic function number part)

def diagnosticText (number : Int) : Except Fault String := do
  let _ ← h.diagnostic "clang_getDiagnosticSeverity" number (·.severity)
  let location ← h.diagnostic "clang_getDiagnosticLocation" number (·.location)
  let _ ← h.diagnosticPart "clang_getDiagnosticSpelling" number (·.spelling)
  let _ ← h.locationText location
  h.diagnostic "clang_getDiagnosticSeverity" number (·.summary)

/-! ### Completions in words -/

def completion (number : Nat) : CompletionData := (h.tree.completionStrings[number]?).getD {}

def chunkCount (number : Nat) : Except Fault Nat :=
  h.call "clang_getNumCompletionChunks" (.ok (h.completion number).chunks.length)

def chunk (number : Nat) (index : Int) : Except Fault ChunkData :=
  entry (h.completion number).chunks index

def chunkText (number : Nat) (index : Int) : Except Fault String :=
  h.call "clang_getCompletionChunkText" (do .ok (← h.chunk number index).text)

def chunkKind (number : Nat) (index : Int) : Except Fault String :=
  h.call "clang_getCompletionChunkKind" (do nameAt chunkKindNames (← h.chunk number index).kind)

def chunkSummary (number : Nat) (index : Int) : Except Fault String := do
  .ok ("\x7b'" ++ (← h.chunkText number index) ++ "', " ++ (← h.chunkKind number index) ++ "\x7d")

def priority (number : Nat) : Except Fault Int :=
  h.call "clang_getCompletionPriority" (.ok (h.completion number).priority)

def availability (number : Nat) : Except Fault String :=
  h.call "clang_getCompletionAvailability"
    (nameAt availabilityNames (h.completion number).availability)

/-- The comment on a completion, which a library need not know of. -/
def completionComment (number : Nat) : Option String :=
  if h.has "clang_getCompletionBriefComment" then (h.completion number).brief else none

def completionSummary (number : Nat) : Except Fault String := do
  let count ← h.chunkCount number
  let chunks ← (List.range count).mapM fun (i : Nat) => h.chunkSummary number i
  let priority ← h.priority number
  let availability ← h.availability number
  .ok (" | ".intercalate chunks ++ " || Priority: " ++ Text.ofInt priority ++
    " || Availability: " ++ availability ++ " || Brief comment: " ++
    (h.completionComment number).getD "None")

/-! ### Types -/

def argumentCount (t : TypeRef) : Except Fault Nat :=
  h.call "clang_getNumArgTypes" (.ok (h.tree.type t).arguments.length)

/-- An argument of a function type, which must be valid. -/
def argumentType (a : TypeRef) : Except Fault TypeRef := do
  h.need "clang_getArgType"
  if (← h.tree.typeKind a).name == "INVALID" then .error .noArgument else .ok a

end Holdings

end PxdGen.Index
