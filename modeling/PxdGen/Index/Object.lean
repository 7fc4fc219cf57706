import PxdGen.Index.Holdings
import PxdGen.Index.Sort
import PxdGen.Value
/-! # Objects of a unit

What can be asked for in a compilation unit: its cursors, types, places and tokens, the completions
of a piece of source code, and the commands that compile a file. Each object is either shown in
words or is a sequence of other objects.
-/

namespace PxdGen.Index

inductive Object where
  | value (v : Value)
  | bytes (text : String)
  /-- a file that is open for reading -/
  | reader (content : String) (isText : Bool)
  /-- something that only the library understands -/
  | pointer
  /-- A cursor. One that was found by a token does not know its unit. -/
  | cursor (c : Cursor) (isAttached : Bool)
  | type (t : TypeRef)
  | kind (k : Kind)
  | location (l : Location)
  /-- a range, which may be that of a cursor -/
  | range (r : Range) (owner : Option Cursor)
  | file (name : String)
  | token (t : TokenData)
  | comment (c : Comment)
  /-- a diagnostic by its number, which may be that of none -/
  | diagnostic (number : Int)
  | fixIt (f : FixItData)
  | inclusion (i : InclusionData)
  | unit
  /-- what units are made in -/
  | catalogue
  | sort (name : String)
  | database
  | commands (cs : List CommandData)
  /-- one of some commands -/
  | command (c : CommandData) (all : List CommandData)
  | completions (cs : CompletionsData)
  /-- the diagnostics of completions, so many of them -/
  | completionDiagnostics (count : Nat)
  | completionResults (rs : List (Int × Nat))
  | completionResult (kind : Int) (completion : Nat)
  | completion (number : Nat)
  /-- a piece of a completion by its index -/
  | chunk (completion : Nat) (index : Int)
  | chunkKind (name : String)
  /-- a text of the library, which may be nothing -/
  | nativeText (text : Option String)
  /-- the arguments of a function type, which may have been counted -/
  | arguments (t : TypeRef) (isCounted : Bool)
  | fixIts (number : Int)
  | ranges (number : Int)
  | diagnostics
  | list (items : List Object)
  /-- a sequence that can only be gone through, and only once, and may stop at a fault -/
  | stream (words : String) (items : List Object) (fault : Option Fault)

namespace Object

def nothing : Object := .value .nothing

def flag (b : Bool) : Object := .value (.flag b)

def int (n : Int) : Object := .value (.int n)

def text (s : String) : Object := .value (.text s)

def text? : Option String → Object
  | some s => .text s
  | none => .nothing

def file? : Option String → Object
  | some name => .file name
  | none => .nothing

end Object

/-! ### Objects in words -/

def Object.sort? : Object → Option String
  | .cursor _ _ => some "Cursor"
  | .type _ => some "Type"
  | .kind k => some k.table
  | .location _ => some "SourceLocation"
  | .range _ _ => some "SourceRange"
  | .file _ => some "File"
  | .token _ => some "Token"
  | .comment _ => some "Comment"
  | .diagnostic _ => some "Diagnostic"
  | .fixIt _ => some "FixIt"
  | .inclusion _ => some "FileInclusion"
  | .unit => some "TranslationUnit"
  | .catalogue => some "Index"
  | .database => some "CompilationDatabase"
  | .commands _ => some "CompileCommands"
  | .command _ _ => some "CompileCommand"
  | .completions _ => some "CodeCompletionResults"
  | .completionDiagnostics _ => some "CodeCompletionResults.diagnostics.<locals>.DiagnosticsItr"
  | .completionResults _ => some "CCRStructure"
  | .completionResult _ _ => some "CodeCompletionResult"
  | .completion _ => some "CompletionString"
  | .chunk _ _ => some "CompletionChunk"
  | .chunkKind _ => some "CompletionChunk.Kind"
  | .nativeText _ => some "_CXString"
  | .arguments _ _ => some argumentsSort
  | .fixIts _ => some "Diagnostic.fixits.<locals>.FixItIterator"
  | .ranges _ => some "Diagnostic.ranges.<locals>.RangeIterator"
  | .diagnostics => some "TranslationUnit.diagnostics.<locals>.DiagIterator"
  | .value _ | .bytes _ | .reader _ _ | .pointer | .sort _ | .list _ | .stream _ _ _ => none

/-- The name of a kind. One that was made has none, unless it is a kind of tokens. -/
def Kind.nameOf (k : Kind) : Except Fault String :=
  if k.name.isEmpty && k.table != "TokenKind" then .error (.missingKey none) else .ok k.name

mutual

def Object.summary (h : Holdings) : Object → Except Fault String
  | .value v => .ok (v.literal fun _ => "")
  | .bytes s => .ok (Text.quotedBytes s)
  | .kind k => do .ok (k.table ++ "." ++ (← k.nameOf))
  | .location l => h.locationText l
  | .range r _ => h.rangeText r
  | .file name => do .ok ("<File: " ++ (← h.fileName name) ++ ">")
  | .diagnostic number => h.diagnosticText number
  | .fixIt f => h.fixItText f
  | .chunk number index => h.chunkSummary number index
  | .chunkKind name => .ok ("<ChunkKind: " ++ name ++ ">")
  | .completion number => h.completionSummary number
  | .completionResult _ number => h.completionSummary number
  | .list items => do .ok ("[" ++ ", ".intercalate (← Object.summaries h items) ++ "]")
  | .sort name => .ok (sortText name)
  | .stream words _ _ => .ok ("<" ++ words ++ ">")
  | o => .ok ((o.sort?.map plainObject).getD "<object>")

def Object.summaries (h : Holdings) : List Object → Except Fault (List String)
  | [] => .ok []
  | o :: rest => do .ok ((← Object.summary h o) :: (← Object.summaries h rest))

end

namespace Object

def display (h : Holdings) : Object → Except Fault String
  | .value (.text s) => .ok s
  | .file name => h.fileName name
  | .chunkKind name => .ok name
  | o => o.summary h

/-- The objects that a sequence goes through. The diagnostics of completions never come to an end,
but the first of them that is not there stops whoever looks at it. -/
def items (h : Holdings) : Object → Except Fault (List Object)
  | .list os | .stream _ os none => .ok os
  | .stream _ _ (some fault) => .error fault
  | .value v =>
    match v.items? with
    | some vs => .ok (vs.map .value)
    | none => .error .wrongSort
  | .arguments t _ => do
    let _ ← h.argumentCount t
    .ok ((← args h (h.tree.type t).arguments).map .type)
  | .ranges number => do
    h.need "clang_getDiagnosticNumRanges"
    match h.tree.diagnosticAt number with
    | .error _ => .ok []
    | .ok d =>
      if d.ranges.isEmpty then .ok []
      else h.call "clang_getDiagnosticRange" (.ok (d.ranges.map fun r => .range r none))
  | .diagnostics =>
    h.call "clang_getDiagnostic"
      (.ok ((List.range h.tree.diagnostics.size).map fun (i : Nat) => .diagnostic i))
  | .fixIts number => do
    h.need "clang_getDiagnosticFixIt"
    match h.tree.diagnosticAt number with
    | .error _ => .ok []
    | .ok d =>
      if d.fixIts.isEmpty then .ok []
      else h.call "clang_getCString" (.ok (d.offered.map .fixIt))
  | .completion number => do
    .ok ((List.range (← h.chunkCount number)).map fun (i : Nat) => .chunk number i)
  | .completionResults rs => .ok (rs.map fun (k, n) => .completionResult k n)
  | .completionDiagnostics _ =>
    h.call "clang_codeCompleteGetDiagnostic"
      (.ok ((List.range (h.tree.diagnostics.size + 1)).map fun (i : Nat) => .diagnostic i))
  | .commands cs =>
    h.call "clang_CompileCommands_getCommand" (.ok (cs.map fun c => .command c cs))
  | _ => .error .wrongSort
where
  /-- Arguments up to one that is not valid. -/
  args (h : Holdings) : List TypeRef → Except Fault (List TypeRef)
    | [] => .ok []
    | t :: rest =>
      match h.argumentType t with
      | .ok t => do .ok (t :: (← args h rest))
      | .error .noArgument => .ok []
      | .error fault => .error fault

def length (h : Holdings) : Object → Except Fault Nat
  | .list os => .ok os.length
  | .value v =>
    match v.length? with
    | some n => .ok n
    | none => .error .wrongSort
  | .bytes s => .ok s.utf8ByteSize
  | .arguments t _ => h.argumentCount t
  | .ranges number => h.diagnostic "clang_getDiagnosticNumRanges" number (·.ranges.length)
  | .diagnostics => h.call "clang_getNumDiagnostics" (.ok h.tree.diagnostics.size)
  | .fixIts number => h.diagnostic "clang_getDiagnosticNumFixIts" number (·.fixIts.length)
  | .completionResults rs => .ok rs.length
  | .completionDiagnostics n => h.call "clang_codeCompleteGetNumDiagnostics" (.ok n)
  | .commands cs => h.call "clang_CompileCommands_getSize" (.ok cs.length)
  | .completion number => do
    let _ ← h.chunkCount number
    .error .wrongSort
  | _ => .error .wrongSort

/-- Whether an object claims to have a length, also if it cannot tell it. -/
def hasLength : Object → Bool
  | .list _ | .ranges _ | .diagnostics | .bytes _ | .arguments _ _ | .fixIts _
  | .completionResults _ | .completionDiagnostics _ | .commands _ | .completion _ => true
  | .value v => v.length?.isSome
  | _ => false

/-- The items of a sequence as a list, which asks for its length first. -/
def listed (h : Holdings) (o : Object) : Except Fault (List Object) := do
  if o.hasLength then
    match o.length h with
    | .ok _ | .error .wrongSort => pure ()
    | .error fault => .error fault
  o.items h

def argument (h : Holdings) (t : TypeRef) (index : Value) : Except Fault TypeRef :=
  match index.asInt? with
  | none => .error .indexSort
  | some n =>
    if n < 0 then .error .negativeIndex
    else do
      let count ← h.argumentCount t
      match (h.tree.type t).arguments[n.toNat]? with
      | none => .error (.argumentBeyond n count)
      | some a => h.argumentType a

def item (h : Holdings) (o : Object) (index : Value) : Except Fault Object :=
  match o with
  | .arguments t _ => (argument h t index).map .type
  | .list os => do entry os (← place)
  | .value (.text s) => do .ok (.text (← entry s.toList (← place)).toString)
  | .fixIts number => do
    let fs ← h.diagnostic "clang_getDiagnosticFixIt" number (·.fixIts)
    let f ← entry fs (← place)
    h.need "clang_getCString"
    if f.text.isEmpty then .error .outOfRange else .ok (.fixIt f)
  | .ranges number => do
    let rs ← h.diagnostic "clang_getDiagnosticNumRanges" number (·.ranges)
    let n ← place
    if rs.length ≤ n then .error .outOfRange
    else h.call "clang_getDiagnosticRange" (do .ok (.range (← entry rs n) none))
  | .diagnostics => do
    h.need "clang_getDiagnostic"
    let n ← place
    if n < 0 || h.tree.diagnostics.size ≤ n then .error .outOfRange else .ok (.diagnostic n)
  | .completion number => do
    let count ← h.chunkCount number
    let n ← place
    if count ≤ n then .error .outOfRange else .ok (.chunk number n)
  | .completionDiagnostics _ => do
    h.need "clang_codeCompleteGetDiagnostic"
    .ok (.diagnostic (← place))
  | .commands cs => do
    h.need "clang_CompileCommands_getCommand"
    let n ← place
    if n < 0 then .error .outOfRange else do .ok (.command (← entry cs n) cs)
  | .completionResults rs => do
    let n ← place
    if n < 0 then .error .outOfRange
    else do
      let (k, number) ← entry rs n
      .ok (.completionResult k number)
  | _ => .error .wrongSort
where
  place : Except Fault Int :=
    match index.asInt? with
    | some n => .ok n
    | none => .error .wrongSort

/-- Whether an object refuses to be compared with those of other sorts. -/
def isChoosy : Object → Bool
  | .cursor _ _ | .location _ | .range _ _ => true
  | _ => false

/-- The function of the library that compares objects of the sort of an object, if there is one. -/
def comparison? : Object → Option String
  | .cursor _ _ => some "clang_equalCursors"
  | .type _ => some "clang_equalTypes"
  | .location _ => some "clang_equalLocations"
  | .range _ _ => some "clang_equalRanges"
  | _ => none

mutual

/-- Whether two objects that were found separately are the same. Most sorts have no comparison, and
their objects differ from all others. -/
def same (h : Holdings) : Object → Object → Except Fault Bool
  | .value a, .value b => .ok (a.same b)
  | .bytes a, .bytes b => .ok (a == b)
  | .cursor a _, .cursor b _ => h.call "clang_equalCursors" (.ok (a == b))
  | .cursor _ _, .type _ => h.call "clang_equalCursors" (.ok false)
  | .type a, .type b => h.call "clang_equalTypes" (.ok (a == b))
  | .type _, _ => .ok false
  | .kind a, .kind b => .ok (a == b)
  | .location a, .location b => h.call "clang_equalLocations" (.ok (a == b))
  | .range a _, .range b _ => h.call "clang_equalRanges" (.ok (a == b))
  | .chunkKind a, .chunkKind b => .ok (a == b)
  | .sort a, .sort b => .ok (a == b)
  | .unit, .unit => .ok true
  | .list as, .list bs => if as.length == bs.length then sameAll h as bs else .ok false
  | a, b => if a.isChoosy || b.isChoosy then .error .missingField else .ok false

def sameAll (h : Holdings) : List Object → List Object → Except Fault Bool
  | a :: as, b :: bs => do if ← same h a b then sameAll h as bs else .ok false
  | _, _ => .ok true

end

/-- Whether an object is the same as itself, which takes the comparison of its sort. -/
def sameAsItself (h : Holdings) (o : Object) : Except Fault Bool :=
  match o.comparison? with
  | some function => h.call function (.ok true)
  | none => .ok true

/-- A sequence after its items have been counted. -/
def counted (h : Holdings) : Object → Object
  | .arguments t isCounted => .arguments t (isCounted || h.has "clang_getNumArgTypes")
  | o => o

/-- A sequence after its items have been gone through or counted. -/
def gone (h : Holdings) : Object → Object
  | .stream words _ _ => .stream words [] none
  | o => o.counted h

end Object

end PxdGen.Index
