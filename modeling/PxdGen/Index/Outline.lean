import PxdGen.Index.Reader
/-! # Outlines

An outline lists the cursors of a compilation unit from the root, each with its comments, tokens and
types, indented by how deep it stands.
-/

namespace PxdGen.Index

open Decl Decl.Work

/-- Which cursors an outline shows. -/
inductive Scope where
  | everything
  /-- leaves out what the headers of the system declare, and what is in no file -/
  | ownFiles
deriving DecidableEq, Repr

/-- Only cursors directly under the root are left out. -/
def Scope.shows (scope : Scope) (data : CursorData) (level : Nat) : Bool :=
  match scope with
  | .everything => true
  | .ownFiles => level != 1 ||
    match data.location.file with
    | some file => !file.startsWith "/usr/include"
    | none => false

def TypeData.qualifiers (t : TypeData) : List String :=
  (if t.isConst then ["const"] else []) ++ (if t.isVolatile then ["volatile"] else []) ++
    (if t.isRestrict then ["restrict"] else [])

def outlineTypeStep (tree : Tree) (sub : TypeRef → Nat → String → Work Unit) (t : TypeRef)
    (level : Nat) (title : String) : Work Unit := do
  let data := tree.type t
  let kind ← check (tree.typeKind t)
  tell level [title, kind.text, " ".intercalate data.qualifiers]
  if (← check (tree.typeKind data.pointee)).name != "INVALID" then
    sub data.pointee (level + 1) "points to:"
  if kind.name == "CONSTANTARRAY" then
    sub (← check (tree.elementType t)) (level + 1) "array element type:"
    tell level ["size:", Text.ofInt (← check (tree.elementCount t))]
  if kind.name == "UNEXPOSED" then
    let canonical := tree.canonicalType t
    if (← check (tree.typeKind canonical)).name != "UNEXPOSED" then
      sub canonical (level + 1) "canonical type"

/-- Lists a type. A type that is no part of itself has fewer than `fuel` types below it. -/
def outlineType (tree : Tree) : Nat → TypeRef → Nat → String → Work Unit
  | 0, _, _, _ => throw .endless
  | fuel + 1, t, level, title => outlineTypeStep tree (outlineType tree fuel) t level title

def Comment.content : Comment → Except Fault (Option String)
  | .mk kind text _ => do
    let kind ← commentKinds.find kind
    .ok (if kind.name == "TEXT" then some text else none)

mutual

def outlineComment : Comment → Nat → Work Unit
  | .mk kind text children, level => do
    let found ← check (commentKinds.find kind)
    let content ← check (Comment.mk kind text []).content
    tell level ["comment kind", found.text, quotedName content]
    outlineComments children (level + 1)

def outlineComments : List Comment → Nat → Work Unit
  | [], _ => pure ()
  | c :: rest, level => do
    outlineComment c level
    outlineComments rest level

end

def Tree.argumentTypes (tree : Tree) (t : TypeRef) : Except Fault (List TypeRef) := do
  let kind ← tree.typeKind t
  if kind.name == "FUNCTIONPROTO" || kind.name == "FUNCTIONNOPROTO" then
    .ok (tree.type t).arguments
  else .error .unmet

def CursorData.words (data : CursorData) : List String := (data.tokens.map (·.text)).dropLast

section

variable (tree : Tree)
variable (type : TypeRef → Nat → String → Work Unit)

/-- Lists the types of arguments; the first that is invalid ends them. -/
def outlineArguments (level : Nat) : List TypeRef → Nat → Work Unit
  | [], _ => pure ()
  | t :: rest, k => do
    if (← check (tree.typeKind t)).name == "INVALID" then pure ()
    else
      type t level ("argument " ++ toString k)
      outlineArguments level rest (k + 1)

def outlineDetails (c : Cursor) (level : Nat) : Work Unit := do
  let data := tree.cursor c
  let kind ← check (tree.kind c)
  let spelling ← check (tree.spelling c)
  tell level [kind.text, quotedName spelling, Text.quoted data.display]
  match data.brief with
  | some brief => tell level ["#", brief]
  | none => pure ()
  if !(data.raw.getD "").isEmpty then outlineComment data.comment level
  if kind.isPreprocessing then
    say "PREPROCESSING"
    say data.location.summary
    tell level ["token: ", "|".intercalate data.words]
  if (← check (tree.typeKind data.type)).name != "INVALID" then type data.type (level + 1) "type:"
  match kind.name with
  | "ENUM_CONSTANT_DECL" => tell level ["value:", Text.ofInt (← check (tree.enumValue c))]
  | "INTEGER_LITERAL" => tell level [(Value.list (data.words.map .text)).plain]
  | "FUNCTION_DECL" => do
    type (tree.type data.type).result (level + 1) "result type:"
    outlineArguments tree type (level + 1) (← check (tree.argumentTypes data.type)) 0
  | "TYPEDEF_DECL" => do
    type data.underlying (level + 1) "typedef type"
    let spelling ← check (tree.spelling (tree.declaration data.underlying))
    tell (level + 1) ["typedef type declaration:", (nameValue spelling).plain]
  | _ => pure ()

end

def outlineEach (sub : Cursor → Nat → Work Unit) (level : Nat) : List Nat → Work Unit
  | [] => pure ()
  | child :: rest => do
    sub (.numbered child) level
    outlineEach sub level rest

def outlineCursor (tree : Tree) (scope : Scope) : Nat → Cursor → Nat → Work Unit
  | 0, _, _ => throw .endless
  | fuel + 1, c, level =>
    if scope.shows (tree.cursor c) level then do
      say ""
      outlineDetails tree (outlineType tree (tree.types.size + 2)) c level
      outlineEach (outlineCursor tree scope fuel) (level + 1) (tree.cursor c).children
    else pure ()

def outline (tree : Tree) (scope : Scope) : Work Unit :=
  outlineCursor tree scope (tree.cursors.size + 1) (.numbered tree.root) 0

def outlineDiagnostic (d : DiagnosticData) : Work Unit := do
  let listed (texts : List String) : String := "[" ++ ", ".intercalate texts ++ "]"
  say ("location: " ++ d.location.summary)
  say ("severity: " ++ Text.ofInt d.severity)
  say ("spelling: " ++ d.spelling)
  say ("ranges: " ++ listed (d.ranges.map (·.summary)))
  say ("fixits " ++ listed (d.offered.map (·.summary)))
  say ("category name: " ++ d.category)
  say ""

def outlineUnit (tree : Tree) (scope : Scope) : Work Unit := do
  tree.diagnostics.toList.forM outlineDiagnostic
  outline tree scope

end PxdGen.Index
