import PxdGen.Pxd.Expression
/-! # Rendering of statements

A statement is written on the page, its blocks one level deeper than itself. Words such as `cdef`
are left pending by the statement that has them, and the declaration inside takes them up.
`visitStep` is the rule for one statement in terms of visiting its parts, and `visit` ties the
knot.
-/

namespace PxdGen.Pxd

open Rendering Value

section Step

variable (v : Value) (sub : Part v → Rendering Unit)

def shown (name : String) : Rendering Value := do render (← need v name).1

def shownItems (name : String) : Rendering (List Value) := do
  (← items (← need v name)).mapM fun p => render p.1

/-- The rendering of a field that may be empty, and nothing if it is. -/
def shownGiven (name : String) : Rendering Value := do
  let p ← need v name
  if p.1.isTrue then render p.1 else pure .nothing

def visitItems (name : String) : Rendering Unit := do
  (← items (← need v name)).forM sub

/-- Visits the items of a field one level deeper. -/
def block (name : String) : Rendering Unit := do
  indent
  visitItems v sub name
  dedent

/-- A block behind `else`, if it is not empty. -/
def elseBlock : Rendering Unit := do
  if (← need v "orelse").1.isTrue then
    line "else:"
    block v sub "orelse"

def decoratorLines (decorators : List Value) : Rendering Unit :=
  decorators.forM fun d => line ("@" ++ d.plain)

def visitFunctionDef : Rendering Unit := do
  let name ← need v "name"
  let args ← shown v "args"
  decoratorLines (← shownItems v "decorator_list")
  line ("def " ++ name.1.plain ++ "(" ++ args.plain ++ "):")
  block v sub "body"
  newline

def visitClassDef : Rendering Unit := do
  let name ← need v "name"
  let bases ← shownItems v "bases"
  decoratorLines (← shownItems v "decorator_list")
  lineOf do pure ("class " ++ name.1.plain ++ "(" ++ (← joined ", " bases) ++ "):")
  block v sub "body"
  newline

def visitPrint : Rendering Unit := do
  let dest ← shownGiven v "dest"
  let values ← joined ", " (← shownItems v "values")
  let text :=
    if dest.isTrue then "print >> " ++ dest.plain ++ ", " ++ values else "print " ++ values
  line (if (← need v "nl").1.isTrue then text else text ++ ",")

def visitRaise : Rendering Unit := do
  let type ← shownGiven v "type"
  let inst ← shownGiven v "inst"
  if (← need v "tback").1.isTrue then throw .unsetName
  let given := [type, inst].filter (·.isTrue)
  if given.isEmpty then line "raise" else lineOf do pure ("raise " ++ (← joined ", " given))

/-- A line that imports names from a module, which may have dots in front. -/
def visitImport (word : String) : Rendering Unit := do
  let module ← need v "module"
  let names ← joined ", " (← shownItems v "names")
  let level ← need v "level"
  let dots ← if level.1.isTrue then
      match level.1.asInt? with
      | some n =>
        match repeatFault? 1 n with
        | some f => throw f
        | none => pure (Text.copies "." n)
      | none => throw .wrongSort
    else pure ""
  lineOf do
    let name ← if module.1.isTrue then textOf module.1 else pure ""
    pure ("from " ++ dots ++ name ++ " " ++ word ++ " " ++ names)

def visitExceptHandler : Rendering Unit := do
  let name ← shownGiven v "name"
  let type ← shownGiven v "type"
  if !name.isTrue && !type.isTrue then line "except:"
  else if name.isTrue && type.isTrue then
    line ("except " ++ name.plain ++ " as " ++ type.plain ++ ":")
  else line ("except " ++ type.plain ++ ":")
  block v sub "body"
  newline

/-- A C function with its return type around it. -/
def functionText (name args : String) : Rendering String := do
  let call := name ++ "(" ++ args ++ ")"
  if (← need v "returns").1.isTrue then
    let (marks, base) ← peelField v "returns"
    let type ← render base.1
    declare base.1 type (.text (wrap marks call))
  else pure call

def visitCFunctionDecl : Rendering Unit := do
  let lead ← popLead
  let name ← need v "name"
  let args ← shown v "args"
  let text ← functionText v name.1.plain args.plain
  let excepts ← need v "excepts"
  let text ← if excepts.1.isTrue then do
      pure (text ++ " excepts " ++ (← render excepts.1).plain)
    else pure text
  put (lead ++ text)
  onPage (·.newline 2)

/-- The definition of a C function gets no further than its decorators and arguments. -/
def visitCFunctionDef : Rendering Unit := do
  let _ ← popPending
  (← items (← need v "decorator_list")).forM fun p => do
    line ("@" ++ (← render p.1).plain)
  let _ ← need v "name"
  let _ ← shown v "args"
  let _ ← need v "returns"
  throw .undefinedName

/-- A block with a heading that the pending words stand before. -/
def record (heading : String) : Rendering Unit := do
  let lead ← popHead
  line (lead ++ heading ++ ":")
  block v sub "body"
  newline
where
  /-- The newest pending words with a space behind them, even if they are empty. -/
  popHead : Rendering String := do
    match ← popPending with
    | some v => pure (v.plain ++ " ")
    | none => pure ""

def visitNamed (word : String) : Rendering Unit := do
  let name ← need v "name"
  record v sub (word ++ " " ++ name.1.plain)

def visitEnumDef : Rendering Unit := do
  let name ← need v "name"
  record v sub (if name.1.isTrue then "enum " ++ name.1.plain else "enum")

def visitExternFrom : Rendering Unit := do
  let name ← need v "name"
  let lead ← record.popHead
  put (lead ++ "extern from \"" ++ name.1.plain ++ "\":")
  onPage (·.newline 2)
  block v sub "body"

def visitProperty : Rendering Unit := do
  let name ← need v "name"
  put ("property " ++ name.1.plain ++ ":")
  indent
  newline
  visitItems v sub "body"
  dedent

def visitStep : Rendering Unit :=
  match v.kind? with
  | some .moduleNode => do
    (← items (← need v "body")).forM fun p => do sub p; newline
  | some .functionDef => visitFunctionDef v sub
  | some .classDef => visitClassDef v sub
  | some .returnStmt => do
    if (← need v "value").1.isTrue then line ("return " ++ (← shown v "value").plain)
    else line "return"
  | some .deleteStmt => do
    let targets ← shownItems v "targets"
    lineOf do pure ("del " ++ (← joined ", " targets))
  | some .assign => do
    let targets ← shownItems v "targets"
    let value ← shown v "value"
    lineOf do pure ((← joined ", " targets) ++ " = " ++ value.plain)
  | some .augAssign => do
    let target ← shown v "target"
    let op ← shown v "op"
    let value ← shown v "value"
    line (target.plain ++ " " ++ op.plain ++ " " ++ value.plain)
  | some .printStmt => visitPrint v
  | some .forLoop => do
    let target ← shown v "target"
    let iter ← shown v "iter"
    line ("for " ++ target.plain ++ " in " ++ iter.plain ++ ":")
    block v sub "body"
    elseBlock v sub
  | some .whileLoop => do
    line ("while " ++ (← shown v "test").plain ++ ":")
    block v sub "body"
    elseBlock v sub
  | some .ifStmt => do
    line ("if " ++ (← shown v "test").plain ++ ":")
    block v sub "body"
    elseBlock v sub
  | some .withStmt => do
    let context ← shown v "context_expr"
    let optional ← shownGiven v "optional_vars"
    line (if optional.isTrue then "with " ++ context.plain ++ " as " ++ optional.plain ++ ":"
      else "with " ++ context.plain ++ ":")
    block v sub "body"
  | some .raiseStmt => visitRaise v
  | some .tryExcept => do
    line "try:"
    block v sub "body"
    visitItems v sub "handlers"
    elseBlock v sub
    newline
  | some .tryFinally => do
    visitItems v sub "body"
    line "finally:"
    block v sub "finalbody"
    newline
  | some .assertStmt => do
    let test ← shown v "test"
    let msg ← shownGiven v "msg"
    line (if msg.isTrue then "assert " ++ test.plain ++ ", " ++ msg.plain
      else "assert " ++ test.plain)
  | some .importStmt => do
    let names ← shownItems v "names"
    lineOf do pure ("import " ++ (← joined ", " names))
  | some .importFrom => visitImport v "import"
  | some .execStmt => do
    let body ← shown v "body"
    let globals ← shownGiven v "globals"
    let locals ← shownGiven v "locals"
    lineOf do pure ("exec " ++ (← joined ", " (body :: [globals, locals].filter (·.isTrue))))
  | some .globalStmt => do
    let names ← need v "names"
    lineOf do pure ("global " ++ (← joined ", " ((← items names).map (·.1))))
  | some .exprStmt => do
    match ← shown v "value" with
    | .text s => line s
    | _ => do put ""; throw .missingField
  | some .passStmt => line "pass"
  | some .breakStmt => line "break"
  | some .continueStmt => line "continue"
  | some .exceptHandler => visitExceptHandler v sub
  | some .cdefDecl => do
    let modifiers ← shownItems v "modifiers"
    pushPending (.text (← joined " " (.text "cdef" :: modifiers)))
    sub (← need v "value")
  | some .cpdefDecl => do
    pushPending (.text "cpdef")
    sub (← need v "value")
  | some .cTypedefDecl => do
    pushPending (.text "ctypedef")
    sub (← need v "value")
    newline
  | some .cFunctionDecl => visitCFunctionDecl v
  | some .cFunctionDef => visitCFunctionDef v
  | some .cImport => do
    let names ← shownItems v "names"
    lineOf do pure ("cimport " ++ (← joined ", " names))
  | some .cImportFrom => visitImport v "cimport"
  | some .cppClassDef => visitNamed v sub "cppclass"
  | some .structDef => visitNamed v sub "struct"
  | some .unionDef => visitNamed v sub "union"
  | some .enumDef => visitEnumDef v sub
  | some .propertyDef => visitProperty v sub
  | some .externFrom => visitExternFrom v sub
  | _ => say ("No visitor for node: `" ++ v.plain ++ "`")

end Step

def visit (v : Value) : Rendering Unit := visitStep v fun p => visit p.1
termination_by v.depth
decreasing_by exact p.2

/-- Writes a module on a new page and gives the text of the page. -/
def renderModule (v : Value) : Rendering String := do
  if v.isNode .moduleNode then
    modify fun s => { s with page := some .empty, pending := [] }
    visit v
    match (← get).page with
    | some p => pure p.text
    | none => throw .missingField
  else throw (.notModule ("<class '" ++ v.sort ++ "'>"))

end PxdGen.Pxd
