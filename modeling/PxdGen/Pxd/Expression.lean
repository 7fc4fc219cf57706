import PxdGen.Pxd.Declarator
import PxdGen.Pxd.Sheet
import PxdGen.Text.Blank
/-! # Rendering of expressions and types

Every expression, type, operator and argument list has a text. Operators are put between parentheses
with their operands, so no precedence is needed. `renderStep` is the rule for one node, in terms of
the texts of its parts; `render` ties the knot.

A name renders as whatever is in its field, so the result is a value.
-/

namespace PxdGen.Pxd

open Rendering Value

/-- The texts of the nodes that stand for themselves. -/
def Kind.symbol? : Kind → Option String
  | .and => some "and"
  | .or => some "or"
  | .add | .uAdd => some "+"
  | .sub | .uSub => some "-"
  | .mult => some "*"
  | .div => some "/"
  | .modulo => some "%"
  | .pow => some "**"
  | .lShift => some "<<"
  | .rShift => some ">>"
  | .bitOr => some "|"
  | .bitAnd => some "&"
  | .floorDiv => some "//"
  | .invert => some "~"
  | .not => some "not"
  | .eq => some "=="
  | .notEq => some "!="
  | .lt => some "<"
  | .ltE => some "<="
  | .gt => some ">"
  | .gtE => some ">="
  | .is => some "is"
  | .isNot => some "is not"
  | .isIn => some "in"
  | .notIn => some "not in"
  | .ellipsis => some "..."
  | .externMod => some "extern"
  | .inlineMod => some "inline"
  | .publicMod => some "public"
  | .apiMod => some "api"
  | _ => none

/-- The items of a subscript, without the middle or last ones that are missing at the end. -/
def sliceItems (lower upper step : Value) : List Value :=
  let blank := Value.text ""
  if lower.isTrue then
    if step.isTrue then
      if upper.isTrue then [lower, step, upper] else [lower, step]
    else if upper.isTrue then [lower, blank, upper]
    else [lower]
  else if step.isTrue then
    if upper.isTrue then [blank, step, upper] else [blank, step]
  else if upper.isTrue then [blank, blank, upper]
  else [blank, blank]

section Step

variable (v : Value) (sub : Part v → Rendering Value)

def renderField (name : String) : Rendering Value := do sub (← need v name)

def renderItems (name : String) : Rendering (List Value) := do
  (← items (← need v name)).mapM sub

/-- The rendering of a field that may be empty, and nothing if it is. -/
def renderGiven (name : String) : Rendering Value := do
  let p ← need v name
  if p.1.isTrue then sub p else pure .nothing

def renderComprehensions : Rendering String := do
  joined " " (← renderItems v sub "generators")

/-- A field behind its mark, if it is given. -/
def renderStarred (mark name : String) : Rendering (List Value) := do
  let p ← need v name
  if p.1.isTrue then pure [.text (mark ++ (← textOf (← sub p)))] else pure []

def renderArguments : Rendering Value := do
  let args ← need v "args"
  let defaults ← need v "defaults"
  let count ← items args
  let given ← items defaults
  match defaults.1 with
  | .list _ => pure ()
  | _ => throw .wrongSort
  let padding := count.length - given.length
  let fillers : List (Option (Part v)) := List.replicate padding none ++ given.map some
  let shown ← (count.zip fillers).mapM fun (arg, default) => do
    let a ← sub arg
    match default with
    | none => pure a
    | some d => pure (.text (a.plain ++ "=" ++ (← sub d).plain))
  let vararg ← renderStarred v sub "*" "vararg"
  let kwarg ← renderStarred v sub "**" "kwarg"
  pure (.text (← joined ", " (shown ++ vararg ++ kwarg)))

def renderCall : Rendering Value := do
  let func ← renderField v sub "func"
  let args ← renderItems v sub "args"
  let keywords ← renderItems v sub "keywords"
  let starargs ← renderStarred v sub "*" "starargs"
  let kwargs ← renderStarred v sub "**" "kwargs"
  let all ← joined ", " (args ++ keywords ++ starargs ++ kwargs)
  pure (.text (func.plain ++ "(" ++ all ++ ")"))

/-- The marks of a C type in a field, and what is under them. -/
def peelField (name : String) : Rendering (List String × Part v) := do
  let p ← need v name
  match peel p.1 with
  | .error e => throw e
  | .ok (marks, ⟨base, hb⟩) => pure (marks, ⟨base, Nat.lt_of_le_of_lt hb p.2⟩)

/-- The text that declares `declarator` to be of the type under its marks. A function type has a
hole for it, any other type stands before it. -/
def declare (base : Value) (type : Value) (declarator : Value) : Rendering String := do
  if base.isNode .cFunctionType then
    pure (fillName (← textOf type) (← textOf declarator))
  else pure (type.plain ++ " " ++ declarator.plain)

def renderCName : Rendering Value := do
  let lead ← popLead
  let (marks, base) ← peelField v "ctype"
  let name := declarator marks (← need v "name").1
  let type ← sub base
  pure (.text (Text.trim (lead ++ (← declare base.1 type name))))

def renderFunctionType : Rendering Value := do
  let args ← renderField v sub "args"
  let stem := "(" ++ nameHole ++ ")(" ++ args.plain ++ ")"
  let (marks, base) ← peelField v "returns"
  let type ← sub base
  pure (.text (← declare base.1 type (.text (wrap marks stem))))

def renderStep : Rendering Value :=
  match v.kind? with
  | none => undefinedNode
  | some kind =>
    match kind.symbol? with
    | some s => pure (.text s)
    | none =>
      match kind with
      | .boolOp => do
        let op ← renderField v sub "op"
        let values ← renderItems v sub "values"
        pure (.text ("(" ++ (← joined (" " ++ op.plain ++ " ") values) ++ ")"))
      | .binOp => do
        let left ← renderField v sub "left"
        let op ← renderField v sub "op"
        let right ← renderField v sub "right"
        pure (.text ("(" ++ left.plain ++ " " ++ op.plain ++ " " ++ right.plain ++ ")"))
      | .unaryOp => do
        let op ← renderField v sub "op"
        let operand ← renderField v sub "operand"
        pure (.text ("(" ++ op.plain ++ " " ++ operand.plain ++ ")"))
      | .lambdaExpr => do
        let args ← renderField v sub "args"
        let body ← renderField v sub "body"
        pure (.text ("(lambda " ++ args.plain ++ ": " ++ body.plain ++ ")"))
      | .ifExp => do
        let test ← renderField v sub "test"
        let body ← renderField v sub "body"
        let orelse ← renderField v sub "orelse"
        pure (.text ("(" ++ body.plain ++ " if " ++ test.plain ++ " else " ++ orelse.plain ++ ")"))
      | .dictExpr => do
        let keys ← renderItems v sub "keys"
        let values ← renderItems v sub "values"
        let pairs := (keys.zip values).map fun (k, x) => k.plain ++ ": " ++ x.plain
        pure (.text ("\x7b" ++ ", ".intercalate pairs ++ "\x7d"))
      | .setExpr => do
        let elts ← renderItems v sub "elts"
        pure (.text ("\x7b" ++ (← joined ", " elts) ++ "\x7d"))
      | .listComp => do
        let elt ← renderField v sub "elt"
        pure (.text ("[" ++ elt.plain ++ " " ++ (← renderComprehensions v sub) ++ "]"))
      | .setComp => do
        let elt ← renderField v sub "elt"
        pure (.text ("\x7b" ++ elt.plain ++ " " ++ (← renderComprehensions v sub) ++ "\x7d"))
      | .dictComp => do
        let key ← renderField v sub "key"
        let value ← renderField v sub "value"
        pure (.text ("\x7b" ++ key.plain ++ ": " ++ value.plain ++ " " ++
          (← renderComprehensions v sub) ++ "\x7d"))
      | .generatorExp => do
        let elt ← renderField v sub "elt"
        pure (.text ("(" ++ elt.plain ++ " " ++ (← renderComprehensions v sub) ++ ")"))
      | .yieldExpr => do
        let value ← renderGiven v sub "value"
        pure (.text (if value.isTrue then "yield " ++ value.plain else "yield"))
      | .compare => do
        let left ← renderField v sub "left"
        let ops ← renderItems v sub "ops"
        let others ← renderItems v sub "comparators"
        let pairs := (ops.zip others).flatMap fun (op, x) => [op, x]
        pure (.text ("(" ++ (← joined " " (left :: pairs)) ++ ")"))
      | .call => renderCall v sub
      | .reprExpr => do
        let value ← renderField v sub "value"
        pure (.text ("`" ++ value.plain ++ "`"))
      | .num => do
        let number := (← need v "n").1
        if number.isWritable then
          let digits := number.literal fun _ => "<object>"
          pure (.text (if digits.startsWith "-" then "(" ++ digits ++ ")" else digits))
        else throw .malformed
      | .str => do
        pure (.text ((← need v "s").1.literal fun _ => "<object>"))
      | .attributeExpr => do
        let value ← renderField v sub "value"
        pure (.text (value.plain ++ "." ++ (← need v "attr").1.plain))
      | .subscript => do
        let value ← renderField v sub "value"
        let slice ← renderField v sub "slice"
        pure (.text (value.plain ++ "[" ++ slice.plain ++ "]"))
      | .name => do pure (← need v "id").1
      | .listExpr => do
        pure (.text ("[" ++ (← joined ", " (← renderItems v sub "elts")) ++ "]"))
      | .tupleExpr => do
        pure (.text ("(" ++ (← joined ", " (← renderItems v sub "elts")) ++ ")"))
      | .cName => renderCName v sub
      | .sliceRange => do
        let lower ← renderGiven v sub "lower"
        let upper ← renderGiven v sub "upper"
        let step ← renderGiven v sub "step"
        pure (.text (← joined ", " (sliceItems lower upper step)))
      | .extSlice => do pure (.text (← joined ", " (← renderItems v sub "dims")))
      | .indexSlice => renderField v sub "value"
      | .comprehension => do
        let target ← renderField v sub "target"
        let iter ← renderField v sub "iter"
        let ifs ← (← items (← need v "ifs")).mapM fun p => do
          pure ("if " ++ (← textOf (← sub p)))
        let head := "for " ++ target.plain ++ " in " ++ iter.plain
        pure (.text (if ifs.isEmpty then head else head ++ " " ++ " ".intercalate ifs))
      | .arguments => renderArguments v sub
      | .keyword => do
        let arg ← need v "arg"
        let value ← renderField v sub "value"
        pure (.text (arg.1.plain ++ "=" ++ value.plain))
      | .importedName => do
        let name ← need v "name"
        let asname ← need v "asname"
        pure (if asname.1.isTrue then .text (name.1.plain ++ " as " ++ asname.1.plain) else name.1)
      | .typeName => do
        let const := (← need v "const").1.isTrue
        let name ← textOf (← renderField v sub "name")
        pure (.text (if const then "const " ++ name else name))
      | .cFunctionType => renderFunctionType v sub
      | _ => undefinedNode
where
  /-- Mentions a node for which there is no rule. -/
  undefinedNode : Rendering Value := do
    say ("No renderer for node: `" ++ v.plain ++ "`")
    pure (.text placeholder)

end Step

def render (v : Value) : Rendering Value := renderStep v fun p => render p.1
termination_by v.depth
decreasing_by exact p.2

end PxdGen.Pxd
