import PxdGen.Pxd.Check
/-! # Building nodes

Every kind has a signature: the names of its fields, defaults for the last of them, and what is
checked, in this order. `build` makes a node from the values of the fields.
-/

namespace PxdGen.Pxd

inductive Check where
  | field (name : String) (demand : Demand)
  /-- only if the field is not empty -/
  | given (name : String) (demand : Demand)
  /-- as `field`, where the complaint uses another name -/
  | under (name label : String) (demand : Demand)
  | sameLength (a b : String) (complaint : String)
  | nonempty (name : String) (complaint : String)
  /-- if the first field is given, so is the second -/
  | requires (a b : String) (complaint : String)
  /-- cannot be carried out -/
  | impossible (fault : Fault)
deriving Repr

structure Signature where
  required : List String
  defaults : List (String × Value) := []
  checks : List Check := []

open Check

def Kind.signature : Kind → Signature
  | .moduleNode => ⟨["body"], [], [field "body" .stmts]⟩
  | .functionDef =>
    ⟨["name", "args", "body", "decorator_list"], [],
      [field "name" .text, field "body" .stmts, field "args" .arguments,
        field "decorator_list" .exprs]⟩
  | .classDef =>
    ⟨["name", "bases", "body", "decorator_list"], [],
      [field "name" .text, field "bases" .exprs, field "body" .stmts,
        field "decorator_list" .exprs]⟩
  | .returnStmt => ⟨["value"], [], [given "value" .expr]⟩
  | .deleteStmt => ⟨["targets"], [], [field "targets" .exprs]⟩
  | .assign => ⟨["targets", "value"], [], [field "targets" .exprs, field "value" .expr]⟩
  | .augAssign =>
    ⟨["target", "op", "value"], [],
      [field "target" .expr, field "op" .operator, field "value" .expr]⟩
  | .printStmt =>
    ⟨["dest", "values", "nl"], [],
      [given "dest" .expr, field "values" .exprs, field "nl" .flag]⟩
  | .forLoop =>
    ⟨["target", "iter", "body", "orelse"], [],
      [field "target" .expr, field "iter" .expr, field "body" .stmts, field "orelse" .stmts]⟩
  | .whileLoop | .ifStmt =>
    ⟨["test", "body", "orelse"], [],
      [field "test" .expr, field "body" .stmts, field "orelse" .stmts]⟩
  | .withStmt =>
    ⟨["context_expr", "optional_vars", "body"], [],
      [field "context_expr" .expr, given "optional_vars" .expr, field "body" .stmts]⟩
  | .raiseStmt =>
    ⟨["type", "inst", "tback"], [],
      [given "type" .expr, given "inst" .expr, given "tback" .expr]⟩
  | .tryExcept =>
    ⟨["body", "handlers", "orelse"], [],
      [field "body" .stmts, field "handlers" .handlers, field "orelse" .stmts]⟩
  | .tryFinally => ⟨["body", "finalbody"], [], [field "body" .stmts, field "finalbody" .stmts]⟩
  | .assertStmt => ⟨["test", "msg"], [], [field "test" .expr, given "msg" .expr]⟩
  | .importStmt | .cImport => ⟨["names"], [], [field "names" .aliases]⟩
  | .importFrom | .cImportFrom =>
    ⟨["module", "names", "level"], [],
      [given "module" .text, field "names" .aliases, given "level" .int]⟩
  | .execStmt =>
    ⟨["body", "globals", "locals"], [],
      [field "body" .expr, given "globals" .expr, given "locals" .expr]⟩
  | .globalStmt => ⟨["names"], [], [field "names" .texts]⟩
  | .exprStmt | .reprExpr => ⟨["value"], [], [field "value" .expr]⟩
  | .cdefDecl =>
    ⟨["modifiers", "value"], [], [field "modifiers" .modifiers, field "value" .stmt]⟩
  | .cpdefDecl | .cTypedefDecl => ⟨["value"], [], [field "value" .stmt]⟩
  | .cFunctionDecl =>
    ⟨["name", "args", "returns", "excepts"], [],
      [field "name" .text, field "args" .arguments, given "returns" .ctype,
        given "excepts" .expr]⟩
  | .cFunctionDef =>
    ⟨["name", "args", "body", "decorator_list", "returns", "excepts"], [],
      [field "name" .text, field "body" .stmts, field "args" .arguments,
        field "decorator_list" .exprs, given "returns" .ctype, given "excepts" .expr]⟩
  | .structDef | .unionDef | .propertyDef | .externFrom | .cppClassDef =>
    ⟨["name", "body"], [], [field "name" .text, field "body" .stmts]⟩
  | .enumDef => ⟨["name", "body"], [], [given "name" .text, field "body" .stmts]⟩
  | .boolOp => ⟨["op", "values"], [], [field "op" .boolop, field "values" .exprs]⟩
  | .binOp =>
    ⟨["left", "op", "right"], [],
      [field "left" .expr, field "op" .operator, field "right" .expr]⟩
  | .unaryOp => ⟨["op", "operand"], [], [field "op" .unaryop, field "operand" .expr]⟩
  | .lambdaExpr => ⟨["args", "body"], [], [field "args" .arguments, field "body" .expr]⟩
  | .ifExp =>
    ⟨["test", "body", "orelse"], [],
      [field "test" .expr, field "body" .expr, field "orelse" .expr]⟩
  | .dictExpr =>
    ⟨["keys", "values"], [],
      [field "keys" .exprs, field "values" .exprs,
        sameLength "keys" "values" "keys and values not same lenght"]⟩
  | .setExpr =>
    ⟨["elts"], [], [field "elts" .exprs, nonempty "elts" "Set literal cannot be empty."]⟩
  | .listComp | .setComp | .generatorExp =>
    ⟨["elt", "generators"], [], [field "elt" .expr, field "generators" .broken]⟩
  | .dictComp =>
    ⟨["key", "value", "generators"], [],
      [field "key" .expr, field "value" .expr, field "generators" .broken]⟩
  | .yieldExpr => ⟨["value"], [], [given "value" .expr]⟩
  | .compare =>
    ⟨["left", "ops", "comparators"], [],
      [field "left" .expr, under "ops" "op" .cmpops, field "comparators" .exprs,
        sameLength "ops" "comparators" "ops and comparators must have same length"]⟩
  | .call =>
    ⟨["func", "args", "keywords", "starargs", "kwargs"], [],
      [field "func" .expr, field "args" .exprs, field "keywords" .keywords,
        given "starargs" .expr, given "kwargs" .expr]⟩
  | .num => ⟨["n"], [], [field "n" .number]⟩
  | .str => ⟨["s"], [], [field "s" .text]⟩
  | .attributeExpr =>
    ⟨["value", "attr", "ctx"], [],
      [field "value" .expr, field "attr" .text, field "ctx" .context]⟩
  | .subscript =>
    ⟨["value", "slice", "ctx"], [],
      [field "value" .expr, field "slice" .slice, field "ctx" .context]⟩
  | .name => ⟨["id", "ctx"], [], [field "id" .text, field "ctx" .context]⟩
  | .listExpr | .tupleExpr => ⟨["elts", "ctx"], [], [field "elts" .exprs, field "ctx" .context]⟩
  | .cName => ⟨["ctype", "name"], [], [field "ctype" .ctype, field "name" .text]⟩
  | .sliceRange =>
    ⟨["lower", "upper", "step"], [],
      [given "lower" .expr, given "upper" .expr, given "step" .expr]⟩
  | .extSlice => ⟨["dims"], [], [field "dims" .slices]⟩
  | .indexSlice => ⟨["value"], [], [impossible .wrongSort]⟩
  | .comprehension => ⟨["target", "iter", "ifs"], [], [impossible .wrongSort]⟩
  | .exceptHandler =>
    ⟨["type", "name", "body"], [],
      [given "type" .expr, given "name" .expr,
        requires "name" "type" "Cannot have exception name and not type.", field "body" .stmts]⟩
  | .arguments =>
    ⟨["args", "vararg", "kwarg", "defaults"], [],
      [field "args" .exprs, given "vararg" .text, given "kwarg" .text, field "defaults" .exprs]⟩
  | .keyword => ⟨["arg", "value"], [], [field "arg" .text, field "value" .expr]⟩
  | .importedName => ⟨["name", "asname"], [], [impossible .wrongSort]⟩
  | .typeName =>
    ⟨["name"], [("const", .flag false), ("volatile", .flag false)], [field "name" .expr]⟩
  | .cFunctionType =>
    ⟨["args", "returns"], [], [field "args" .arguments, given "returns" .ctype]⟩
  | .pointer =>
    ⟨["value"], [("const", .flag false), ("volatile", .flag false)], [field "value" .ctype]⟩
  | .array => ⟨["value", "dim"], [], [field "value" .ctype, field "dim" .int]⟩
  | .reference => ⟨["value"], [], [field "value" .ctype]⟩
  | _ => ⟨[], [], []⟩

def fieldOf (fields : List (String × Value)) (name : String) : Value :=
  (fields.lookup name).getD .nothing

def Check.run (fields : List (String × Value)) : Check → Except Fault Unit
  | .field name demand => demand.meet (fieldOf fields name) name
  | .given name demand =>
    if (fieldOf fields name).isTrue then demand.meet (fieldOf fields name) name else .ok ()
  | .under name label demand => demand.meet (fieldOf fields name) label
  | .sameLength a b complaint =>
    match (fieldOf fields a).items?, (fieldOf fields b).items? with
    | some xs, some ys => if xs.length = ys.length then .ok () else .error (.refused complaint)
    | _, _ => .error .wrongSort
  | .nonempty name complaint =>
    if (fieldOf fields name).isTrue then .ok () else .error (.refused complaint)
  | .requires a b complaint =>
    if (fieldOf fields a).isTrue && !(fieldOf fields b).isTrue then .error (.refused complaint)
    else .ok ()
  | .impossible fault => .error fault

/-- The fields of a node whose first values are given; the others take their defaults. -/
def Signature.bind? (sig : Signature) (args : List Value) : Option (List (String × Value)) :=
  let names := sig.required ++ sig.defaults.map (·.1)
  if args.length < sig.required.length || names.length < args.length then none
  else some (names.zip args ++ sig.defaults.drop (args.length - sig.required.length))

/-- A new node. Families take anything and keep nothing; single nodes cannot be made anew. -/
def build (kind : Kind) (args : List Value) : Except Fault Value :=
  match kind with
  | .anyNode | .member _ => .ok (.node kind [])
  | _ =>
    if kind.isSingle then .error .wrongSort
    else
      match kind.signature.bind? args with
      | none => .error .wrongSort
      | some fields => do
        kind.signature.checks.forM (·.run fields)
        .ok (.node kind fields)

def single (kind : Kind) : Value := .node kind []

/-- What the name of a kind stands for: its single node, or the kind itself. -/
def named (kind : Kind) : Value := if kind.isSingle then single kind else .ofKind kind

end PxdGen.Pxd
