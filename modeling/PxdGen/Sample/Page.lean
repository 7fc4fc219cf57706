import PxdGen.Pxd.Build
/-! # A sample page

A module that has a statement of every kind, for trying the renderer. A page of a given size repeats
a few statements behind these until it is long enough.

The nodes are put together without any checks, since some of them, such as the names of an import,
cannot be built from parts at all.
-/

namespace PxdGen.Sample

open Pxd (Kind single)

def node (kind : Kind) (args : List Value) : Value :=
  .node kind ((kind.signature.bind? args).getD [])

/-! ### Expressions -/

def nameExpr (id : String) : Value := node .name [.text id, single .load]

def number (n : Int) : Value := node .num [.int n]

def quote (s : String) : Value := node .str [.text s]

def expression (v : Value) : Value := node .exprStmt [v]

/-- Named arguments, the last of which have defaults. -/
def arguments (args : List Value) (defaults : List Value := []) : Value :=
  node .arguments [.list args, .nothing, .nothing, .list defaults]

def aliasOf (name : String) (asname : Value := .nothing) : Value :=
  node .importedName [.text name, asname]

def comparison (left : Value) (ops : List Kind) (comparators : List Value) : Value :=
  node .compare [left, .list (ops.map single), .list comparators]

def unary (op : Kind) : Value := node .unaryOp [single op, number 1]

def chain : Value :=
  let ops : List Kind := [.add, .sub, .mult, .div, .modulo, .pow, .lShift, .rShift, .bitOr, .bitAnd,
    .floorDiv]
  ops.foldl (fun left op => node .binOp [left, single op, number 1]) (nameExpr "v")

def comparisons : Value :=
  let ops : List Kind := [.eq, .notEq, .lt, .ltE, .gt, .gtE, .is, .isNot, .isIn, .notIn]
  comparison (nameExpr "a") ops ((List.range ops.length).map fun i : Nat => number i)

def element (slice : Value) : Value := node .subscript [nameExpr "arr", slice, single .load]

def slice (lower upper step : Value) : Value := node .sliceRange [lower, upper, step]

def elements : List Value :=
  let gap := Value.nothing
  [slice (number 1) (number 2) (number 3), slice gap (number 5) gap, node .indexSlice [number 1],
    slice (number 1) gap (number 9), slice gap gap (number 2), slice gap gap gap,
    single .ellipsis, node .extSlice [.list [slice gap gap gap, single .ellipsis]]].map element

def calls : List Value :=
  [node .call [nameExpr "f", .list [number 1], .list [node .keyword [.text "k", number 2]],
      nameExpr "args", nameExpr "kw"],
    node .call [nameExpr "f", .list [], .list [], .nothing, .nothing]]

def displays : List Value :=
  [node .lambdaExpr [arguments [nameExpr "x"], nameExpr "x"],
    node .ifExp [nameExpr "c", number 1, number 2],
    node .dictExpr [.list [quote "k"], .list [number 1]],
    node .setExpr [.list [number 1, number 2]],
    node .listExpr [.list [number 1, number (-2)], single .load],
    node .tupleExpr [.list [nameExpr "a", nameExpr "b"], single .load],
    node .attributeExpr [nameExpr "obj", .text "attr", single .load]]

def expressions : List Value :=
  ([chain] ++ [Kind.invert, .not, .uAdd, .uSub].map unary ++ displays ++ elements ++ calls).map
    expression

/-! ### Declarations -/

def typeOf (name : String) (const : Bool := false) : Value :=
  node .typeName [nameExpr name, .flag const]

def pointerTo (type : Value) (const : Bool := false) : Value := node .pointer [type, .flag const]

def int : Value := typeOf "int"

def typed (type : Value) (name : String) : Value := node .cName [type, .text name]

def declared (type : Value) (name : String) : Value := expression (typed type name)

def cdef (v : Value) (modifiers : List Kind := []) : Value :=
  node .cdefDecl [.list (modifiers.map single), v]

def ctypedef (type : Value) (name : String) : Value := node .cTypedefDecl [declared type name]

def block (kind : Kind) (name : Value) (body : List Value) : Value :=
  node kind [name, .list body]

def pass : Value := single .passStmt

def parameters : Value := arguments [typed int "a", typed (pointerTo int) "b"]

def callback : Value := node .cFunctionType [parameters, pointerTo (typeOf "void")]

def prototype (name : String) (args returns : Value) (excepts : Value := .nothing) : Value :=
  node .cFunctionDecl [.text name, args, returns, excepts]

def constants (names : List String) : List Value := names.map fun name => expression (nameExpr name)

def records : List Value :=
  [cdef (block .structDef (.text "S0")
      [declared int "x", declared (pointerTo int) "p",
        declared (node .array [pointerTo (typeOf "double" true), .int 10]) "arr"]),
    cdef (block .unionDef (.text "U0")
      [declared (typeOf "double" true) "d", declared (node .reference [int]) "r"]),
    cdef (block .enumDef (.text "E0") (constants ["RED", "GREEN", "BLUE"])),
    cdef (block .enumDef .nothing (constants ["ANON"])),
    block .enumDef (.text "E1") (constants ["X"]),
    block .enumDef .nothing (constants ["Y"]),
    block .structDef (.text "Sbare") [pass],
    block .unionDef (.text "Ubare") [pass],
    cdef (block .cppClassDef (.text "Klass")
      [prototype "method" (arguments [typed int "n"]) (pointerTo int), pass]),
    block .cppClassDef (.text "BareKlass") [pass]]

/-- The declarations of a C header. -/
def header : Value :=
  cdef (block .externFrom (.text "header.h") (records ++
    [ctypedef int "my_int", ctypedef callback "callback_t",
      ctypedef (pointerTo (typeOf "char") true) "cstr",
      prototype "frob" parameters callback,
      prototype "frob2" (arguments []) (pointerTo int) (number (-1)),
      cdef (prototype "inl" (arguments []) .nothing) [.externMod, .inlineMod]]))

def declarations : List Value :=
  [header, block .externFrom (.text "other.h") [pass],
    node .cpdefDecl [prototype "cpd" (arguments []) int],
    cdef (declared int "pubvar") [.publicMod, .apiMod]]

/-! ### Statements -/

def imports : List Value :=
  [node .importStmt [.list [aliasOf "os", aliasOf "sys" (.text "system")]],
    node .importFrom [.text "pkg", .list [aliasOf "thing" (.text "t")], .int 1],
    node .importFrom [.nothing, .list [aliasOf "x"], .nothing],
    node .cImport [.list [aliasOf "numpy" (.text "np")]],
    node .cImportFrom [.text "libc.stdlib", .list [aliasOf "malloc"], .nothing],
    node .cImportFrom [.nothing, .list [aliasOf "free"], .int 2]]

def function (name : String) (args : Value) (body : List Value) (decorators : List Value := []) :
    Value :=
  node .functionDef [.text name, args, .list body, .list decorators]

def returns (v : Value) : Value := node .returnStmt [v]

def definitions : List Value :=
  let x := nameExpr "x"
  let y := nameExpr "y"
  let self := nameExpr "self"
  [function "fn" (arguments [self, x] [number 1])
      [node .assign [.list [y], node .binOp [x, single .add, number 2]],
        node .augAssign [y, single .mult, number 3],
        node .printStmt [nameExpr "sys", .list [quote "hi", y], .flag false],
        node .printStmt [.nothing, .list [quote "ok"], .flag true],
        node .deleteStmt [.list [y]],
        node .globalStmt [.list [.text "g1", .text "g2"]],
        expression (node .yieldExpr [x]), expression (node .yieldExpr [.nothing]),
        expression (node .reprExpr [x]), returns x, returns .nothing]
      [nameExpr "staticmethod"],
    node .classDef [.text "MyCls", .list [nameExpr "object"],
      .list [function "__init__" (arguments [self]) [pass],
        block .propertyDef (.text "val")
          [function "__get__" (arguments [self]) [returns (number 0)]]],
      .list [nameExpr "register"]]]

def branches : List Value :=
  let loop (body orelse : List Value) : Value :=
    node .forLoop [nameExpr "i", nameExpr "rng", .list body, .list orelse]
  let whilst (op : Kind) (orelse : List Value) : Value :=
    node .whileLoop [node .boolOp [single op, .list [nameExpr "a", nameExpr "b"]], .list [pass],
      .list orelse]
  let within (v : Value) : Value := node .withStmt [nameExpr "ctx", v, .list [pass]]
  [node .ifStmt [comparisons, .list [pass, single .breakStmt], .list [single .continueStmt]],
    loop [expression (number 1)] [expression (number 2)], loop [pass] [],
    whilst .and [pass], whilst .or [], within (nameExpr "v"), within .nothing]

def handler (type name : Value) : Value := node .exceptHandler [type, name, .list [pass]]

def exceptions : List Value :=
  let bare := handler .nothing .nothing
  [node .raiseStmt [nameExpr "Exc", quote "msg", .nothing],
    node .raiseStmt [.nothing, .nothing, .nothing],
    node .tryExcept [.list [pass],
      .list [handler (nameExpr "ValueError") (nameExpr "e"),
        handler (nameExpr "TypeError") .nothing,
        bare],
      .list [pass]],
    node .tryExcept [.list [pass], .list [bare], .list []],
    node .tryFinally [.list [pass], .list [pass]],
    node .assertStmt [nameExpr "x", quote "bad"],
    node .assertStmt [nameExpr "x", .nothing],
    node .execStmt [quote "code", nameExpr "g", nameExpr "l"],
    node .execStmt [quote "code", .nothing, .nothing]]

def statements : List Value :=
  imports ++ declarations ++ definitions ++ branches ++ exceptions ++ expressions

def refrain : List Value :=
  [cdef (block .structDef (.text "Sx") [declared (pointerTo (node .array [int, .int 4])) "m"]),
    ctypedef callback "cb",
    function "g" (arguments [nameExpr "x"])
      [returns (node .binOp [nameExpr "x", single .add, number 1])],
    expression (comparison (nameExpr "a") [.lt, .gt] [number 1, number 2])]

def page (size : Nat) : Value :=
  let repeated := (List.range (size - statements.length)).map fun i =>
    refrain.getD (i % refrain.length) pass
  node .moduleNode [.list (statements ++ repeated)]

end PxdGen.Sample
