/-! # Kinds of pxd nodes

A pxd file is a tree of nodes. Each node has a kind, and most kinds belong to a family: statements,
expressions, C types, operators and so on. Some kinds stand for themselves and have one node each,
such as `pass` or an operator. A node may also be of a family without being more.
-/

namespace PxdGen.Pxd

inductive Family where
  | mod
  | stmt
  | expr
  | exprContext
  | slice
  | boolop
  | operator
  | unaryop
  | cmpop
  | excepthandler
  | cdefmodifier
  | ctype
deriving DecidableEq, Repr

def Family.all : List Family :=
  [.mod, .stmt, .expr, .exprContext, .slice, .boolop, .operator, .unaryop,
    .cmpop, .excepthandler, .cdefmodifier, .ctype]

def Family.label : Family → String
  | .mod => "mod"
  | .stmt => "stmt"
  | .expr => "expr"
  | .exprContext => "expr_context"
  | .slice => "slice"
  | .boolop => "boolop"
  | .operator => "operator"
  | .unaryop => "unaryop"
  | .cmpop => "cmpop"
  | .excepthandler => "excepthandler"
  | .cdefmodifier => "cdefmodifier"
  | .ctype => "ctype"

inductive Kind where
  /-- a node of no family -/
  | anyNode
  /-- a node of a family and no more -/
  | member (family : Family)
  | moduleNode
  | functionDef
  | classDef
  | returnStmt
  | deleteStmt
  | assign
  | augAssign
  | printStmt
  | forLoop
  | whileLoop
  | ifStmt
  | withStmt
  | raiseStmt
  | tryExcept
  | tryFinally
  | assertStmt
  | importStmt
  | importFrom
  | execStmt
  | globalStmt
  | exprStmt
  | passStmt
  | breakStmt
  | continueStmt
  | cdefDecl
  | cpdefDecl
  | cFunctionDecl
  | cFunctionDef
  | cImport
  | cImportFrom
  | cTypedefDecl
  | structDef
  | unionDef
  | enumDef
  | propertyDef
  | externFrom
  | cppClassDef
  | boolOp
  | binOp
  | unaryOp
  | lambdaExpr
  | ifExp
  | dictExpr
  | setExpr
  | listComp
  | setComp
  | dictComp
  | generatorExp
  | yieldExpr
  | compare
  | call
  | reprExpr
  | num
  | str
  | attributeExpr
  | subscript
  | name
  | listExpr
  | tupleExpr
  | cName
  | load
  | store
  | del
  | augLoad
  | augStore
  | param
  | ellipsis
  | sliceRange
  | extSlice
  | indexSlice
  | and
  | or
  | add
  | sub
  | mult
  | div
  | modulo
  | pow
  | lShift
  | rShift
  | bitOr
  | bitXor
  | bitAnd
  | floorDiv
  | invert
  | not
  | uAdd
  | uSub
  | eq
  | notEq
  | lt
  | ltE
  | gt
  | gtE
  | is
  | isNot
  | isIn
  | notIn
  | exceptHandler
  | externMod
  | inlineMod
  | publicMod
  | apiMod
  | typeName
  | cFunctionType
  | pointer
  | array
  | reference
  | comprehension
  | arguments
  | keyword
  | importedName
deriving DecidableEq, Repr

namespace Kind

def label : Kind → String
  | .anyNode => "CWAN"
  | .member family => family.label
  | .moduleNode => "Module"
  | .functionDef => "FunctionDef"
  | .classDef => "ClassDef"
  | .returnStmt => "Return"
  | .deleteStmt => "Delete"
  | .assign => "Assign"
  | .augAssign => "AugAssign"
  | .printStmt => "Print"
  | .forLoop => "For"
  | .whileLoop => "While"
  | .ifStmt => "If"
  | .withStmt => "With"
  | .raiseStmt => "Raise"
  | .tryExcept => "TryExcept"
  | .tryFinally => "TryFinally"
  | .assertStmt => "Assert"
  | .importStmt => "Import"
  | .importFrom => "ImportFrom"
  | .execStmt => "Exec"
  | .globalStmt => "Global"
  | .exprStmt => "Expr"
  | .passStmt => "Pass"
  | .breakStmt => "Break"
  | .continueStmt => "Continue"
  | .cdefDecl => "CdefDecl"
  | .cpdefDecl => "CpdefDecl"
  | .cFunctionDecl => "CFunctionDecl"
  | .cFunctionDef => "CFunctionDef"
  | .cImport => "CImport"
  | .cImportFrom => "CImportFrom"
  | .cTypedefDecl => "CTypedefDecl"
  | .structDef => "StructDef"
  | .unionDef => "UnionDef"
  | .enumDef => "EnumDef"
  | .propertyDef => "Property"
  | .externFrom => "ExternFrom"
  | .cppClassDef => "CppClassDef"
  | .boolOp => "BoolOp"
  | .binOp => "BinOp"
  | .unaryOp => "UnaryOp"
  | .lambdaExpr => "Lambda"
  | .ifExp => "IfExp"
  | .dictExpr => "Dict"
  | .setExpr => "Set"
  | .listComp => "ListComp"
  | .setComp => "SetComp"
  | .dictComp => "DictComp"
  | .generatorExp => "GeneratorExp"
  | .yieldExpr => "Yield"
  | .compare => "Compare"
  | .call => "Call"
  | .reprExpr => "Repr"
  | .num => "Num"
  | .str => "Str"
  | .attributeExpr => "Attribute"
  | .subscript => "Subscript"
  | .name => "Name"
  | .listExpr => "List"
  | .tupleExpr => "Tuple"
  | .cName => "CName"
  | .load => "Load"
  | .store => "Store"
  | .del => "Del"
  | .augLoad => "AugLoad"
  | .augStore => "AugStore"
  | .param => "Param"
  | .ellipsis => "Ellipsis"
  | .sliceRange => "Slice"
  | .extSlice => "ExtSlice"
  | .indexSlice => "Index"
  | .and => "And"
  | .or => "Or"
  | .add => "Add"
  | .sub => "Sub"
  | .mult => "Mult"
  | .div => "Div"
  | .modulo => "Mod"
  | .pow => "Pow"
  | .lShift => "LShift"
  | .rShift => "RShift"
  | .bitOr => "BitOr"
  | .bitXor => "BitXor"
  | .bitAnd => "BitAnd"
  | .floorDiv => "FloorDiv"
  | .invert => "Invert"
  | .not => "Not"
  | .uAdd => "UAdd"
  | .uSub => "USub"
  | .eq => "Eq"
  | .notEq => "NotEq"
  | .lt => "Lt"
  | .ltE => "LtE"
  | .gt => "Gt"
  | .gtE => "GtE"
  | .is => "Is"
  | .isNot => "IsNot"
  | .isIn => "In"
  | .notIn => "NotIn"
  | .exceptHandler => "ExceptHandler"
  | .externMod => "Extern"
  | .inlineMod => "Inline"
  | .publicMod => "Public"
  | .apiMod => "Api"
  | .typeName => "TypeName"
  | .cFunctionType => "CFunctionType"
  | .pointer => "Pointer"
  | .array => "Array"
  | .reference => "Reference"
  | .comprehension => "comprehension"
  | .arguments => "arguments"
  | .keyword => "keyword"
  | .importedName => "alias"

def family? : Kind → Option Family
  | .member family => some family
  | .moduleNode => some .mod
  | .functionDef | .classDef | .returnStmt | .deleteStmt | .assign | .augAssign | .printStmt
  | .forLoop | .whileLoop | .ifStmt | .withStmt | .raiseStmt | .tryExcept | .tryFinally
  | .assertStmt | .importStmt | .importFrom | .execStmt | .globalStmt | .exprStmt | .passStmt
  | .breakStmt | .continueStmt | .cdefDecl | .cpdefDecl | .cFunctionDecl | .cFunctionDef
  | .cImport | .cImportFrom | .cTypedefDecl | .structDef | .unionDef | .enumDef | .propertyDef
  | .externFrom | .cppClassDef => some .stmt
  | .boolOp | .binOp | .unaryOp | .lambdaExpr | .ifExp | .dictExpr | .setExpr | .listComp
  | .setComp | .dictComp | .generatorExp | .yieldExpr | .compare | .call | .reprExpr | .num | .str
  | .attributeExpr | .subscript | .name | .listExpr | .tupleExpr | .cName => some .expr
  | .load | .store | .del | .augLoad | .augStore | .param => some .exprContext
  | .ellipsis | .sliceRange | .extSlice | .indexSlice => some .slice
  | .and | .or => some .boolop
  | .add | .sub | .mult | .div | .modulo | .pow | .lShift | .rShift | .bitOr | .bitXor | .bitAnd
  | .floorDiv => some .operator
  | .invert | .not | .uAdd | .uSub => some .unaryop
  | .eq | .notEq | .lt | .ltE | .gt | .gtE | .is | .isNot | .isIn | .notIn => some .cmpop
  | .exceptHandler => some .excepthandler
  | .externMod | .inlineMod | .publicMod | .apiMod => some .cdefmodifier
  | .typeName | .cFunctionType | .pointer | .array | .reference => some .ctype
  | .anyNode | .comprehension | .arguments | .keyword | .importedName => none

/-- Kinds with a single node, which stands for itself. -/
def isSingle : Kind → Bool
  | .passStmt | .breakStmt | .continueStmt | .load | .store | .del | .augLoad | .augStore | .param
  | .ellipsis | .and | .or | .add | .sub | .mult | .div | .modulo | .pow | .lShift | .rShift
  | .bitOr | .bitXor | .bitAnd | .floorDiv | .invert | .not | .uAdd | .uSub | .eq | .notEq | .lt
  | .ltE | .gt | .gtE | .is | .isNot | .isIn | .notIn | .externMod | .inlineMod | .publicMod
  | .apiMod => true
  | _ => false

def all : List Kind :=
  .anyNode :: Family.all.map .member ++ [
    .moduleNode, .functionDef, .classDef, .returnStmt, .deleteStmt, .assign, .augAssign,
    .printStmt, .forLoop, .whileLoop, .ifStmt, .withStmt, .raiseStmt, .tryExcept, .tryFinally,
    .assertStmt, .importStmt, .importFrom, .execStmt, .globalStmt, .exprStmt, .passStmt,
    .breakStmt, .continueStmt, .cdefDecl, .cpdefDecl, .cFunctionDecl, .cFunctionDef, .cImport,
    .cImportFrom, .cTypedefDecl, .structDef, .unionDef, .enumDef, .propertyDef, .externFrom,
    .cppClassDef, .boolOp, .binOp, .unaryOp, .lambdaExpr, .ifExp, .dictExpr, .setExpr, .listComp,
    .setComp, .dictComp, .generatorExp, .yieldExpr, .compare, .call, .reprExpr, .num, .str,
    .attributeExpr, .subscript, .name, .listExpr, .tupleExpr, .cName, .load, .store, .del,
    .augLoad, .augStore, .param, .ellipsis, .sliceRange, .extSlice, .indexSlice, .and, .or, .add,
    .sub, .mult, .div, .modulo, .pow, .lShift, .rShift, .bitOr, .bitXor, .bitAnd, .floorDiv,
    .invert, .not, .uAdd, .uSub, .eq, .notEq, .lt, .ltE, .gt, .gtE, .is, .isNot, .isIn, .notIn,
    .exceptHandler, .externMod, .inlineMod, .publicMod, .apiMod, .typeName, .cFunctionType,
    .pointer, .array, .reference, .comprehension, .arguments, .keyword, .importedName]

def ofLabel? (label : String) : Option Kind := all.find? (·.label == label)

/-- The labels of a kind and of what it belongs to, the most special one first. -/
def lineage (kind : Kind) : List String :=
  match kind, kind.family? with
  | .anyNode, _ => [kind.label]
  | .member _, _ => [kind.label, Kind.anyNode.label]
  | _, some family => [kind.label, family.label, Kind.anyNode.label]
  | _, none => [kind.label, Kind.anyNode.label]

end Kind

end PxdGen.Pxd
