import PxdGen.Value
/-! # Checks on the parts of nodes

A node is built from values that its kind restricts: a body holds statements, a name is a text. A
`Demand` says what one value has to be, or all items of a sequence, and words the complaint if it is
not. Two demands can never be met, because what they refer to is not there.
-/

namespace PxdGen.Pxd

inductive Want where
  | family (family : Family)
  | kind (kind : Kind)
  | text
  | flag
  | int
  | number
deriving DecidableEq, Repr

def Want.admits : Want → Value → Bool
  | .family f, v => v.isOf f
  | .kind k, v => v.isNode k
  | .text, .text _ => true
  | .flag, .flag _ => true
  | .int, v => v.asInt?.isSome
  | .number, .float _ => true
  | .number, v => v.asInt?.isSome
  | _, _ => false

inductive Demand where
  /-- the value itself, with the words for it -/
  | one (want : Want) (words : String)
  /-- every item of the value -/
  | every (want : Want) (words : String)
  /-- the value itself, where the complaint is the bare name -/
  | bare (want : Want)
  /-- the value itself, without words -/
  | silent (want : Want)
  /-- refers to something undefined -/
  | broken
deriving DecidableEq, Repr

namespace Demand

def meet (d : Demand) (v : Value) (name : String) : Except Fault Unit :=
  match d with
  | .one want words =>
    if want.admits v then .ok () else .error (.refused (name ++ " must be " ++ words ++ "."))
  | .every want words =>
    match v.items? with
    | none => .error .wrongSort
    | some items =>
      if items.all want.admits then .ok ()
      else .error (.refused (name ++ " must be " ++ words ++ "."))
  | .bare want =>
    if want.admits v then .ok ()
    else .error (if name.isEmpty then .unmet else .refused name)
  | .silent want => if want.admits v then .ok () else .error .unmet
  | .broken => .error .undefinedName

def stmt : Demand := .one (.family .stmt) "a stmt node"
def stmts : Demand := .every (.family .stmt) "stmt nodes"
def expr : Demand := .one (.family .expr) "an expr node"
def exprs : Demand := .every (.family .expr) "expr nodes"
def arguments : Demand := .bare (.kind .arguments)
def operator : Demand := .one (.family .operator) "an operator node"
def handler : Demand := .one (.family .excepthandler) "an excepthandler node"
def handlers : Demand := .every (.family .excepthandler) "excepthandler nodes"
def importedName : Demand := .one (.kind .importedName) "an alias node"
def aliases : Demand := .every (.kind .importedName) "alias nodes"
def boolop : Demand := .one (.family .boolop) "a boolop node"
def unaryop : Demand := .one (.family .unaryop) "a unaryop node"
def cmpops : Demand := .every (.family .cmpop) "cmpop nodes"
def keywords : Demand := .every (.kind .keyword) "keyword nodes"
def comprehension : Demand := .one (.kind .comprehension) "a comprehension node"
def context : Demand := .silent (.family .exprContext)
def slice : Demand := .one (.family .slice) "a slice node"
def slices : Demand := .every (.family .slice) "slice nodes"
def text : Demand := .one .text "a string"
def texts : Demand := .every .text "strings"
def flag : Demand := .one .flag "a boolean"
def int : Demand := .one .int "an int"
def number : Demand := .one .number "a number"
def modifiers : Demand := .every (.family .cdefmodifier) "cdefmodifier nodes"
def ctype : Demand := .one (.family .ctype) "a ctype node"

def named? (name : String) : Option Demand :=
  [("mod", broken), ("stmt", stmt), ("stmts", stmts), ("expr", expr), ("exprs", exprs),
    ("arguments", arguments), ("operator", operator), ("excepthandler", handler),
    ("excepthandlers", handlers), ("alias", importedName), ("aliases", aliases), ("boolop", boolop),
    ("unaryop", unaryop), ("cmpops", cmpops), ("keywords", keywords),
    ("comprehension", comprehension), ("comprehensions", broken), ("expr_context", context),
    ("slice", slice), ("slices", slices), ("str", text), ("strs", texts), ("bool", flag),
    ("int", int), ("num", number), ("basestring", text), ("cdefmodifiers", modifiers),
    ("ctype", ctype)].lookup name

end Demand

end PxdGen.Pxd
