import PxdGen.Decimal.Shortest
import PxdGen.Fault
import PxdGen.Pxd.Kind
import PxdGen.Text.Quoted
/-! # Values

The fields of nodes hold values: nothing, truth values, numbers, texts, sequences, records, pxd
nodes and links to declarations. Nothing forces a field to hold what its reader expects, so readers
ask.

A pxd node is a value with fields of its own, hence a finite tree. A declaration lives in a graph
where it may be changed and reached in several ways, and a value only links to it by its number.
-/

namespace PxdGen

open Decimal (Binary)

inductive Value where
  | nothing
  | flag (b : Bool)
  | int (n : Int)
  | float (x : Binary)
  | text (s : String)
  | list (items : List Value)
  | tuple (items : List Value)
  /-- values under names -/
  | record (fields : List (String × Value))
  /-- a declaration, by its number in the graph -/
  | link (id : Nat)
  | node (kind : Pxd.Kind) (fields : List (String × Value))
  /-- a kind of nodes itself -/
  | ofKind (kind : Pxd.Kind)
deriving Inhabited, Repr

namespace Value

mutual

/-- Whether two values are equal; numbers compare by value, and a truth value is a number. -/
def same : Value → Value → Bool
  | .nothing, .nothing => true
  | .flag a, .flag b => a == b
  | .flag a, .int n | .int n, .flag a => n == if a then 1 else 0
  | .int a, .int b => a == b
  | .float a, .float b => a == b
  | .text a, .text b => a == b
  | .list a, .list b | .tuple a, .tuple b => sameAll a b
  | .record a, .record b => a.length == b.length && sameFields a b
  | .link a, .link b => a == b
  | .ofKind a, .ofKind b => a == b
  | _, _ => false

def sameAll : List Value → List Value → Bool
  | [], [] => true
  | a :: as, b :: bs => same a b && sameAll as bs
  | _, _ => false

/-- Whether the fields of a record are fields of another one too. -/
def sameFields : List (String × Value) → List (String × Value) → Bool
  | [], _ => true
  | (name, v) :: rest, others =>
    (match others.lookup name with
      | some w => same v w
      | none => false) && sameFields rest others

end

/-- Emptiness, zero and nothing count as false. -/
def isTrue : Value → Bool
  | .nothing => false
  | .flag b => b
  | .int n => n != 0
  | .float x => !x.isZero
  | .text s => !s.isEmpty
  | .list items | .tuple items => !items.isEmpty
  | .record fields => !fields.isEmpty
  | .link _ | .node _ _ | .ofKind _ => true

mutual

def depth : Value → Nat
  | .list items | .tuple items => depths items + 1
  | .record fields | .node _ fields => depthsOf fields + 1
  | _ => 0

def depths : List Value → Nat
  | [] => 0
  | v :: rest => max (depth v) (depths rest)

def depthsOf : List (String × Value) → Nat
  | [] => 0
  | (_, v) :: rest => max (depth v) (depthsOf rest)

end

theorem depth_le_depths {v : Value} {items : List Value} (h : v ∈ items) :
    v.depth ≤ depths items := by
  induction items with
  | nil => simp at h
  | cons w rest ih =>
    simp only [depths]
    rcases List.mem_cons.1 h with rfl | h
    · exact Nat.le_max_left _ _
    · exact Nat.le_trans (ih h) (Nat.le_max_right _ _)

/-- A value that is less deeply nested than `v`. -/
abbrev Part (v : Value) := { w : Value // w.depth < v.depth }

/-- The value under a name in a list of fields. -/
def lookupPart? (name : String) :
    (fields : List (String × Value)) → Option { w : Value // w.depth ≤ depthsOf fields }
  | [] => none
  | (n, v) :: rest =>
    if n == name then some ⟨v, by simp only [depthsOf]; omega⟩
    else (lookupPart? name rest).map fun ⟨w, h⟩ => ⟨w, by simp only [depthsOf]; omega⟩

def putField (name : String) (v : Value) : List (String × Value) → List (String × Value)
  | [] => [(name, v)]
  | (n, w) :: rest => if n == name then (n, v) :: rest else (n, w) :: putField name v rest

def field? (v : Value) (name : String) : Option (Part v) :=
  match v with
  | .node _ fields => (lookupPart? name fields).map fun ⟨w, h⟩ => ⟨w, by simp only [depth]; omega⟩
  | _ => none

/-- What a sequence holds; the parts of a text are its characters, those of a record its names. -/
def items? (v : Value) : Option (List Value) :=
  match v with
  | .list items | .tuple items => some items
  | .record fields => some (fields.map fun (name, _) => .text name)
  | .text s => some (s.toList.map fun c => .text c.toString)
  | _ => none

def Part.items? {v : Value} (p : Part v) : Option (List (Part v)) :=
  match p with
  | ⟨.list items, h⟩ | ⟨.tuple items, h⟩ =>
    some (items.attach.map fun ⟨w, hw⟩ => ⟨w, by
      have := depth_le_depths hw
      simp only [depth] at h
      omega⟩)
  | ⟨.record fields, h⟩ =>
    some (fields.map fun (name, _) => ⟨.text name, by simp only [depth] at *; omega⟩)
  | ⟨.text s, h⟩ =>
    some (s.toList.map fun c => ⟨.text c.toString, by simp only [depth] at *; omega⟩)
  | _ => none

def kind? : Value → Option Pxd.Kind
  | .node kind _ => some kind
  | _ => none

def isNode (v : Value) (kind : Pxd.Kind) : Bool := v.kind? == some kind

def isOf (v : Value) (family : Pxd.Family) : Bool :=
  match v with
  | .node kind _ => kind.family? == some family
  | _ => false

def sort : Value → String
  | .nothing => "NoneType"
  | .flag _ => "bool"
  | .int _ => "int"
  | .float _ => "float"
  | .text _ => "str"
  | .list _ => "list"
  | .tuple _ => "tuple"
  | .record _ => "dict"
  | .link _ => "object"
  | .node kind _ => "cwrap.backend.cw_ast." ++ kind.label
  | .ofKind _ => "type"

mutual

def literal (link : Nat → String) : Value → String
  | .nothing => "None"
  | .flag b => if b then "True" else "False"
  | .int n => Text.ofInt n
  | .float x => x.text
  | .text s => Text.quoted s
  | .list items => "[" ++ ", ".intercalate (literals link items) ++ "]"
  | .tuple [v] => "(" ++ literal link v ++ ",)"
  | .tuple items => "(" ++ ", ".intercalate (literals link items) ++ ")"
  | .record fields => "\x7b" ++ ", ".intercalate (fieldLiterals link fields) ++ "\x7d"
  | .link id => link id
  | .node kind _ => "<cwrap.backend.cw_ast." ++ kind.label ++ " object>"
  | .ofKind kind => "<class 'cwrap.backend.cw_ast." ++ kind.label ++ "'>"

def literals (link : Nat → String) : List Value → List String
  | [] => []
  | v :: rest => literal link v :: literals link rest

def fieldLiterals (link : Nat → String) : List (String × Value) → List String
  | [] => []
  | (name, v) :: rest => (Text.quoted name ++ ": " ++ literal link v) :: fieldLiterals link rest

end

def display (link : Nat → String) : Value → String
  | .text s => s
  | v => literal link v

/-- The printed form of a value that has no links. -/
def plain (v : Value) : String := v.display fun _ => "<object>"

mutual

/-- Values that a table can have as keys: those without lists and records. -/
def isKey : Value → Bool
  | .list _ | .record _ => false
  | .tuple items => areKeys items
  | _ => true

def areKeys : List Value → Bool
  | [] => true
  | v :: rest => isKey v && areKeys rest

end

def asText? : Value → Option String
  | .text s => some s
  | _ => none

/-- Whether a value is no integer that is too long to be written. -/
def isWritable : Value → Bool
  | .int n => Text.isWritable n
  | _ => true

def length? : Value → Option Nat
  | .text s => some s.length
  | .list items | .tuple items => some items.length
  | .record fields => some fields.length
  | _ => none

def asInt? : Value → Option Int
  | .int n => some n
  | .flag b => some (if b then 1 else 0)
  | _ => none

end Value

end PxdGen
