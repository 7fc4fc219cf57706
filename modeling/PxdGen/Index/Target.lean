import PxdGen.Value
/-! # Targets

A target says which object of a unit is meant: one of its cursors, types or diagnostics, the unit
itself, a sort of objects, or an attribute or an item of what another target means. Attributes that
are methods have arguments, which can be targets again.
-/

namespace PxdGen.Index

mutual

inductive Target where
  | cursor (index : Nat)
  | type (index : Nat)
  | diagnostic (index : Int)
  | unit
  | sort (name : String)
  /-- an attribute, which is called if there are arguments, and may be wanted as a list -/
  | part (whole : Target) (name : String) (args : Option (List Argument)) (isList : Bool)
  | item (whole : Target) (index : Value)

inductive Argument where
  | value (v : Value)
  | bytes (text : String)
  /-- a file that is open for reading -/
  | reader (content : String) (isText : Bool)
  | list (items : List Argument)
  | target (t : Target)

end

instance : Inhabited Target := ⟨.unit⟩

instance : Inhabited Argument := ⟨.value .nothing⟩

mutual

def Target.same : Target → Target → Bool
  | .cursor a, .cursor b => a == b
  | .type a, .type b => a == b
  | .diagnostic a, .diagnostic b => a == b
  | .unit, .unit => true
  | .sort a, .sort b => a == b
  | .part a n none l, .part b n' none l' => a.same b && n == n' && l == l'
  | .part a n (some as) l, .part b n' (some bs) l' =>
    a.same b && n == n' && l == l' && sameArguments as bs
  | .item a i, .item b j => a.same b && i.same j
  | _, _ => false

def Argument.same : Argument → Argument → Bool
  | .value a, .value b => a.same b
  | .bytes a, .bytes b => a == b
  | .reader a b, .reader c d => a == c && b == d
  | .list as, .list bs => sameArguments as bs
  | .target a, .target b => a.same b
  | _, _ => false

def sameArguments : List Argument → List Argument → Bool
  | [], [] => true
  | a :: as, b :: bs => a.same b && sameArguments as bs
  | _, _ => false

end

end PxdGen.Index
