import PxdGen.Index.Method
/-! # Queries

A query asks for something about what a target means: an attribute, the answer of a method, its
length or words, whether it is the same as something else. What a target has been found to mean is
kept, so that it is found only once.
-/

namespace PxdGen.Index

structure Query where
  target : Target
  name : String
  /-- the arguments of a method -/
  args : Option (List Argument) := none

section Meaning

variable (h : Holdings)

def Object.ask (o : Object) (name : String) (args : Option (List Object)) : Ask Object :=
  match args with
  | none => Ask.ofExcept (o.attribute h name)
  | some args => o.call h name args

/-- Finds an object and keeps it for a target, unless it is kept already. -/
def keeping (t : Target) (find : Ask Object) : Ask Object := do
  match (← get).kept.find? fun (kept, _) => kept.same t with
  | some (_, o) => pure o
  | none => do
    let o ← find
    modify fun d => { d with kept := (t, o) :: d.kept }
    pure o

def Target.becomes (t : Target) (f : Object → Object) : Ask Unit :=
  modify fun d =>
    { d with kept := d.kept.map fun (kept, o) => if kept.same t then (kept, f o) else (kept, o) }

mutual

def Target.meaning : Target → Ask Object
  | .cursor i => pure (.cursor (.numbered i) true)
  | .type i => pure (.type (some i))
  | .diagnostic i => Ask.ofExcept (Object.diagnostics.item h (.int i))
  | .unit => pure .unit
  | .sort name => if sortNames.contains name then pure (.sort name) else throw .missingField
  | .part whole name args isList => keeping (.part whole name args isList) do
    let o ← whole.meaning
    let found ← match args with
      | none => o.ask h name none
      | some args => do o.ask h name (some (← argumentMeanings args))
    if isList then do pure (.list (← Ask.ofExcept (found.listed h))) else pure found
  | .item whole index => keeping (.item whole index) do
    let o ← whole.meaning
    if index.asInt?.any (0 ≤ ·) then whole.becomes (Object.counted h)
    Ask.ofExcept (o.item h index)

def Argument.meaning : Argument → Ask Object
  | .value v => pure (.value v)
  | .bytes s => pure (.bytes s)
  | .reader content isText => pure (.reader content isText)
  | .list items => do pure (.list (← argumentMeanings items))
  | .target t => t.meaning

def argumentMeanings : List Argument → Ask (List Object)
  | [] => pure []
  | a :: rest => do
    let o ← a.meaning
    pure (o :: (← argumentMeanings rest))

end

end Meaning

/-- Whether the object of a query is the same as that of its argument. The object of a target is
always the same. -/
def Query.isSame (h : Holdings) (q : Query) (o : Object) : List Argument → Ask Bool
  | [.target t] => do
    let other ← t.meaning h
    Ask.ofExcept (if q.target.same t then o.sameAsItself h else o.same h other)
  | _ => throw .wrongSort

/-- The number of the arguments of a function type, and the one with an index. -/
def argumentWithCount (h : Holdings) (o : Object) (index : Object) : Ask Object := do
  let arguments ← o.invoke h "argument_types" []
  let count ← Ask.ofExcept (arguments.length h)
  match index with
  | .value v => do pure (.list [.int count, ← Ask.ofExcept (arguments.item h v)])
  | _ => throw .indexSort

def Query.answer (holdings : Holdings) (q : Query) : Ask Object := do
  let h := (← get).kinds.foldl Holdings.withKinds holdings
  let o ← q.target.meaning h
  match q.name, q.args with
  | "self", _ => do
    q.target.becomes (Object.gone h)
    pure o
  | "len", _ => do
    q.target.becomes (Object.counted h)
    pure (.int (← Ask.ofExcept (o.length h)))
  | "str", _ => do pure (.text (← Ask.ofExcept (o.display h)))
  | "eq", some args => do pure (.flag (← q.isSame h o args))
  | "ne", some args => do pure (.flag !(← q.isSame h o args))
  | "arg_types", some [arg] => do argumentWithCount h o (← arg.meaning h)
  | name, none => o.ask h name none
  | name, some args => do
    let args ← argumentMeanings h args
    if ["index", "count", "__len__", "__getitem__", "__contains__"].contains name then
      q.target.becomes (Object.counted h)
    o.ask h name (some args)

end PxdGen.Index
