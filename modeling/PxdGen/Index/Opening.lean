import PxdGen.Decl.Session
import PxdGen.Index.Tree
/-! # Opening a unit

A compilation unit comes from parsing a source file, some of which may be given by their contents,
or from loading what was parsed before. Options and contents have to be bytes: those that are still
texts are refused.
-/

namespace PxdGen.Index

open Decl Decl.Work

structure Source where
  path : Option String := none
  args : List String := []
  /-- names of files with their contents; contents that are not there are refused -/
  unsaved : List (String × Option String) := []
  options : Int := 0
  /-- whether options, names and contents are texts -/
  isText : Bool := false
deriving Repr

/-- The contents of files, all of which have to be there. -/
def contents : List (String × Option String) → Except Fault (List (String × String))
  | [] => .ok []
  | (name, some text) :: rest => do .ok ((name, text) :: (← contents rest))
  | (_, none) :: _ => .error .wrongSort

/-- What is read of bytes that are handed over without their length: a zero ends them. -/
def zeroEnded (s : String) : String := String.ofList (s.toList.takeWhile (·.toNat != 0))

def parse (source : Source) (answer : Option Tree) : Work Tree := do
  if source.isText && !(source.args.isEmpty && source.unsaved.isEmpty) then throw .wrongSort
  let files ← check (contents source.unsaved)
  call (.parse source.path source.args source.options (some files))
  match answer with
  | none => throw .notParsed
  | some tree => pure tree

def load (path : String) (answer : Option Tree) : Work Tree := do
  call (.load path)
  match answer with
  | none => throw (.notLoaded path)
  | some tree => pure tree

/-- An index that was opened for parsing cannot load anything. -/
def reload (_path : String) : Work Tree := throw .missingField

/-- A unit in short: the kind of its root, and the spellings of what is directly below it. -/
def Tree.digest (tree : Tree) : Except Fault (Kind × List (Option String)) := do
  let kind ← tree.kind (.numbered tree.root)
  let names ← (tree.cursor (.numbered tree.root)).children.mapM fun c => tree.spelling (.numbered c)
  .ok (kind, names)

end PxdGen.Index
