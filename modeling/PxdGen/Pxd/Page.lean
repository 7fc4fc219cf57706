import PxdGen.Text.Lines
import PxdGen.Value
/-! # Pages

A page is text that is written from top to bottom at a current indentation level. What is read off
it has a heading in front that names the program that wrote it.
-/

namespace PxdGen

def version : String := "0.0.0"

namespace Pxd

def heading : String :=
  "# This code was automatically generated by CWrap version " ++ version ++ "\n\n"

structure Page where
  body : String := ""
  level : Int := 0
  /-- whether the level has been changed by a number that is not whole -/
  isUneven : Bool := false
deriving Repr, DecidableEq

/-- Why a text of some length cannot be repeated so often, if it cannot: it is counted how long it
gets, but not whether it can be kept. -/
def repeatFault? (length : Nat) (n : Int) : Option Fault :=
  if n < -Int.pow 2 63 || Int.pow 2 63 ≤ n * max 1 length then some .tooLarge else none

namespace Page

def empty : Page := {}

/-- One step of indentation is four spaces. -/
def step : String := "    "

/-- The spaces before a line; below level zero there are none. -/
def margin (level : Int) : String := Text.copies step level

def indent (p : Page) (n : Int) : Page := { p with level := p.level + n }

def dedent (p : Page) (n : Int) : Page := { p with level := p.level - n }

def write (p : Page) (s : String) : Page := { p with body := p.body ++ s }

/-- Writes the lines of a text, each behind the margin, without a line end after the last. -/
def writeLines (p : Page) (s : String) : Page :=
  p.write ("\n".intercalate ((Text.lines s).map (margin p.level ++ ·)))

/-- Why lines cannot be written at the current level, if they cannot. -/
def marginFault? (p : Page) : Option Fault :=
  if p.isUneven then some .wrongSort else repeatFault? step.length p.level

def newline (p : Page) (n : Int) : Page := p.write (Text.copies "\n" n)

def text (p : Page) : String := heading ++ p.body

/-- Changes the level by a number; one that is not whole makes it uneven. -/
def shift (p : Page) (v : Value) (change : Int → Page) : Except Fault Page :=
  match v, v.asInt? with
  | .float _, _ => .ok { p with isUneven := true }
  | _, some n => .ok (change n)
  | _, none => .error .wrongSort

/-- Carries out an instruction that is given by name, with its arguments. -/
def perform (p : Page) (instruction : String) (args : List Value) : Except Fault (Value × Page) :=
  match instruction, args with
  | "indent", [] => .ok (.nothing, p.indent 1)
  | "indent", [v] => (p.shift v p.indent).map (.nothing, ·)
  | "dedent", [] => .ok (.nothing, p.dedent 1)
  | "dedent", [v] => (p.shift v p.dedent).map (.nothing, ·)
  | "write_i", [v] =>
    match p.marginFault?, v with
    | some f, _ => .error f
    | none, .text s => .ok (.nothing, p.writeLines s)
    | none, _ => .error .missingField
  | "write", [v] =>
    match v with
    | .text s => .ok (.nothing, p.write s)
    | _ => .error .wrongSort
  | "newline", [] => .ok (.nothing, p.newline 1)
  | "newline", [v] =>
    match v.asInt? with
    | some n =>
      match repeatFault? 1 n with
      | some f => .error f
      | none => .ok (.nothing, p.newline n)
    | none => .error .wrongSort
  | "getvalue", [] => .ok (.text p.text, p)
  | name, _ =>
    if ["indent", "dedent", "write_i", "write", "newline", "getvalue"].contains name
    then .error .wrongSort else .error .missingField

end Page

end Pxd

end PxdGen
