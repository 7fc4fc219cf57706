import PxdGen.Text.Blank
/-! # Integers in text

An integer is read from text as an optional sign and decimal digits of any script, with single
underscores allowed between digits and white space allowed around the whole. Written integers use
ASCII digits and a minus sign. Integers of more than 4300 digits are neither read nor written.
-/

namespace PxdGen.Text

/-- The code points of the zero of each of Unicode 14's decimal digit scripts; the other nine digits
follow it. -/
def digitZeros : List Nat := [
  0x30, 0x660, 0x6F0, 0x7C0, 0x966, 0x9E6, 0xA66, 0xAE6, 0xB66, 0xBE6, 0xC66, 0xCE6, 0xD66, 0xDE6,
  0xE50, 0xED0, 0xF20, 0x1040, 0x1090, 0x17E0, 0x1810, 0x1946, 0x19D0, 0x1A80, 0x1A90, 0x1B50,
  0x1BB0, 0x1C40, 0x1C50, 0xA620, 0xA8D0, 0xA900, 0xA9D0, 0xA9F0, 0xAA50, 0xABF0, 0xFF10, 0x104A0,
  0x10D30, 0x11066, 0x110F0, 0x11136, 0x111D0, 0x112F0, 0x11450, 0x114D0, 0x11650, 0x116C0,
  0x11730, 0x118E0, 0x11950, 0x11C50, 0x11D50, 0x11DA0, 0x16A60, 0x16AC0, 0x16B50, 0x1D7CE,
  0x1D7D8, 0x1D7E2, 0x1D7EC, 0x1D7F6, 0x1E140, 0x1E2F0, 0x1E950, 0x1FBF0]

/-- The value of a decimal digit of any script. -/
def digitValue? (c : Char) : Option Nat :=
  if c.isDigit then some (c.toNat - 48)
  else
    digitZeros.findSome? fun z =>
      if z ≤ c.toNat ∧ c.toNat < z + 10 then some (c.toNat - z) else none

/-- White space, as Unicode lists it. -/
def isSpace (c : Char) : Bool := isBlank c && !(28 ≤ c.toNat && c.toNat ≤ 31)

/-- The characters of a number, without white space around it. -/
def numberChars (s : String) : List Char :=
  ((s.toList.dropWhile isSpace).reverse.dropWhile isSpace).reverse

def maxDigits : Nat := 4300

/-- The value of digits with single underscores between them, given the value of those already
read. -/
def digitsValue? : List Char → Nat → Option Nat
  | [], value => some value
  | '_' :: c :: rest, value => (digitValue? c).bind fun d => digitsValue? rest (10 * value + d)
  | c :: rest, value => (digitValue? c).bind fun d => digitsValue? rest (10 * value + d)

def natural? : List Char → Option Nat
  | [] => none
  | c :: rest =>
    if ((c :: rest).filter (· != '_')).length ≤ maxDigits then
      (digitValue? c).bind (digitsValue? rest)
    else none

def integer? (s : String) : Option Int :=
  match numberChars s with
  | '-' :: rest => (natural? rest).map fun n => -(n : Int)
  | '+' :: rest => (natural? rest).map Int.ofNat
  | cs => (natural? cs).map Int.ofNat

def ofInt (n : Int) : String :=
  match n with
  | .ofNat m => String.ofList (Nat.toDigits 10 m)
  | .negSucc m => "-" ++ String.ofList (Nat.toDigits 10 (m + 1))

def isWritable (n : Int) : Bool := (Nat.toDigits 10 n.natAbs).length ≤ maxDigits

/-- Hexadecimal digits after a sign and the mark `0x`. -/
def hexOfInt (n : Int) : String :=
  match n with
  | .ofNat m => "0x" ++ String.ofList (Nat.toDigits 16 m)
  | .negSucc m => "-0x" ++ String.ofList (Nat.toDigits 16 (m + 1))

end PxdGen.Text
