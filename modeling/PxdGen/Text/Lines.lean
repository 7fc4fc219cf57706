/-! # Lines

A text breaks into lines at line feeds, carriage returns (one break for the pair), the vertical tab,
the form feed, the three information separators, the next-line character and the two Unicode
separators. A break at the end of the text starts no further line.
-/

namespace PxdGen.Text

def isBreak (c : Char) : Bool :=
  let n := c.toNat
  (10 ≤ n && n ≤ 13) || (28 ≤ n && n ≤ 30) || n == 0x85 || n == 0x2028 || n == 0x2029

/-- The lines of a text, where `line` collects the one being read, last character first. -/
def linesFrom : List Char → List Char → List String
  | [], [] => []
  | [], line => [String.ofList line.reverse]
  | '\r' :: '\n' :: rest, line => String.ofList line.reverse :: linesFrom rest []
  | c :: rest, line =>
    if isBreak c then String.ofList line.reverse :: linesFrom rest []
    else linesFrom rest (c :: line)

def lines (s : String) : List String := linesFrom s.toList []

/-- `n` copies of a text, none if `n` is negative. -/
def copies (s : String) (n : Int) : String := String.join (List.replicate n.toNat s)

end PxdGen.Text
