import PxdGen.Xml.Token
/-! # Lexemes of document types

A document type is a sequence of lexemes with blanks between them. What may stand directly behind a
lexeme depends on the lexeme alone.
-/

namespace PxdGen.Xml

inductive Lexeme where
  /-- a name without a colon -/
  | name (text : String)
  /-- a name with one colon -/
  | qualified (name : QName)
  /-- other text of name characters and colons -/
  | nameToken
  /-- a name with a mark for how often it may occur -/
  | counted
  /-- a word behind a hash sign -/
  | hashed (word : String)
  | literal (text : List Char)
  /-- a percent sign that stands alone -/
  | percent
  /-- the place of a parameter entity -/
  | parameter
  /-- the beginning of a declaration -/
  | declaration (word : String)
  /-- a comment or a processing instruction -/
  | aside
  | comma
  | bar
  | openGroup
  /-- the end of a group, with a mark for how often it may occur -/
  | closeGroup (count : Option Char)
  | openBracket
  | closeBracket
  | close
deriving DecidableEq, Repr

/-- Whether the next character is a blank or one of some others. -/
def isBefore (others : String) (s : List Char) : Bool :=
  s.head?.any fun c => isBlank c || others.toList.contains c

/-- What stands behind a word, which a blank or one of some other characters has to follow. -/
def bounded? (others : String) (x : Lexeme) (rest : List Char) : Option (Lexeme × List Char) :=
  if isBefore others rest then some (x, rest) else none

def literal? (quote : Char) (s : List Char) : Option (Lexeme × List Char) :=
  let text := s.takeWhile (· != quote)
  if text.all isLegal then bounded? ">%[" (.literal text) (s.dropWhile (· != quote)).tail else none

/-- The marks for how often something may occur. -/
def isCount (c : Char) : Bool := c == '?' || c == '*' || c == '+'

/-- A text of name characters and colons. -/
def word? (a : Alphabet) (s : List Char) : Option (Lexeme × List Char) :=
  let isPart := fun c => a.isPart c || c == ':'
  let text := s.takeWhile isPart
  let rest := s.dropWhile isPart
  let isName := text.head?.any a.isStart
  let kind := match isName, text.splitOn ':' with
    | true, [name] => Lexeme.name (String.ofList name)
    | true, [space, base] =>
      if base.isEmpty then .nameToken else .qualified ⟨String.ofList space, String.ofList base⟩
    | _, _ => .nameToken
  match text, rest with
  | [], _ => none
  | _, c :: rest' =>
    if isCount c then if kind == .nameToken then none else some (.counted, rest')
    else bounded? "),>|[%" kind rest
  | _, [] => none

def opening? (s : List Char) : Option (Lexeme × List Char) :=
  match s.takeWhile Char.isAlpha with
  | [] => none
  | word => bounded? "" (.declaration (String.ofList word)) (s.dropWhile Char.isAlpha)

def lexeme? (a : Alphabet) (s : List Char) : Option (Lexeme × List Char) :=
  match s with
  | '"' :: rest => literal? '"' rest
  | '\'' :: rest => literal? '\'' rest
  | '<' :: '?' :: rest => (instruction? a rest).map (.aside, ·)
  | '<' :: '!' :: '-' :: '-' :: rest => (afterComment? rest).map (.aside, ·)
  | '<' :: '!' :: rest => opening? rest
  | '%' :: rest =>
    if isBefore "%" rest then some (.percent, rest)
    else
      match name? a rest with
      | some (_, ';' :: rest) => some (.parameter, rest)
      | _ => none
  | '#' :: rest => do
    let (word, rest) ← name? a rest
    bounded? ")>%|" (.hashed word) rest
  | ')' :: c :: rest =>
    if isCount c then some (.closeGroup (some c), rest)
    else bounded? ">,|)" (.closeGroup none) (c :: rest)
  | ']' :: ']' :: '>' :: _ => none
  | ',' :: rest => some (.comma, rest)
  | '|' :: rest => some (.bar, rest)
  | '(' :: rest => some (.openGroup, rest)
  | '[' :: rest => some (.openBracket, rest)
  | ']' :: rest => some (.closeBracket, rest)
  | '>' :: rest => some (.close, rest)
  | _ => word? a s

def next? (a : Alphabet) (s : List Char) : Option (Lexeme × List Char) := lexeme? a (skipBlanks s)

end PxdGen.Xml
