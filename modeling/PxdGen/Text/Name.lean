/-! # Names

Names that come from a compiler may hold characters that no identifier has. `identifier?` spells
such a name as one: dollar signs and dots are written out, and a name that would begin with a
digit or with two underscores gets something put before it. `word?` only asks whether a name is a
word.
-/

namespace PxdGen.Text

def spellChar (c : Char) : List Char :=
  if c == '$' then "DOLLAR".toList else if c == '.' then "DOT".toList else [c]

def spell (cs : List Char) : List Char := cs.flatMap spellChar

def identifier? (name : String) : Option String :=
  match spell name.toList with
  | [] => none
  | '_' :: '_' :: rest => some (String.ofList ('_' :: 'X' :: '_' :: '_' :: rest))
  | c :: rest => some (String.ofList (if c.isDigit then '_' :: c :: rest else c :: rest))

def isWordStart (c : Char) : Bool := c.isAlpha || c == '_'

def isWordChar (c : Char) : Bool := c.isAlphanum || c == '_'

/-- A letter or underscore followed by letters, digits and underscores. -/
def isWord : List Char → Bool
  | [] => false
  | c :: rest => isWordStart c && rest.all isWordChar

/-- The name if it is a word, where one line feed after the word is tolerated. -/
def word? (name : String) : Option String :=
  let cs := name.toList
  if isWord cs || (cs.getLast? == some '\n' && isWord cs.dropLast) then some name else none

end PxdGen.Text
