import PxdGen.Xml.Letter
/-! # Markup of XML

The content of a document is a sequence of tokens: tags, text, references, and comments and
processing instructions, which say nothing. Text that is no markup ends the sequence with a token
that says so, because what stands before it counts.

Scanners take a list of characters and give what they found with the rest of the list. Those that
meet names take the letters of the document first.
-/

namespace PxdGen.Xml

/-- A name that may belong to a namespace, by the word in front of its colon. -/
structure QName where
  space : String
  base : String
deriving DecidableEq, Repr

def QName.text (q : QName) : String := if q.space.isEmpty then q.base else q.space ++ ":" ++ q.base

inductive Piece where
  | char (c : Char)
  /-- a character given by its number or by one of the five names -/
  | code (c : Char)
  | entity (name : String)
deriving DecidableEq, Repr

inductive Token where
  | chars (cs : List Char)
  | code (c : Char)
  | cdata (cs : List Char)
  | entity (name : String)
  | startTag (name : QName) (attrs : List (QName × List Piece)) (isEmpty : Bool)
  | endTag (name : String)
  /-- a comment or a processing instruction -/
  | aside
  /-- no markup -/
  | broken
deriving DecidableEq, Repr

def skipBlanks (s : List Char) : List Char := s.dropWhile isBlank

def after? (word : String) (s : List Char) : Option (List Char) :=
  if word.toList.isPrefixOf s then some (s.drop word.length) else none

/-- What stands behind blanks; there has to be one. -/
def afterBlanks? (s : List Char) : Option (List Char) :=
  match s with
  | c :: rest => if isBlank c then some (skipBlanks rest) else none
  | [] => none

def name? (a : Alphabet) (s : List Char) : Option (String × List Char) :=
  match s with
  | c :: rest =>
    if a.isStart c then
      some (String.ofList (c :: rest.takeWhile a.isPart), rest.dropWhile a.isPart)
    else none
  | [] => none

/-- A name with at most one colon in it. -/
def qname? (a : Alphabet) (s : List Char) : Option (QName × List Char) := do
  let (first, rest) ← name? a s
  match rest with
  | ':' :: rest => do
    let (second, rest) ← name? a rest
    match rest with
    | ':' :: _ => none
    | _ => some (⟨first, second⟩, rest)
  | _ => some (⟨"", first⟩, rest)

def numeral (base : Nat) (digits : List Char) : Nat :=
  digits.foldl (fun n c => n * base + digit c) 0
where
  digit (c : Char) : Nat :=
    if c.isDigit then c.toNat - 48
    else if 'a' ≤ c && c ≤ 'f' then c.toNat - 87
    else c.toNat - 55

def isHexDigit (c : Char) : Bool :=
  c.isDigit || ('a' ≤ c && c ≤ 'f') || ('A' ≤ c && c ≤ 'F')

def charOf? (n : Nat) : Option Char :=
  if n < 0xD800 || (0xE000 ≤ n && n ≤ 0x10FFFF) then
    let c := Char.ofNat n
    if isLegal c then some c else none
  else none

def charNumber? (base : Nat) (isDigit : Char → Bool) (s : List Char) :
    Option (Piece × List Char) :=
  match s.takeWhile isDigit, s.dropWhile isDigit with
  | [], _ => none
  | digits, ';' :: rest => (charOf? (numeral base digits)).map fun c => (.code c, rest)
  | _, _ => none

def predefined? : String → Option Char
  | "amp" => some '&'
  | "lt" => some '<'
  | "gt" => some '>'
  | "quot" => some '"'
  | "apos" => some '\''
  | _ => none

/-- A reference, behind its ampersand. -/
def reference? (a : Alphabet) (s : List Char) : Option (Piece × List Char) :=
  match s with
  | '#' :: 'x' :: rest => charNumber? 16 isHexDigit rest
  | '#' :: rest => charNumber? 10 Char.isDigit rest
  | _ =>
    match name? a s with
    | some (name, ';' :: rest) =>
      match predefined? name with
      | some c => some (.code c, rest)
      | none => some (.entity name, rest)
    | _ => none

/-- As `pieces?`, for a bound on their number. -/
def piecesUpTo (a : Alphabet) : Nat → List Char → Option (List Piece)
  | 0, _ => none
  | _ + 1, [] => some []
  | fuel + 1, c :: rest =>
    if c == '<' || !isLegal c then none
    else if c == '&' then do
      let (piece, rest) ← reference? a rest
      some (piece :: (← piecesUpTo a fuel rest))
    else do
      some (.char c :: (← piecesUpTo a fuel rest))

/-- The pieces of a text that is put into a value. Each of them has a character at least. -/
def pieces? (a : Alphabet) (s : List Char) : Option (List Piece) := piecesUpTo a (s.length + 1) s

def value? (a : Alphabet) (s : List Char) : Option (List Piece × List Char) :=
  match s with
  | [] => none
  | quote :: rest =>
    if quote == '"' || quote == '\'' then
      match rest.dropWhile (· != quote) with
      | _ :: rest' => (pieces? a (rest.takeWhile (· != quote))).map (·, rest')
      | [] => none
    else none

/-- Attributes up to the end of a tag, and whether the tag has a slash there, for a bound on the
number of attributes. -/
def attributes? (a : Alphabet) :
    Nat → List Char → Option (List (QName × List Piece) × Bool × List Char)
  | 0, _ => none
  | fuel + 1, s =>
    match skipBlanks s with
    | '>' :: rest => some ([], false, rest)
    | '/' :: '>' :: rest => some ([], true, rest)
    | _ => do
      let (name, rest) ← qname? a (← afterBlanks? s)
      let rest ← after? "=" (skipBlanks rest)
      let (value, rest) ← value? a (skipBlanks rest)
      let (attrs, isEmpty, rest) ← attributes? a fuel rest
      some ((name, value) :: attrs, isEmpty, rest)

/-- What stands behind a comment whose beginning has been read. Two hyphens only end it. -/
def afterComment? : List Char → Option (List Char)
  | '-' :: '-' :: '>' :: rest => some rest
  | '-' :: '-' :: _ => none
  | c :: rest => if isLegal c then afterComment? rest else none
  | [] => none

def afterInstruction? : List Char → Option (List Char)
  | '?' :: '>' :: rest => some rest
  | c :: rest => if isLegal c then afterInstruction? rest else none
  | [] => none

/-- What stands behind a processing instruction whose beginning has been read. -/
def instruction? (a : Alphabet) (s : List Char) : Option (List Char) := do
  let (target, rest) ← name? a s
  if target.toLower == "xml" then none
  else
    match rest with
    | '?' :: '>' :: rest => some rest
    | c :: rest => if isBlank c then afterInstruction? rest else none
    | [] => none

/-- Characters up to the end of a section of plain characters. -/
def cdata? : List Char → List Char → Option (List Char × List Char)
  | acc, ']' :: ']' :: '>' :: rest => some (acc.reverse, rest)
  | acc, c :: rest => if isLegal c then cdata? (c :: acc) rest else none
  | _, [] => none

/-- A name, behind the slash of an end tag. -/
def endTag? (a : Alphabet) (s : List Char) : Option (Token × List Char) :=
  let isPart := fun c => a.isPart c || c == ':'
  match s with
  | c :: _ =>
    if a.isStart c then
      match skipBlanks (s.dropWhile isPart) with
      | '>' :: rest => some (.endTag (String.ofList (s.takeWhile isPart)), rest)
      | _ => none
    else none
  | [] => none

/-- A name and attributes, behind the sign that starts a tag. -/
def startTag? (a : Alphabet) (bound : Nat) (s : List Char) : Option (Token × List Char) := do
  let (name, rest) ← qname? a s
  let (attrs, isEmpty, rest) ← attributes? a bound rest
  some (.startTag name attrs isEmpty, rest)

/-- Whether the end of a section of plain characters stands somewhere in a text. -/
def hasSectionEnd : List Char → Bool
  | ']' :: ']' :: '>' :: _ => true
  | _ :: rest => hasSectionEnd rest
  | [] => false

/-- The first token of a content that is not empty, for a bound on the number of its attributes. -/
def token? (a : Alphabet) (bound : Nat) (s : List Char) : Option (Token × List Char) :=
  match s with
  | '<' :: '/' :: rest => endTag? a rest
  | '<' :: '!' :: '-' :: '-' :: rest => (afterComment? rest).map (.aside, ·)
  | '<' :: '?' :: rest => (instruction? a rest).map (.aside, ·)
  | '<' :: '!' :: rest => do
    let (cs, rest) ← cdata? [] (← after? "[CDATA[" rest)
    some (.cdata cs, rest)
  | '<' :: rest => startTag? a bound rest
  | '&' :: rest =>
    (reference? a rest).map fun (piece, rest) =>
      (match piece with
      | .char c | .code c => .code c
      | .entity name => .entity name, rest)
  | _ =>
    let isText := fun c => c != '<' && c != '&'
    let text := s.takeWhile isText
    if text.all isLegal && !hasSectionEnd text then some (.chars text, s.dropWhile isText) else none

/-- As `tokens`, for a bound on their number, which is also one on the attributes of each. -/
def tokensUpTo (a : Alphabet) : Nat → List Char → List Token
  | 0, _ => []
  | _ + 1, [] => []
  | fuel + 1, s =>
    match token? a (fuel + 1) s with
    | some (token, rest) => token :: tokensUpTo a fuel rest
    | none => [.broken]

/-- The tokens of a content. Each of them has a character at least. -/
def tokens (a : Alphabet) (s : List Char) : List Token := tokensUpTo a (s.length + 1) s

end PxdGen.Xml
