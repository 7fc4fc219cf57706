/-! # White space

Blank characters are those that Unicode lists as white space, together with the four separators
`\x1c` to `\x1f`. Text is cut into words at runs of them, and trimmed of them at both ends.
-/

namespace PxdGen.Text

def isBlank (c : Char) : Bool :=
  let n := c.toNat
  (9 ≤ n && n ≤ 13) || (28 ≤ n && n ≤ 32) || n == 0x85 || n == 0xA0 || n == 0x1680 ||
    (0x2000 ≤ n && n ≤ 0x200A) || n == 0x2028 || n == 0x2029 || n == 0x202F || n == 0x205F ||
    n == 0x3000

def trim (s : String) : String :=
  String.ofList ((s.toList.dropWhile isBlank).reverse.dropWhile isBlank).reverse

/-- The text without those of its last characters that satisfy `p`. -/
def trimEnd (p : Char → Bool) (s : String) : String :=
  String.ofList (s.toList.reverse.dropWhile p).reverse

/-- The words of a text, where `word` collects the one being read, last character first. -/
def wordsFrom : List Char → List Char → List String
  | [], [] => []
  | [], word => [String.ofList word.reverse]
  | c :: rest, word =>
    if isBlank c then
      if word.isEmpty then wordsFrom rest [] else String.ofList word.reverse :: wordsFrom rest []
    else wordsFrom rest (c :: word)

def words (s : String) : List String := wordsFrom s.toList []

/-- The first word and what follows the blanks after it, or `none` if one of the two is missing. -/
def firstWord? (s : String) : Option (String × String) :=
  let body := s.toList.dropWhile isBlank
  let word := body.takeWhile (!isBlank ·)
  let rest := (body.dropWhile (!isBlank ·)).dropWhile isBlank
  if word.isEmpty || rest.isEmpty then none else some (String.ofList word, String.ofList rest)

/-- The text before and after the first `sep`, or `none` if there is none. -/
def cutAt? (sep : Char) (s : String) : Option (String × String) :=
  match s.toList.dropWhile (· != sep) with
  | [] => none
  | _ :: rest => some (String.ofList (s.toList.takeWhile (· != sep)), String.ofList rest)

def contains (s part : String) : Bool := go s.toList
where
  go : List Char → Bool
    | [] => part.isEmpty
    | c :: rest => part.toList.isPrefixOf (c :: rest) || go rest

/-- The text without the occurrences of a part that is not empty. -/
def without (part s : String) : String := String.ofList (go 0 s.toList)
where
  /-- what is left when so many characters of an occurrence are still to be passed over -/
  go : Nat → List Char → List Char
    | _, [] => []
    | skip + 1, _ :: rest => go skip rest
    | 0, c :: rest =>
      if part.toList.isPrefixOf (c :: rest) then go (part.length - 1) rest else c :: go 0 rest

/-- The pieces of a text between the occurrences of `sep`; there is always at least one. -/
def pieces (sep : Char) (s : String) : List String :=
  go s.toList []
where
  go : List Char → List Char → List String
    | [], piece => [String.ofList piece.reverse]
    | c :: rest, piece =>
      if c == sep then String.ofList piece.reverse :: go rest [] else go rest (c :: piece)

end PxdGen.Text
