import PxdGen.Xml.Lexeme
/-! # Document types

A document type declares entities and attributes. The numbered characters of an entity are put in
when it is declared, and its other references when it is used. Of two declarations of one name the
first counts.

Declarations can also stand outside of the document, where they are not read. Once a parameter
entity could have brought some of them in, the declarations behind it do not count any more, unless
the document says that it stands alone.
-/

namespace PxdGen.Xml

structure AttributeType where
  element : String
  name : QName
  /-- blanks only separate the parts of its value -/
  isTokenized : Bool
  default : Option (List Char)

structure Doctype where
  /-- the text of each entity, unless it stands elsewhere -/
  entities : List (String × Option (List Char)) := []
  attributes : List AttributeType := []
  /-- the document says that nothing outside of it matters -/
  standsAlone : Bool := false
  /-- there may be declarations outside of the document -/
  hasOutside : Bool := false
  /-- declarations still count -/
  isCounting : Bool := true
  /-- the size of the document -/
  size : Nat := 0
  /-- the sizes of what the entities stand for, once all of them are declared -/
  sizes : List (String × Nat) := []

/-! ### Sizes -/

def references (text : List Char) : List String :=
  (text.splitOn '&').tail.filterMap fun part =>
    match name? {} part with
    | some (name, ';' :: _) => some name
    | _ => none

def totalSize (sizes : List (String × Nat)) (names : List String) : Nat :=
  names.foldl (fun size name => size + (sizes.lookup name).getD 0) 0

/-- The sizes of what the entities stand for, as far as references are followed to a depth. -/
def entitySizes (entities : List (String × Option (List Char))) : Nat → List (String × Nat)
  | 0 => []
  | depth + 1 =>
    let inner := entitySizes entities depth
    entities.map fun (name, text) =>
      let text := text.getD []
      (name, text.length + totalSize inner (references text))

def Doctype.weighed (d : Doctype) : Doctype :=
  { d with sizes := entitySizes d.entities d.entities.length }

/-- A document of 8 MiB and more must not be a hundred times as large as what is written of it. -/
def Doctype.isExcessive (d : Doctype) (size : Nat) : Bool :=
  8388608 ≤ d.size + size && 100 * d.size < d.size + size

/-! ### Values -/

/-- The characters of a value. Blanks become spaces, except those given by their numbers. An entity
that is not declared is left out if it may be declared elsewhere. -/
def valueChars (d : Doctype) : Nat → List String → List Piece → Option (List Char)
  | 0, _, _ => none
  | fuel + 1, opened, pieces =>
    (pieces.mapM fun (piece : Piece) =>
      match piece with
      | .char c => some [if isBlank c then ' ' else c]
      | .code c => some [c]
      | .entity name =>
        match d.entities.lookup name with
        | some (some text) =>
          if opened.contains name then none
          else (pieces? {} text).bind (valueChars d fuel (name :: opened))
        | some none => none
        | none => if d.hasOutside && !d.standsAlone then some [] else none).map List.flatten

/-- A tokenized value has single spaces between its parts. -/
def tokenized (cs : List Char) : List Char :=
  [' '].intercalate ((cs.splitOn ' ').filter fun part => !part.isEmpty)

def Doctype.value? (d : Doctype) (isTokenized : Bool) (pieces : List Piece) :
    Option (List Char) :=
  let names := pieces.filterMap fun (piece : Piece) =>
    match piece with
    | .entity name => some name
    | _ => none
  if d.isExcessive (totalSize d.sizes names) then none
  else
    (valueChars d (d.entities.length + 1) [] pieces).map fun cs =>
      if isTokenized then tokenized cs else cs

/-! ### Parts of declarations -/

def literalText? (a : Alphabet) (s : List Char) : Option (List Char × List Char) :=
  match next? a s with
  | some (.literal text, rest) => some (text, rest)
  | _ => none

def plainName? (a : Alphabet) (s : List Char) : Option (String × List Char) :=
  match next? a s with
  | some (.name name, rest) => some (name, rest)
  | _ => none

/-- A name that can have a colon. -/
def anyName? (a : Alphabet) (s : List Char) : Option (QName × List Char) :=
  match next? a s with
  | some (.name name, rest) => some (⟨"", name⟩, rest)
  | some (.qualified name, rest) => some (name, rest)
  | _ => none

def close? (a : Alphabet) (s : List Char) : Option (List Char) :=
  match next? a s with
  | some (.close, rest) => some rest
  | _ => none

def isPublic (c : Char) : Bool :=
  c.isAlphanum || c == ' ' || c == '\n' || c == '\r' || "-'()+,./:=?;!*#@$_%".toList.contains c

def publicText? (a : Alphabet) (s : List Char) : Option (List Char × List Char) := do
  let (text, rest) ← literalText? a s
  if text.all isPublic then some (text, rest) else none

/-- What stands behind the place of something that stands elsewhere. -/
def afterPlace? (a : Alphabet) (word : String) (s : List Char) : Option (List Char) :=
  match word with
  | "SYSTEM" => (literalText? a s).map (·.2)
  | "PUBLIC" => do
    let (_, rest) ← publicText? a s
    (literalText? a rest).map (·.2)
  | _ => none

/-! ### Entities -/

def entityText? (a : Alphabet) : Nat → List Char → Option (List Char)
  | 0, _ => none
  | _ + 1, [] => some []
  | fuel + 1, c :: rest =>
    if c == '%' then none
    else if c == '&' then do
      let isNumbered := rest.head? == some '#'
      let (piece, rest') ← reference? a rest
      let text ← entityText? a fuel rest'
      match piece, isNumbered with
      | .code c, true => some (c :: text)
      | _, _ => some ('&' :: rest.take (rest.length - rest'.length) ++ text)
    else do
      let text ← entityText? a fuel rest
      some (c :: text)

def Doctype.addEntity (d : Doctype) (name : String) (text : Option (List Char)) : Doctype :=
  if !d.isCounting || d.entities.any (·.1 == name) then d
  else { d with entities := d.entities ++ [(name, text)] }

/-- What stands behind the notation of an entity, if there is one. -/
def afterNotation? (a : Alphabet) (s : List Char) : Option (List Char) :=
  match plainName? a s with
  | some ("NDATA", rest) => (plainName? a rest).map (·.2)
  | some _ => none
  | none => some s

def entityValue? (a : Alphabet) (d : Doctype) (isParameter : Bool) (s : List Char) :
    Option (Option (List Char) × List Char) := do
  match ← next? a s with
  | (.literal text, rest) =>
    let text ← if d.isCounting then entityText? a (text.length + 1) text else some []
    some (some text, rest)
  | (.name word, rest) =>
    let rest ← afterPlace? a word rest
    let rest ← if isParameter then some rest else afterNotation? a rest
    some (none, rest)
  | _ => none

def entityDeclaration? (a : Alphabet) (d : Doctype) (s : List Char) :
    Option (Doctype × List Char) := do
  match ← next? a s with
  | (.name name, rest) =>
    let (text, rest) ← entityValue? a d false rest
    let rest ← close? a rest
    some (d.addEntity name text, rest)
  | (.percent, rest) =>
    let (_, rest) ← plainName? a rest
    let (_, rest) ← entityValue? a d true rest
    let rest ← close? a rest
    some (d, rest)
  | _ => none

/-! ### Attributes -/

/-- What stands behind the alternatives of an attribute, which are names if it has notations. -/
def afterChoices? (a : Alphabet) (areNotations : Bool) : Nat → List Char → Option (List Char)
  | 0, _ => none
  | fuel + 1, s => do
    let (choice, rest) ← next? a s
    let isChoice := match choice with
      | .name _ => true
      | .qualified _ | .nameToken => !areNotations
      | _ => false
    if isChoice then
      match ← next? a rest with
      | (.bar, rest) => afterChoices? a areNotations fuel rest
      | (.closeGroup none, rest) => some rest
      | _ => none
    else none

def attributeType? (a : Alphabet) (s : List Char) : Option (Bool × List Char) := do
  match ← next? a s with
  | (.openGroup, rest) => (afterChoices? a false (rest.length + 1) rest).map (true, ·)
  | (.name word, rest) =>
    match word with
    | "CDATA" => some (false, rest)
    | "ID" | "IDREF" | "IDREFS" | "ENTITY" | "ENTITIES" | "NMTOKEN" | "NMTOKENS" =>
      some (true, rest)
    | "NOTATION" =>
      match ← next? a rest with
      | (.openGroup, rest) => (afterChoices? a true (rest.length + 1) rest).map (true, ·)
      | _ => none
    | _ => none
  | _ => none

/-- The default of an attribute, which is found with the entities that are declared so far. -/
def attributeDefault? (a : Alphabet) (d : Doctype) (isTokenized : Bool) (s : List Char) :
    Option (Option (List Char) × List Char) := do
  let given := fun (text : List Char) (rest : List Char) =>
    if d.isCounting then do
      let value ← d.weighed.value? isTokenized (← pieces? a text)
      some (some value, rest)
    else some (none, rest)
  match ← next? a s with
  | (.hashed "REQUIRED", rest) | (.hashed "IMPLIED", rest) => some (none, rest)
  | (.hashed "FIXED", rest) =>
    let (text, rest) ← literalText? a rest
    given text rest
  | (.literal text, rest) => given text rest
  | _ => none

def Doctype.addAttribute (d : Doctype) (x : AttributeType) : Doctype :=
  if !d.isCounting || d.attributes.any (fun y => y.element == x.element && y.name == x.name) then d
  else { d with attributes := d.attributes ++ [x] }

def attributeDeclarations? (a : Alphabet) (element : String) : Nat → Doctype → List Char →
    Option (Doctype × List Char)
  | 0, _, _ => none
  | fuel + 1, d, s =>
    match close? a s with
    | some rest => some (d, rest)
    | none => do
      let (name, rest) ← anyName? a s
      let (isTokenized, rest) ← attributeType? a rest
      let (default, rest) ← attributeDefault? a d isTokenized rest
      let declared := d.addAttribute ⟨element, name, isTokenized, default⟩
      attributeDeclarations? a element fuel declared rest

/-! ### Elements and notations -/

def afterGroup? (a : Alphabet) : Nat → Option Lexeme → List Char → Option (List Char)
  | 0, _, _ => none
  | fuel + 1, link, s => do
    let (first, rest) ← next? a s
    let rest ← match first with
      | .name _ | .qualified _ | .counted => some rest
      | .openGroup => afterGroup? a fuel none rest
      | _ => none
    match ← next? a rest with
    | (.closeGroup _, rest) => some rest
    | (.comma, rest) =>
      if link == some .bar then none else afterGroup? a fuel (some .comma) rest
    | (.bar, rest) =>
      if link == some .comma then none else afterGroup? a fuel (some .bar) rest
    | _ => none

/-- What stands behind the elements that can stand between characters. -/
def afterMixed? (a : Alphabet) : Nat → List Char → Option (List Char)
  | 0, _ => none
  | fuel + 1, s => do
    let (_, rest) ← anyName? a s
    match ← next? a rest with
    | (.bar, rest) => afterMixed? a fuel rest
    | (.closeGroup (some '*'), rest) => some rest
    | _ => none

/-- What stands behind the model of what an element holds, which says nothing here. -/
def afterModel? (a : Alphabet) (s : List Char) : Option (List Char) := do
  match ← next? a s with
  | (.name "EMPTY", rest) | (.name "ANY", rest) => some rest
  | (.openGroup, rest) =>
    match next? a rest with
    | some (.hashed "PCDATA", rest) =>
      match ← next? a rest with
      | (.closeGroup none, rest) | (.closeGroup (some '*'), rest) => some rest
      | (.bar, rest) => afterMixed? a (rest.length + 1) rest
      | _ => none
    | _ => afterGroup? a (rest.length + 1) none rest
  | _ => none

/-- What stands behind the place of a notation, which can be a public identifier alone. -/
def afterNotationPlace? (a : Alphabet) (s : List Char) : Option (List Char) := do
  match ← plainName? a s with
  | ("PUBLIC", rest) =>
    let (_, rest) ← publicText? a rest
    some (((literalText? a rest).map (·.2)).getD rest)
  | (word, rest) => afterPlace? a word rest

/-! ### Document types -/

def Doctype.declare? (a : Alphabet) (d : Doctype) (word : String) (s : List Char) :
    Option (Doctype × List Char) :=
  match word with
  | "ENTITY" => entityDeclaration? a d s
  | "ATTLIST" => do
    let (element, rest) ← anyName? a s
    attributeDeclarations? a element.text (rest.length + 1) d rest
  | "ELEMENT" => do
    let (_, rest) ← anyName? a s
    some (d, ← close? a (← afterModel? a rest))
  | "NOTATION" => do
    let (_, rest) ← plainName? a s
    some (d, ← close? a (← afterNotationPlace? a rest))
  | _ => none

/-- Reads the declarations of a document type up to its closing bracket. -/
def subset? (a : Alphabet) : Nat → Doctype → List Char → Option (Doctype × List Char)
  | 0, _, _ => none
  | fuel + 1, d, s => do
    match ← next? a s with
    | (.closeBracket, rest) => some (d, rest)
    | (.aside, rest) => subset? a fuel d rest
    | (.parameter, rest) =>
      subset? a fuel { d with hasOutside := true, isCounting := d.standsAlone } rest
    | (.declaration word, rest) =>
      let (d, rest) ← d.declare? a word rest
      subset? a fuel d rest
    | _ => none

/-- A document type, behind its first word. -/
def doctype? (a : Alphabet) (d : Doctype) (s : List Char) : Option (Doctype × List Char) := do
  let (_, rest) ← anyName? a s
  let (d, rest) ← match plainName? a rest with
    | some (word, rest) => do some ({ d with hasOutside := true }, ← afterPlace? a word rest)
    | none => some (d, rest)
  match ← next? a rest with
  | (.close, rest) => some (d, rest)
  | (.openBracket, rest) =>
    let (d, rest) ← subset? a (rest.length + 1) d rest
    some (d, ← close? a rest)
  | _ => none

/-- Reads up to the first tag of the content; there may be one document type. -/
def prolog? (a : Alphabet) :
    Nat → Bool → Doctype → List Char → Option (Doctype × List Char)
  | 0, _, _, _ => none
  | fuel + 1, hasDoctype, d, s =>
    match next? a s with
    | some (.aside, rest) => prolog? a fuel hasDoctype d rest
    | some (.declaration "DOCTYPE", rest) =>
      if hasDoctype then none
      else do
        let (d, rest) ← doctype? a d rest
        prolog? a fuel true d rest
    | _ => some (d.weighed, skipBlanks s)

end PxdGen.Xml
