import PxdGen.Xml.Charset
import PxdGen.Xml.Doctype
/-! # Reading XML

Reading a document gives the starts and ends of its elements, in order. The end of an element comes
with the text that stands before its first child. If the document is not well-formed, what comes
before the first offence is still read.
-/

namespace PxdGen.Xml

inductive Event where
  | start (tag : String) (attrs : List (String × String))
  | stop (tag : String) (text : String)
deriving DecidableEq, Repr

structure Reading where
  events : List Event
  isWellFormed : Bool

/-- Namespaces by the words that stand for them; the empty word is for names without one. -/
abbrev Scope := List (String × String)

/-- An element whose end has not been read. -/
structure OpenElement where
  name : String
  tag : String
  scope : Scope
  /-- the text before the first child, the last character first -/
  text : List Char := []
  hasChild : Bool := false

structure Builder where
  /-- the innermost element first -/
  stack : List OpenElement := []
  hasRoot : Bool := false
  /-- the newest first -/
  events : List Event := []
  /-- the size of what entities stood for -/
  expanded : Nat := 0

/-- A namespace of the standards themselves. -/
def standardSpace (path : String) : String := "http:" ++ "//www.w3.org/" ++ path

/-- The namespace that is always there. -/
def xmlSpace : String := standardSpace "XML/1998/namespace"

/-- The namespace of declarations of namespaces. -/
def declarationSpace : String := standardSpace "2000/xmlns/"

/-! ### Attributes -/

/-- All attributes of an element, with those that are only declared. -/
def attributesOf? (d : Doctype) (element : String) (given : List (QName × List Piece)) :
    Option (List (QName × String)) := do
  let types := d.attributes.filter (·.element == element)
  let values ← given.mapM fun (name, pieces) => do
    let isTokenized := (types.find? (·.name == name)).any (·.isTokenized)
    some (name, String.ofList (← d.value? isTokenized pieces))
  let missing := types.filterMap fun x =>
    if given.any (·.1 == x.name) then none else x.default.map fun cs => (x.name, String.ofList cs)
  some (values ++ missing)

def isSpaceDeclaration (name : QName) : Bool :=
  name.space == "xmlns" || (name.space.isEmpty && name.base == "xmlns")

/-- Adds a namespace to a scope. Its name must not contain the sign that ends it in full names. -/
def declareSpace? (scope : Scope) (name : QName) (uri : String) : Option Scope :=
  let word := if name.space.isEmpty then "" else name.base
  if word == "xmlns" then none
  else if word == "xml" then if uri == xmlSpace then some scope else none
  else if uri == xmlSpace || uri == declarationSpace then none
  else if uri.isEmpty && !word.isEmpty then none
  else if uri.toList.contains '\x7d' then none
  else some ((word, uri) :: scope)

def inSpace (uri base : String) : String :=
  if uri.isEmpty then base else "\x7b" ++ uri ++ "\x7d" ++ base

/-- The full name of an element or, if it has a namespace, of an attribute. -/
def fullName? (scope : Scope) (name : QName) : Option String :=
  if name.space == "xml" then some (inSpace xmlSpace name.base)
  else
    match scope.lookup name.space with
    | some uri => some (inSpace uri name.base)
    | none => if name.space.isEmpty then some name.base else none

def attributeName? (scope : Scope) (name : QName) : Option String :=
  if name.space.isEmpty then some name.base else fullName? scope name

/-! ### Building -/

def Builder.addChars (b : Builder) (cs : List Char) : Builder :=
  match b.stack with
  | top :: rest =>
    if top.hasChild then b
    else { b with stack := { top with text := cs.reverse ++ top.text } :: rest }
  | [] => b

def Builder.closeTop (b : Builder) : Builder :=
  match b.stack with
  | top :: rest =>
    { b with stack := rest, events := .stop top.tag (String.ofList top.text.reverse) :: b.events }
  | [] => b

/-- Starts an element; nothing can start behind the root. -/
def Builder.openElement? (b : Builder) (d : Doctype) (name : QName)
    (given : List (QName × List Piece)) : Option Builder := do
  if b.stack.isEmpty && b.hasRoot then none
  else if !(given.map (·.1)).Nodup then none
  else
    let attrs ← attributesOf? d name.text given
    let outer := (b.stack.head?.map (·.scope)).getD []
    let scope ← (attrs.filter (isSpaceDeclaration ·.1)).foldlM
      (fun scope (name, uri) => declareSpace? scope name uri) outer
    let tag ← fullName? scope name
    let attrs ← (attrs.filter (!isSpaceDeclaration ·.1)).mapM fun (name, value) => do
      some (← attributeName? scope name, value)
    if !(attrs.map (·.1)).Nodup then none
    else
      let stack := match b.stack with
        | top :: rest => { top with hasChild := true } :: rest
        | [] => []
      some { b with
        stack := { name := name.text, tag := tag, scope := scope } :: stack
        hasRoot := true
        events := .start tag attrs :: b.events }

/-- Reads a token, where `floor` is the number of elements that are open since before the text that
the token stands in. -/
def Builder.step? (d : Doctype) (floor : Nat) (b : Builder) : Token → Option Builder
  | .chars cs => if b.stack.isEmpty && !cs.all isBlank then none else some (b.addChars cs)
  | .code c => if b.stack.isEmpty then none else some (b.addChars [c])
  | .cdata cs => if b.stack.isEmpty then none else some (b.addChars cs)
  | .startTag name attrs isEmpty =>
    (b.openElement? d name attrs).map fun b => if isEmpty then b.closeTop else b
  | .endTag name =>
    match b.stack with
    | top :: _ =>
      if top.name == name && !(b.stack.drop floor).isEmpty then some b.closeTop else none
    | [] => none
  | .aside => some b
  | .entity _ | .broken => none

/-- Reads tokens one after the other, where `expand` reads the text of an entity; gives whether all
of them were well-formed. -/
def readTokens (d : Doctype) (floor : Nat) (expand : String → Builder → Builder × Bool) :
    Builder → List Token → Builder × Bool
  | b, [] => (b, true)
  | b, .entity name :: rest =>
    match expand name b with
    | (b, true) => readTokens d floor expand b rest
    | (b, false) => (b, false)
  | b, token :: rest =>
    match b.step? d floor token with
    | some b => readTokens d floor expand b rest
    | none => (b, false)

/-- Reads a content. An entity must not lead back to itself, and closes what it opens. -/
def readContent (d : Doctype) : Nat → Alphabet → List String → Builder → List Char → Builder × Bool
  | 0, _, _, b, _ => (b, false)
  | fuel + 1, a, opened, b, s =>
    let expand := fun name (b : Builder) =>
      let size := if opened.isEmpty then totalSize d.sizes [name] else 0
      let b := { b with expanded := b.expanded + size }
      match d.entities.lookup name with
      | some (some text) =>
        if opened.contains name || b.stack.isEmpty || d.isExcessive b.expanded then (b, false)
        else
          let depth := b.stack.length
          let (b, isFine) := readContent d fuel {} (name :: opened) b text
          (b, isFine && b.stack.length == depth)
      | _ => (b, false)
    readTokens d b.stack.length expand b (tokens a s)

/-! ### Documents -/

def setting? (name : String) (s : List Char) : Option (String × List Char) := do
  let rest ← after? name (← afterBlanks? s)
  let rest ← after? "=" (skipBlanks rest)
  match skipBlanks rest with
  | q :: rest =>
    if q == '"' || q == '\'' then
      let isPart := fun c : Char => c.isAlphanum || c == '.' || c == '-' || c == '_'
      match rest.dropWhile isPart with
      | q' :: rest' =>
        if q' == q then some (String.ofList (rest.takeWhile isPart), rest') else none
      | [] => none
    else none
  | [] => none

/-- The declaration of XML, behind its first word. -/
structure Heading where
  encoding : Option String := none
  standsAlone : Bool := false
  rest : List Char

def heading? (s : List Char) : Option Heading := do
  let (_, rest) ← setting? "version" s
  let (encoding, rest) ← match setting? "encoding" rest with
    | some (encoding, rest') =>
      if (encoding.toList.head?).any Char.isAlpha then some (some encoding, rest') else none
    | none => some (none, rest)
  let (standsAlone, rest) ← match setting? "standalone" rest with
    | some ("yes", rest') => some (true, rest')
    | some ("no", rest') => some (false, rest')
    | some _ => none
    | none => some (false, rest)
  let rest ← after? "?>" (skipBlanks rest)
  some ⟨encoding, standsAlone, rest⟩

/-- A document from its declaration of XML on, with the letters of its names. -/
def body (document : String) : Except Fault (Alphabet × Doctype × List Char) := do
  let (charset, s) := Charset.detect document
  let d : Doctype := { size := document.utf8ByteSize }
  match after? "<?xml" s with
  | some rest =>
    if (rest.head?).any (fun c => isBlank c || c == '?') then
      match heading? rest with
      | some heading =>
        let second ← match heading.encoding with
          | some name => charset.declared name
          | none => .ok charset
        .ok (second.alphabet, { d with standsAlone := heading.standsAlone },
          charset.recode second heading.rest)
      | none => .error .malformedMarkup
    else .ok (charset.alphabet, d, s)
  | none => .ok (charset.alphabet, d, s)

/-- Line ends are read as single line feeds. -/
def normalizeLines : List Char → List Char
  | '\r' :: '\n' :: rest => '\n' :: normalizeLines rest
  | '\r' :: rest => '\n' :: normalizeLines rest
  | c :: rest => c :: normalizeLines rest
  | [] => []

/-- Reads a document. Only the encoding that it names can be a fault. -/
def read (document : String) : Except Fault Reading := do
  let (a, d, s) ← body document
  let s := normalizeLines s
  match prolog? a (s.length + 1) false d s with
  | none => .ok ⟨[], false⟩
  | some (d, s) =>
    let (b, isFine) := readContent d (d.entities.length + 1) a [] {} s
    .ok ⟨b.events.reverse, isFine && b.stack.isEmpty && b.hasRoot⟩

end PxdGen.Xml
