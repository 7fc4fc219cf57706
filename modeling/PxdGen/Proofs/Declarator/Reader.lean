import PxdGen.Proofs.Declarator.CType
import PxdGen.Text.Blank
/-! # Reading C declarations

A declaration in C says how its name can be used: `*f(int)[3]` is an `int`-like thing if `f` is
called, indexed and dereferenced, in this order. What stands behind a name binds before what stands
in front of it, and parentheses group.

`readDeclarator` follows this grammar and lists the levels of the type in the order in which they
bind, the one next to the name first. Parentheses where a name could begin are a group, unless
nothing that can begin a declarator comes after them; behind a name they hold parameters.

    declaration  :  const? base declarator
    declarator   :  * const? declarator  |  & declarator  |  direct
    direct       :  ( name  |  '(' declarator ')'  |  nothing )  suffix*
    suffix       :  '[' integer ']'  |  '(' parameters ')'

The functions take a number of steps that they stop after. Three for each token are enough.
-/

namespace PxdGen.Pxd

/-! ### Tokens -/

inductive Token where
  | word (s : String)
  | star
  | amp
  | opening
  | closing
  | openDim
  | closeDim
  | comma
  | minus
  | other (c : Char)
deriving DecidableEq, Repr

def Token.ofChar (c : Char) : Token :=
  match c with
  | '*' => .star
  | '&' => .amp
  | '(' => .opening
  | ')' => .closing
  | '[' => .openDim
  | ']' => .closeDim
  | ',' => .comma
  | '-' => .minus
  | c => .other c

/-- The word that has been collected, last character first, if there is one. -/
def wordToken : List Char → List Token
  | [] => []
  | c :: rest => [.word (String.ofList (c :: rest).reverse)]

/-- The tokens of a text, where `word` collects the word being read, last character first. -/
def tokensFrom : List Char → List Char → List Token
  | [], word => wordToken word
  | c :: rest, word =>
    if Text.isWordChar c then tokensFrom rest (c :: word)
    else if Text.isBlank c then wordToken word ++ tokensFrom rest []
    else wordToken word ++ Token.ofChar c :: tokensFrom rest []

/-- Words are as long as possible, every other character that is not blank stands alone. -/
def tokens (cs : List Char) : List Token := tokensFrom cs []

/-! ### Levels -/

/-- One level of a type, as a declarator writes it. -/
inductive Level where
  | pointer (isConst : Bool)
  | reference
  | array (dim : Int)
  | function (params : Params)

/-- Puts a level on a type, which may be by reference. Only functions take references. -/
def Level.apply? : Level → Bool × CType → Option (Bool × CType)
  | .pointer isConst, (false, t) => some (false, .pointer isConst t)
  | .array dim, (false, t) => some (false, .array dim t)
  | .reference, (false, t) => some (true, t)
  | .function params, (isReference, t) => some (false, .function params isReference t)
  | _, (true, _) => none

/-- A name with the levels of its type, the one next to the name first. -/
structure Declarator where
  name : Option Identifier
  levels : List Level

/-- A declarator with one more level around it. -/
def Declarator.under (d : Declarator) (level : Level) : Declarator :=
  { d with levels := d.levels ++ [level] }

structure Declaration where
  name : Option Identifier
  isReference : Bool
  type : CType

/-! ### Bases and sizes -/

/-- Whether `const` comes next, and what comes after it. -/
def readConst : List Token → Bool × List Token
  | .word s :: rest => if s = "const" then (true, rest) else (false, .word s :: rest)
  | ts => (false, ts)

/-- As many words of a type name as there are. -/
def readPhrase : List Token → List TypeWord × List Token
  | .word s :: rest =>
    if h : s ∈ typeWords then (⟨s, h⟩ :: (readPhrase rest).1, (readPhrase rest).2)
    else ([], .word s :: rest)
  | ts => ([], ts)

def readIdentifier? : List Token → Option (Identifier × List Token)
  | .word s :: rest => if h : isIdentifier s = true then some (⟨s, h⟩, rest) else none
  | _ => none

/-- The name of a type, which a declarator follows. -/
def readBase? : List Token → Option (BaseName × List Token)
  | .word s :: rest =>
    if h : s ∈ typeWords then some (.phrase ⟨s, h⟩ (readPhrase rest).1, (readPhrase rest).2)
    else if h : s ∈ tagWords then
      (readIdentifier? rest).map fun (name, left) => (.tagged ⟨s, h⟩ name, left)
    else (readIdentifier? (.word s :: rest)).map fun (name, left) => (.plain name, left)
  | _ => none

/-- A decimal number. -/
def readNatural? (s : String) : Option Nat :=
  if s.toList.all Char.isDigit then some (Nat.ofDigitChars 10 s.toList 0) else none

/-- The size of an array, up to the bracket that ends it. -/
def readDim? : List Token → Option (Int × List Token)
  | .minus :: .word s :: .closeDim :: rest => (readNatural? s).map fun n => (-(n : Int), rest)
  | .word s :: .closeDim :: rest => (readNatural? s).map fun n => ((n : Int), rest)
  | _ => none

/-! ### Declarators -/

/-- Whether a declarator can begin here. -/
def opensGroup : List Token → Bool
  | .word s :: _ => isIdentifier s
  | .star :: _ | .amp :: _ | .opening :: _ | .openDim :: _ => true
  | _ => false

mutual

def readDeclarator : Nat → List Token → Option (Declarator × List Token)
  | 0, _ => none
  | n + 1, ts =>
    match ts with
    | .star :: rest => do
      let (d, left) ← readDeclarator n (readConst rest).2
      some (d.under (.pointer (readConst rest).1), left)
    | .amp :: rest => do
      let (d, left) ← readDeclarator n rest
      some (d.under .reference, left)
    | _ => readDirect n ts

def readDirect : Nat → List Token → Option (Declarator × List Token)
  | 0, _ => none
  | n + 1, ts =>
    match ts with
    | .word _ :: _ => do
      let (name, left) ← readIdentifier? ts
      readSuffixes n ⟨some name, []⟩ left
    | .opening :: rest =>
      if opensGroup rest then do
        let (d, left) ← readDeclarator n rest
        match left with
        | .closing :: left => readSuffixes n d left
        | _ => none
      else readSuffixes n ⟨none, []⟩ ts
    | _ => readSuffixes n ⟨none, []⟩ ts

def readSuffixes : Nat → Declarator → List Token → Option (Declarator × List Token)
  | 0, _, _ => none
  | n + 1, d, ts =>
    match ts with
    | .openDim :: rest => do
      let (dim, left) ← readDim? rest
      readSuffixes n (d.under (.array dim)) left
    | .opening :: rest => do
      let (params, left) ← readParams n rest
      readSuffixes n (d.under (.function params)) left
    | _ => some (d, ts)

/-- The parameters of a function, up to the parenthesis that ends them. -/
def readParams : Nat → List Token → Option (Params × List Token)
  | 0, _ => none
  | n + 1, ts =>
    match ts with
    | .closing :: rest => some (.nil, rest)
    | _ => readParamList n ts

/-- Parameters with commas between them, one at least. -/
def readParamList : Nat → List Token → Option (Params × List Token)
  | 0, _ => none
  | n + 1, ts => do
    let (d, left) ← readDeclaration n ts
    match left with
    | .closing :: left => some (.cons d.name d.isReference d.type .nil, left)
    | .comma :: left => do
      let (params, left) ← readParamList n left
      some (.cons d.name d.isReference d.type params, left)
    | _ => none

def readDeclaration : Nat → List Token → Option (Declaration × List Token)
  | 0, _ => none
  | n + 1, ts => do
    let (base, left) ← readBase? (readConst ts).2
    let (d, left) ← readDeclarator n left
    let (isReference, type) ← d.levels.foldrM Level.apply? (false, .named (readConst ts).1 base)
    some (⟨d.name, isReference, type⟩, left)

end

def readText (text : String) : Option Declaration :=
  let ts := tokens text.toList
  match readDeclaration (3 * ts.length + 1) ts with
  | some (d, []) => some d
  | _ => none

end PxdGen.Pxd
