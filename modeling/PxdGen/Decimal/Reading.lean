import PxdGen.Decimal.Binary
import PxdGen.Text.Integer
/-! # Reading decimals

A decimal is a sign, digits with an optional point among them, and an optional exponent; a single
underscore may stand between two digits. Infinities and the undefined number are read from their
names in any case. White space around the text is ignored.
-/

namespace PxdGen.Decimal

/-- The digits at the front of a text, underscores between them dropped, and the rest. -/
def spanDigits : List Char → List Nat × List Char
  | [] => ([], [])
  | '_' :: c :: rest =>
    match Text.digitValue? c with
    | some d => let (ds, r) := spanDigits rest; (d :: ds, r)
    | none => ([], '_' :: c :: rest)
  | c :: rest =>
    match Text.digitValue? c with
    | some d => let (ds, r) := spanDigits rest; (d :: ds, r)
    | none => ([], c :: rest)

/-- Digits that do not begin with an underscore. -/
def digitRun (cs : List Char) : List Nat × List Char :=
  if cs.head? == some '_' then ([], cs) else spanDigits cs

/-- The exponent at the end of a decimal; no text at all stands for zero. -/
def exponent? : List Char → Option Int
  | [] => some 0
  | e :: rest =>
    if e == 'e' || e == 'E' then
      let (negative, rest) := match rest with
        | '-' :: r => (true, r)
        | '+' :: r => (false, r)
        | r => (false, r)
      match digitRun rest with
      | ([], _) => none
      | (ds, []) =>
        let n : Nat := ds.foldl (fun v d => 10 * v + d) 0
        some (if negative then -(n : Int) else n)
      | _ => none
    else none

/-- The double nearest to `digits * 10^k`; exponents out of all range are settled by their sign. -/
def ofScientific (negative : Bool) (digits : Nat) (places : Nat) (k : Int) : Binary :=
  if digits = 0 then .finite negative 0 (-1074)
  else
    let size : Int := (Nat.toDigits 10 digits).length
    if k - places + size > 400 then .infinite negative
    else if k - places + size < -400 then .finite negative 0 (-1074)
    else
      let e := k - places
      .ofQuotient negative (digits * Nat.pow 10 e.toNat) (Nat.pow 10 (-e).toNat)

def unsigned? (negative : Bool) (cs : List Char) : Option Binary :=
  let lower := String.ofList (cs.map Char.toLower)
  if lower == "inf" || lower == "infinity" then some (.infinite negative)
  else if lower == "nan" then some .undefined
  else
    let (whole, rest) := digitRun cs
    let (places, rest) := match rest with
      | '.' :: r => digitRun r
      | r => ([], r)
    if whole.isEmpty && places.isEmpty then none
    else
      (exponent? rest).map fun k =>
        ofScientific negative ((whole ++ places).foldl (fun v d => 10 * v + d) 0) places.length k

def Binary.read? (s : String) : Option Binary :=
  match Text.numberChars s with
  | '-' :: rest => unsigned? true rest
  | '+' :: rest => unsigned? false rest
  | cs => unsigned? false cs

end PxdGen.Decimal
