import PxdGen.Decimal.Binary
/-! # The fewest digits that read back

The text of a double uses the fewest decimal digits that are read back as the same double, and of
those the ones nearest to its exact value. For each number of digits only the two neighbours of the
value on that decimal grid need be tried. They are tested against the interval of all reals that
round to the double, whose ends belong to it exactly if its significand is even.
-/

namespace PxdGen.Decimal

/-- `a * 10^k` against `b * 2^q`, both naturals scaled to a common whole multiple. -/
def scaled (a : Nat) (k : Int) (b : Nat) (q : Int) : Nat × Nat :=
  let x := a * Nat.pow 10 k.toNat * Nat.pow 2 (-q).toNat
  let y := b * Nat.pow 2 q.toNat * Nat.pow 10 (-k).toNat
  (x, y)

/-- Whether `a * 10^k` is read back as `m * 2^q`. The halfway points are taken in quarters of the
unit, because below a power of two the gap is half as wide. -/
def readsBack (m : Nat) (q : Int) (a : Nat) (k : Int) : Bool :=
  let narrow := m == Nat.pow 2 52 && q > -1074
  let below := if narrow then 4 * m - 1 else 4 * m - 2
  let (x, lo) := scaled a k below (q - 2)
  let (y, hi) := scaled a k (4 * m + 2) (q - 2)
  if m % 2 == 0 then lo ≤ x && y ≤ hi else lo < x && y < hi

/-- The least `k` with `m * 2^q < 10^k`, found from an estimate `k` that is too small by at most the
fuel. -/
def scaleFrom (m : Nat) (q : Int) : Nat → Int → Int
  | 0, k => k
  | fuel + 1, k =>
    let (ten, two) := scaled 1 k m q
    if two < ten then k else scaleFrom m q fuel (k + 1)

/-- Three tenths of the binary logarithm never exceed the decimal one for the sizes at hand by more
than a unit, and fall short of it by a few units at most. -/
def scale (m : Nat) (q : Int) : Int :=
  let e := (m.log2 : Int) + q
  let guess := if 0 ≤ e then e * 30102 / 100000 else e * 30103 / 100000 - 1
  scaleFrom m q 8 (guess - 1)

/-- The digits `a` and exponent `k` of `n` digits that read back, if there are such. -/
def candidate? (m : Nat) (q : Int) (top : Int) (n : Nat) : Option (Nat × Int) :=
  let k := top - n
  let (unit, value) := scaled 1 k m q
  let lo := value / unit
  let hi := lo + 1
  match readsBack m q lo k, readsBack m q hi k with
  | true, true =>
    if 2 * value < (lo + hi) * unit || (2 * value == (lo + hi) * unit && lo % 2 == 0) then
      some (lo, k)
    else some (hi, k)
  | true, false => some (lo, k)
  | false, true => some (hi, k)
  | false, false => none

/-- The digits of a positive magnitude and the exponent of the last one. -/
def shortest (m : Nat) (q : Int) : Nat × Int :=
  match (List.range' 1 17).findSome? (candidate? m q (scale m q)) with
  | some found => found
  | none => (m * Nat.pow 2 q.toNat * Nat.pow 5 (-q).toNat, min q 0)

/-- Digits without their trailing zeros, which the exponent takes over. -/
def dropZeros : Nat → Nat → Int → Nat × Int
  | 0, a, k => (a, k)
  | fuel + 1, a, k => if a ≠ 0 && a % 10 == 0 then dropZeros fuel (a / 10) (k + 1) else (a, k)

/-- Numbers from `10^-4` up to `10^16` are written positionally with at least one place, all others
with an exponent that has a sign and two digits or more. -/
def layout (digits : List Char) (point : Int) : List Char :=
  let n : Int := digits.length
  if -4 < point && point ≤ 16 then
    if point ≤ 0 then '0' :: '.' :: List.replicate (-point).toNat '0' ++ digits
    else if n ≤ point then digits ++ List.replicate (point - n).toNat '0' ++ ['.', '0']
    else digits.take point.toNat ++ '.' :: digits.drop point.toNat
  else
    let e := point - 1
    let ds := Nat.toDigits 10 e.natAbs
    let mantissa := match digits with
      | [d] => [d]
      | d :: rest => d :: '.' :: rest
      | [] => []
    mantissa ++ 'e' :: (if e < 0 then '-' else '+') :: List.replicate (2 - ds.length) '0' ++ ds

def Binary.text : Binary → String
  | .undefined => "nan"
  | .infinite negative => if negative then "-inf" else "inf"
  | .finite negative m q =>
    let body :=
      if m = 0 then "0.0".toList
      else
        let (a, k) := shortest m q
        let (a, k) := dropZeros 400 a k
        let ds := Nat.toDigits 10 a
        layout ds (k + ds.length)
    String.ofList (if negative then '-' :: body else body)

end PxdGen.Decimal
