/-! # Binary floating-point numbers

A double is a signed multiple of a power of two, an infinity or no number at all. Finite magnitudes
are `m * 2^q` with `q ≥ -1074`, where `m` has 53 binary digits, or fewer and then `q = -1074`. A
quotient of naturals is rounded to the nearest of them, a tie to the even `m`, and to an infinity
from halfway above the largest on.
-/

namespace PxdGen.Decimal

inductive Binary where
  | finite (negative : Bool) (m : Nat) (q : Int)
  | infinite (negative : Bool)
  | undefined
deriving DecidableEq, Repr

/-- `num / den` rounded to the nearest natural, a tie to the even one. -/
def roundEven (num den : Nat) : Nat :=
  let k := num / den
  let twice := 2 * (num % den)
  if twice > den || (twice == den && k % 2 == 1) then k + 1 else k

/-- The largest `e` with `2^e ≤ num / den`, for positive `num` and `den`. -/
def floorLog (num den : Nat) : Int :=
  let e : Int := (num.log2 : Int) - (den.log2 : Int)
  let fits : Bool :=
    if 0 ≤ e then den * Nat.pow 2 e.toNat ≤ num else den ≤ num * Nat.pow 2 (-e).toNat
  if fits then e else e - 1

def Binary.ofQuotient (negative : Bool) (num den : Nat) : Binary :=
  if num = 0 then .finite negative 0 (-1074)
  else
    let q := max (floorLog num den - 52) (-1074)
    let m :=
      if 0 ≤ q then roundEven num (den * Nat.pow 2 q.toNat)
      else roundEven (num * Nat.pow 2 (-q).toNat) den
    let (m, q) := if m = Nat.pow 2 53 then (Nat.pow 2 52, q + 1) else (m, q)
    if q > 971 then .infinite negative else .finite negative m q

def Binary.isZero : Binary → Bool
  | .finite _ m _ => m == 0
  | _ => false

end PxdGen.Decimal
