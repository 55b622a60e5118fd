/-
  ResumableStorage/Decimal/Shortest.lean
  ======================================
  **The shortest decimal of a double** — the fewest significant digits that read back
  as the same number; of several decimals with that many digits the nearest, and on a
  tie the one with an even last digit.

  A decimal reads back exactly when it lies in the interval of reals that round to the
  number, ends included for an even significand.  If a decimal grid has a point in that
  interval, one of the two grid points around the number lies in it, so only these two
  are tried, on grids of one, two, … digits.
-/
import ResumableStorage.Decimal.Binary64

namespace ResumableStorage

namespace Binary64

/-- A positive decimal `digits · 10^exponent`. -/
structure Decimal where
  digits : Nat
  exponent : Int
deriving DecidableEq, Repr

namespace Shortest

/-- A positive number and the two ends of the interval that rounds to it, over one denominator. -/
structure Span where
  value : Nat
  low : Nat
  high : Nat
  den : Nat
  closed : Bool

/-- The interval of a finite positive magnitude.  Its lower half is half as wide when the number
is the least of its exponent. -/
def span (x : Binary64) : Span :=
  let m := x.significand
  let narrow := x.fractionField = 0 && 1 < x.exponentField
  let low := if narrow then 4 * m - 1 else 4 * m - 2
  let unit := x.scale - 2
  if 0 ≤ unit then
    let k := unit.toNat
    ⟨4 * m <<< k, low <<< k, (4 * m + 2) <<< k, 1, m % 2 = 0⟩
  else ⟨4 * m, low, 4 * m + 2, 1 <<< (-unit).toNat, m % 2 = 0⟩

def readsBack (s : Span) (d : Decimal) : Bool :=
  let (p, scale) := if 0 ≤ d.exponent then (d.digits * tenTo d.exponent.toNat * s.den, 1)
    else (d.digits * s.den, tenTo (-d.exponent).toNat)
  if s.closed then s.low * scale ≤ p && p ≤ s.high * scale
  else s.low * scale < p && p < s.high * scale

/-- The decimal exponent of the leading digit of `num / den`. -/
def leadingExponent (num den : Nat) : Int :=
  let guess : Int := (toString num).length - (toString den).length
  -- the true exponent is the guess or the one below
  let reached := if 0 ≤ guess then den * tenTo guess.toNat ≤ num
    else den ≤ num * tenTo (-guess).toNat
  if reached then guess else guess - 1

/-- The neighbour of the number that reads back, on the grid of step `10^exponent`. -/
def onGrid? (s : Span) (exponent : Int) : Option Decimal :=
  let (num, den) := if 0 ≤ exponent then (s.value, s.den * tenTo exponent.toNat)
    else (s.value * tenTo (-exponent).toNat, s.den)
  let below := num / den
  let rest := num % den
  let d : Decimal := ⟨below, exponent⟩
  let u : Decimal := ⟨below + 1, exponent⟩
  match below != 0 && readsBack s d, readsBack s u with
  | true, true =>
    some (if 2 * rest < den then d else if den < 2 * rest then u
      else if below % 2 = 0 then d else u)
  | true, false => some d
  | false, true => some u
  | false, false => none

/-- The same decimal without zeros at its end; `fuel` bounds their number. -/
def dropZeros : Nat → Decimal → Decimal
  | 0, d => d
  | fuel + 1, d =>
    if d.digits % 10 = 0 && d.digits != 0 then dropZeros fuel ⟨d.digits / 10, d.exponent + 1⟩
    else d

/-- The exact value, should no grid of seventeen digits have held a decimal that reads back. -/
def exact (s : Span) : Decimal :=
  let places := s.den.log2
  ⟨s.value * Nat.pow 5 places, -(places : Int)⟩

end Shortest

open Shortest

def shortest (x : Binary64) : Decimal :=
  let s := span x
  let e := leadingExponent s.value s.den
  let found := (List.range 17).findSome? fun (n : Nat) => onGrid? s (e - n)
  dropZeros 400 (found.getD (exact s))

/-! ## 1. Layout

Exponents of the leading digit from −4 to 15 are written positionally, with at least one digit
after the point; others with one digit before the point and an exponent of a sign and at least
two digits. -/

def render (x : Binary64) : String :=
  let sign := if x.isNegative then "-" else ""
  if x.isNaN then "nan"
  else if x.isInfinite then sign ++ "inf"
  else if x.isZero then sign ++ "0.0"
  else
    let d := x.shortest
    let ds := Nat.toDigits 10 d.digits
    let e : Int := d.exponent + ds.length - 1
    sign ++ String.ofList (
      if -4 ≤ e && e < 16 then
        if 0 ≤ d.exponent then ds ++ List.replicate d.exponent.toNat '0' ++ ['.', '0']
        else if 0 ≤ e then ds.take (e.toNat + 1) ++ '.' :: ds.drop (e.toNat + 1)
        else '0' :: '.' :: List.replicate (-e - 1).toNat '0' ++ ds
      else
        let mantissa := match ds with
          | [c] => [c]
          | c :: rest => c :: '.' :: rest
          | [] => []
        let power := Nat.toDigits 10 e.natAbs
        mantissa ++ 'e' :: (if e < 0 then '-' else '+') ::
          (if power.length < 2 then '0' :: power else power))

example : (ofDecimal false 1 (-1)).shortest = ⟨1, -1⟩ := by decide +kernel
example : (ofDecimal false 1 23).shortest = ⟨1, 23⟩ := by decide +kernel

end Binary64

end ResumableStorage
