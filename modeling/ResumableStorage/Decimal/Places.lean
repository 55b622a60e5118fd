/-
  ResumableStorage/Decimal/Places.lean
  ====================================
  **Doubles to a number of places** — a number rounded to so many places behind the
  point, written positionally or with an exponent, or to so many significant digits in
  the shorter of the two forms.  The exact value is rounded, and a tie goes to the even
  neighbour.  The sign is left to the caller.
-/
import ResumableStorage.Decimal.Shortest

namespace ResumableStorage

namespace Binary64

/-- The magnitude of a finite number as a fraction. -/
def fraction (x : Binary64) : Nat × Nat :=
  if 0 ≤ x.scale then (x.significand <<< x.scale.toNat, 1)
  else (x.significand, 1 <<< (-x.scale).toNat)

/-- The digits of a number with a point before the last `places` of them.  Without places there
is no point, unless it is kept. -/
def withPoint (keepPoint : Bool) (places n : Nat) : List Char :=
  let digits := Nat.toDigits 10 n
  let padded := List.replicate (places + 1 - digits.length) '0' ++ digits
  let whole := padded.length - places
  padded.take whole ++ if places = 0 && !keepPoint then [] else '.' :: padded.drop whole

/-- An exponent with a sign and at least two digits. -/
def exponentText (mark : Char) (e : Int) : List Char :=
  let digits := Nat.toDigits 10 e.natAbs
  mark :: (if e < 0 then '-' else '+') :: if digits.length < 2 then '0' :: digits else digits

/-- The number rounded to one digit before the point and `places` behind it, as an integer of
that many digits, and its exponent. -/
def scientificParts (places : Nat) (x : Binary64) : Nat × Int :=
  if x.isZero then (0, 0)
  else
    let (num, den) := x.fraction
    let e := Shortest.leadingExponent num den
    let shift : Int := places - e
    let n := if 0 ≤ shift then roundDiv (num * tenTo shift.toNat) den
      else roundDiv num (den * tenTo (-shift).toNat)
    -- a carry out of the leading digit
    if n = tenTo (places + 1) then (tenTo places, e + 1) else (n, e)

def positional (keepPoint : Bool) (places : Nat) (x : Binary64) : List Char :=
  let (num, den) := x.fraction
  withPoint keepPoint places (roundDiv (num * tenTo places) den)

/-- With an exponent, one digit before the point and `places` behind it. -/
def scientific (keepPoint : Bool) (mark : Char) (places : Nat) (x : Binary64) : List Char :=
  let (n, e) := scientificParts places x
  withPoint keepPoint places n ++ exponentText mark e

def withoutZeros (cs : List Char) : List Char :=
  if cs.contains '.' then
    match cs.reverse.dropWhile (· == '0') with
    | '.' :: rest => rest.reverse
    | rest => rest.reverse
  else cs

/-- No double has more significant digits. -/
def maxSignificant : Nat := 767

/-- To `digits` significant digits: positionally for exponents from −4 on that are below the
number of digits.  Zeros at the end are written only where the point is kept. -/
def general (keepPoint : Bool) (mark : Char) (digits : Nat) (x : Binary64) : List Char :=
  let digits := max 1 (if keepPoint then digits else min digits maxSignificant)
  let (n, e) := scientificParts (digits - 1) x
  let finish (cs : List Char) : List Char := if keepPoint then cs else withoutZeros cs
  if -4 ≤ e && e < digits then finish (withPoint keepPoint (digits - 1 - e).toNat n)
  else finish (withPoint keepPoint (digits - 1) n) ++ exponentText mark e

end Binary64

end ResumableStorage
