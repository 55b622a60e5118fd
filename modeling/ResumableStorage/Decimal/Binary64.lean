/-
  ResumableStorage/Decimal/Binary64.lean
  ======================================
  **Double-precision numbers** — a number is its 64-bit pattern: a sign, eleven bits of
  exponent and fifty-two of fraction.  A finite one is `m · 2^q` with integers `m` and
  `q`; all arithmetic here is exact arithmetic on these two.
-/

namespace ResumableStorage

/-- A double-precision number, by its bit pattern. -/
structure Binary64 where
  bits : UInt64
deriving DecidableEq, Repr, Inhabited

namespace Binary64

def isNegative (x : Binary64) : Bool :=
  x.bits >>> 63 == 1

def exponentField (x : Binary64) : Nat :=
  ((x.bits >>> 52) &&& 0x7ff).toNat

def fractionField (x : Binary64) : Nat :=
  (x.bits &&& 0xfffffffffffff).toNat

def isNaN (x : Binary64) : Bool :=
  x.exponentField == 0x7ff && x.fractionField != 0

def isInfinite (x : Binary64) : Bool :=
  x.exponentField == 0x7ff && x.fractionField == 0

/-- The bit that the fraction field leaves out. -/
def leadingBit : Nat :=
  1 <<< 52

/-- The pattern of infinity without its sign. -/
def infiniteBits : Nat :=
  0x7ff <<< 52

/-- The magnitude of a finite number is `significand · 2^scale`. -/
def significand (x : Binary64) : Nat :=
  if x.exponentField == 0 then x.fractionField else x.fractionField + leadingBit

def scale (x : Binary64) : Int :=
  if x.exponentField == 0 then -1074 else (x.exponentField : Int) - 1075

def isZero (x : Binary64) : Bool :=
  x.exponentField == 0 && x.fractionField == 0

/-- The number without its fraction, for a finite number. -/
def truncate (x : Binary64) : Int :=
  let m := if 0 ≤ x.scale then x.significand <<< x.scale.toNat
    else x.significand >>> (-x.scale).toNat
  if x.isNegative then -(m : Int) else m

def equalsInt (x : Binary64) (n : Int) : Bool :=
  let signed (m : Nat) : Int := if x.isNegative then -(m : Int) else m
  x.exponentField != 0x7ff &&
    if 0 ≤ x.scale then signed (x.significand <<< x.scale.toNat) == n
    else signed x.significand == n * ((1 <<< (-x.scale).toNat : Nat) : Int)

/-! ## 1. The nearest number to a fraction -/

/-- The quotient to the nearest integer, a half to the even one. -/
def roundDiv (num den : Nat) : Nat :=
  let q := num / den
  let r := num % den
  if 2 * r < den then q
  else if den < 2 * r then q + 1
  else if q % 2 = 0 then q else q + 1

/-- The bit pattern of the number nearest to `num / den`, ties to the even pattern; magnitudes
above the largest finite number give infinity. -/
def magnitudeBits (num den : Nat) : Nat :=
  if num = 0 then 0
  else
    -- the exponent that leaves a quotient of 53 bits, or the least exponent of all
    let guess : Int := (num.log2 : Int) - (den.log2 : Int) - 52
    let quotientAt (q : Int) : Nat × Nat :=
      if 0 ≤ q then (num, den <<< q.toNat) else (num <<< (-q).toNat, den)
    let fits (q : Int) : Bool := (quotientAt q).1 < 2 * leadingBit * (quotientAt q).2
    let full (q : Int) : Bool := leadingBit * (quotientAt q).2 ≤ (quotientAt q).1
    let q := if !full guess then guess - 1 else if !fits guess then guess + 1 else guess
    let q := max q (-1074)
    let m := roundDiv (quotientAt q).1 (quotientAt q).2
    -- a carry out of the 53 bits moves on to the next exponent by itself
    let pattern := if m < leadingBit then m else (q + 1074).toNat <<< 52 + m
    min pattern infiniteBits

def withSign (negative : Bool) (magnitude : Nat) : Binary64 :=
  ⟨UInt64.ofNat (if negative then 1 <<< 63 + magnitude else magnitude)⟩

def tenTo (k : Nat) : Nat :=
  Nat.pow 10 k

/-- The number nearest to `±digits · 10^exponent`. -/
def ofDecimal (negative : Bool) (digits : Nat) (exponent : Int) : Binary64 :=
  let top : Int := (toString digits).length + exponent
  withSign negative <|
    if digits = 0 || top < -330 then 0
    else if 320 < top then infiniteBits
    else if 0 ≤ exponent then magnitudeBits (digits * tenTo exponent.toNat) 1
    else magnitudeBits digits (tenTo (-exponent).toNat)

def infinity (negative : Bool) : Binary64 :=
  withSign negative infiniteBits

def nan : Binary64 :=
  ⟨0x7ff8000000000000⟩

def ofInt (n : Int) : Binary64 :=
  withSign (n < 0) (magnitudeBits n.natAbs 1)

example : (ofDecimal false 1 0).bits = 0x3ff0000000000000 := by decide +kernel
example : (ofDecimal true 1 (-1)).bits = 0xbfb999999999999a := by decide +kernel
example : (ofDecimal false 5 (-324)).bits = 1 := by decide +kernel

end Binary64

end ResumableStorage
