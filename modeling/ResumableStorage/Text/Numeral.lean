/-
  ResumableStorage/Text/Numeral.lean
  ==================================
  **Written integers** — an optional sign, then digits with single underscores
  between them, in decimal, or in another base behind its mark `0x`, `0o` or `0b`
  (in either case, an underscore may follow it).  Blanks may surround the whole.
  Decimal digits of every script stand for the ASCII ones.

  A reading either takes decimal digits only, or lets the text choose the base; in
  the second case a decimal with a leading zero has to be zero.  Changing a long number
  to or from decimal digits is slow, so decimals beyond a fixed number of digits are
  neither read nor written; the other bases have no such bound.
-/
import ResumableStorage.Text.Blank
import ResumableStorage.Text.Digit
import ResumableStorage.Text.Quoted

namespace ResumableStorage.Text

inductive Notation where
  | decimal
  | marked
deriving DecidableEq, Repr

inductive NumeralError where
  /-- It is none in the asked notation. -/
  | invalid (expected : Notation) (text : String)
  /-- It begins with a decimal of too many digits. -/
  | tooLong (digits : Nat)
deriving DecidableEq, Repr

namespace Numeral

/-! ## 1. Digits -/

/-- The blanks and digits that a numeral may use, brought to ASCII. -/
def toAscii (c : Char) : Char :=
  if c.toNat < 0x7f then c
  else if isBlank c then ' '
  else match decimalDigit? c with
    | some d => Char.ofNat ('0'.toNat + d)
    | none => c

def digitIn? (base : Nat) (c : Char) : Option Nat :=
  (digitValue? c).filter (· < base)

/-- The number whose leading digits made `value`, read on to the end of the text. -/
def digitsFrom (base value : Nat) : List Char → Option Nat
  | [] => some value
  | '_' :: c :: rest => do digitsFrom base (value * base + (← digitIn? base c)) rest
  | c :: rest => do digitsFrom base (value * base + (← digitIn? base c)) rest

/-- Digits with single underscores between them. -/
def digits (base : Nat) : List Char → Option Nat
  | [] => none
  | c :: rest => do digitsFrom base (← digitIn? base c) rest

/-- Digits behind a base mark, where one underscore may stand first. -/
def digitsAfterMark (base : Nat) : List Char → Option Nat
  | '_' :: rest => digits base rest
  | cs => digits base cs

def plainDecimal (cs : List Char) : Option Nat :=
  (digits 10 cs).filter fun n => cs.head? != some '0' || n == 0

/-- The base that a letter behind a zero marks. -/
def markedBase? (m : Char) : Option Nat :=
  if m = 'x' || m = 'X' then some 16
  else if m = 'o' || m = 'O' then some 8
  else if m = 'b' || m = 'B' then some 2
  else none

/-- The base of a text that chooses it by a mark, and what stands behind the mark. -/
def marked? : Notation → List Char → Option (Nat × List Char)
  | .marked, '0' :: m :: rest => (markedBase? m).map fun base => (base, rest)
  | _, _ => none

def magnitude (n : Notation) (cs : List Char) : Option Nat :=
  match marked? n cs, n with
  | some (base, rest), _ => digitsAfterMark base rest
  | none, .decimal => digits 10 cs
  | none, .marked => plainDecimal cs

/-! ## 2. Integers -/

def trimmed (s : String) : List Char :=
  trim isNumeralBlank (s.toList.map toAscii)

def splitSign : List Char → Bool × List Char
  | '-' :: rest => (true, rest)
  | '+' :: rest => (false, rest)
  | cs => (false, cs)

def read? (n : Notation) (s : String) : Option Int :=
  let (isNegative, cs) := splitSign (trimmed s)
  (magnitude n cs).map fun m => if isNegative then -(m : Int) else m

/-! ## 3. Length -/

/-- Decimals of more digits are neither read nor written. -/
def maxDigits : Nat := 4300

/-- Underscores stand only between other characters, and one at a time. -/
def wellSpaced : List Char → Bool
  | [] => false
  | [c] => c != '_'
  | c :: '_' :: rest => c != '_' && wellSpaced rest
  | c :: rest => c != '_' && wellSpaced rest

/-- The digits of the decimal with which a text begins, when they are too many.  What comes behind
it does not matter. -/
def overlong? (n : Notation) (cs : List Char) : Option Nat :=
  let run := cs.takeWhile fun c => c == '_' || (digitIn? 10 c).isSome
  let count := run.countP (· != '_')
  if (marked? n cs).isNone && maxDigits < count && wellSpaced run then some count else none

/-- The integer that a text writes, or the rejection of the text. -/
def read (n : Notation) (s : String) : Except NumeralError Int :=
  match overlong? n (splitSign (trimmed s)).2 with
  | some count => .error (.tooLong count)
  | none =>
    match read? n s with
    | some i => .ok i
    | none => .error (.invalid n s)

/-- The digits that the decimal of an integer has. -/
def digitCount (i : Int) : Nat :=
  (toString i.natAbs).length

def write? (i : Int) : Option String :=
  if maxDigits < digitCount i then none else some (toString i)

/-- What is said of an integer that is too long to be read or written. -/
def lengthMessage (limit : Nat) (detail : String) : String :=
  "Exceeds the limit (" ++ toString limit ++ " digits) for integer string conversion" ++
    detail ++ "; use sys.set_int_max_str_digits() to increase the limit"

end Numeral

/-- The message shows at most two hundred characters of the literal. -/
def NumeralError.message : NumeralError → String
  | invalid expected text =>
    let base := match expected with
      | .decimal => "10"
      | .marked => "0"
    "invalid literal for int() with base " ++ base ++ ": " ++
      String.ofList ((quoted text).toList.take 200)
  | tooLong digits =>
    Numeral.lengthMessage Numeral.maxDigits (": value has " ++ toString digits ++ " digits")

example : Numeral.read? .marked " -0x_1f " = some (-31) := by cbv
example : Numeral.read? .marked "0_0" = some 0 ∧ Numeral.read? .marked "01" = none := by
  constructor <;> cbv
example : Numeral.overlong? .decimal (List.replicate 5 '0') = none := by decide
example : Numeral.wellSpaced "1_0".toList = true ∧ Numeral.wellSpaced "1__0".toList = false := by
  constructor <;> cbv
example : Numeral.read? .decimal "1__0" = none ∧ Numeral.read? .decimal "1_" = none := by
  constructor <;> cbv

end ResumableStorage.Text
