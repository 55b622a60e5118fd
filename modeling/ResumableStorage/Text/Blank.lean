/-
  ResumableStorage/Text/Blank.lean
  ================================
  **Blank characters and trimming** — the separators that surround a value in a
  settings file or an environment variable.  A blank is a character of Unicode's
  White_Space property or one of the four information separators U+001C–U+001F.
-/

namespace ResumableStorage.Text

def isBlank (c : Char) : Bool :=
  let n := c.toNat
  (9 ≤ n && n ≤ 13) || (28 ≤ n && n ≤ 32) || n = 0x85 || n = 0xa0 || n = 0x1680 ||
    (0x2000 ≤ n && n ≤ 0x200a) || n = 0x2028 || n = 0x2029 || n = 0x202f || n = 0x205f ||
    n = 0x3000

/-- Blanks that may stand around a numeral: the information separators are not among them. -/
def isNumeralBlank (c : Char) : Bool :=
  isBlank c && !(28 ≤ c.toNat && c.toNat ≤ 31)

/-! ## 1. Trimming -/

def trimEnd (p : Char → Bool) (cs : List Char) : List Char :=
  (cs.reverse.dropWhile p).reverse

def trim (p : Char → Bool) (cs : List Char) : List Char :=
  trimEnd p (cs.dropWhile p)

theorem trimEnd_nil (p : Char → Bool) : trimEnd p [] = [] := rfl

end ResumableStorage.Text
