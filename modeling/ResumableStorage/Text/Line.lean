/-
  ResumableStorage/Text/Line.lean
  ===============================
  **Lines of a text** — a line ends at a line feed, a carriage return, the two
  together, a vertical tab, a form feed, one of the separators U+001C–U+001E, the
  next-line control U+0085, or a line or paragraph separator.  An end of line closes
  a line and opens none, so a text that ends with one has no empty last line.
-/

namespace ResumableStorage.Text

def isLineEnd (c : Char) : Bool :=
  let n := c.toNat
  (10 ≤ n && n ≤ 13) || (28 ≤ n && n ≤ 30) || n = 0x85 || n = 0x2028 || n = 0x2029

/-- The lines of a text; `line` holds the characters of the open line, last one first. -/
def linesFrom (line : List Char) : List Char → List (List Char)
  | [] => if line.isEmpty then [] else [line.reverse]
  | '\r' :: '\n' :: rest => line.reverse :: linesFrom [] rest
  | c :: rest =>
    if isLineEnd c then line.reverse :: linesFrom [] rest else linesFrom (c :: line) rest

def lines (s : String) : List String :=
  (linesFrom [] s.toList).map String.ofList

example : lines "a\r\nb\n\nc\x85d" = ["a", "b", "", "c", "d"] := by cbv
example : lines "" = [] ∧ lines "\n" = [""] := by constructor <;> cbv

end ResumableStorage.Text
