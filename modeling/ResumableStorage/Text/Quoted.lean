/-
  ResumableStorage/Text/Quoted.lean
  =================================
  **Quoted literals of texts and bytes** — how a rejected text is shown in an error
  message.  A literal stands between single quotes, or between double quotes when
  the text holds a single quote and no double one.  Backslash, the quote in use, tab,
  line feed and carriage return are escaped by a backslash; a character that cannot
  be printed is written by its code point in two, four or eight hexadecimal digits.
-/
import ResumableStorage.Text.Printable

namespace ResumableStorage.Text

/-- The lower-case hexadecimal digits of `n`, padded with zeros to `width`. -/
def hex (width n : Nat) : List Char :=
  let digits := Nat.toDigits 16 n
  List.replicate (width - digits.length) '0' ++ digits

namespace Quoted

def quoteFor (holdsSingle holdsDouble : Bool) : Char :=
  if holdsSingle && !holdsDouble then '"' else '\''

/-- Escapes that literals of texts and of bytes share; `other` writes the rest. -/
def escape (quote : Char) (other : Char → List Char) (c : Char) : List Char :=
  if c = '\\' || c = quote then ['\\', c]
  else if c = '\t' then ['\\', 't']
  else if c = '\n' then ['\\', 'n']
  else if c = '\r' then ['\\', 'r']
  else other c

/-- The code point of a character that cannot be printed, at the least of three widths. -/
def codePoint (c : Char) : List Char :=
  let n := c.toNat
  if n < 0x100 then '\\' :: 'x' :: hex 2 n
  else if n < 0x10000 then '\\' :: 'u' :: hex 4 n
  else '\\' :: 'U' :: hex 8 n

def textBody (quote : Char) (cs : List Char) : List Char :=
  cs.flatMap (escape quote fun c => if isPrintable c then [c] else codePoint c)

end Quoted

open Quoted

def quoted (s : String) : String :=
  let cs := s.toList
  let quote := quoteFor (cs.contains '\'') (cs.contains '"')
  String.ofList (quote :: textBody quote cs ++ [quote])

/-- The literal of a byte string: bytes outside printable ASCII are written in hexadecimal. -/
def quotedBytes (bytes : List UInt8) : String :=
  let cs := bytes.map fun b => Char.ofNat b.toNat
  let quote := quoteFor (cs.contains '\'') (cs.contains '"')
  let body := cs.flatMap (escape quote fun c =>
    if 0x20 ≤ c.toNat && c.toNat < 0x7f then [c] else codePoint c)
  String.ofList ('b' :: quote :: body ++ [quote])

example : quoted "it's" = "\"it's\"" ∧ quoted "a\n\"'" = "'a\\n\"\\''" := by constructor <;> cbv
example : quoted "a\x00" = "'a\\x00'" := by cbv

end ResumableStorage.Text
