/-
  ResumableStorage/Value/JsonReader.lean
  ======================================
  **Values from JSON text** — the reader beside the writer of `Value.Json`.  A number
  with neither a point nor an exponent is an integer of any size; every other number
  is the nearest double.  When a field occurs twice the later one counts, in the place
  of the first.  Half of a surrogate pair on its own is no character and is replaced.
-/
import ResumableStorage.Value.Basic
import ResumableStorage.Text.Digit

namespace ResumableStorage

namespace Json

def isBlank (c : Char) : Bool :=
  c = ' ' || c = '\n' || c = '\r' || c = '\t'

def skipBlanks (cs : List Char) : List Char :=
  cs.dropWhile isBlank

/-! ## 1. Strings -/

def hexUnit? (a b c d : Char) : Option Nat := do
  let digit (x : Char) := (Text.digitValue? x).filter (· < 16)
  return (((← digit a) * 16 + (← digit b)) * 16 + (← digit c)) * 16 + (← digit d)

def isHighSurrogate (n : Nat) : Bool := 0xd800 ≤ n && n < 0xdc00
def isLowSurrogate (n : Nat) : Bool := 0xdc00 ≤ n && n < 0xe000

/-- What stands for half of a pair. -/
def replacement : Char := Char.ofNat 0xfffd

/-- The characters of a string so far, last one first, and the first half of a pair that waits for
the second one. -/
structure Units where
  done : List Char := []
  high : Option Nat := none

namespace Units

/-- One more unit behind complete characters. -/
def start (done : List Char) (n : Nat) : Units :=
  if isHighSurrogate n then { done, high := n }
  else if isLowSurrogate n then { done := replacement :: done }
  else { done := Char.ofNat n :: done }

def push (u : Units) (n : Nat) : Units :=
  match u.high with
  | none => start u.done n
  | some h =>
    if isLowSurrogate n then
      { done := Char.ofNat (0x10000 + (h - 0xd800) * 0x400 + (n - 0xdc00)) :: u.done }
    else start (replacement :: u.done) n

def toText (u : Units) : String :=
  String.ofList (match u.high with
    | none => u.done
    | some _ => replacement :: u.done).reverse

end Units

/-- The character that a letter behind a backslash stands for. -/
def escaped? : Char → Option Char
  | '"' => some '"'
  | '\\' => some '\\'
  | '/' => some '/'
  | 'n' => some '\n'
  | 'r' => some '\r'
  | 't' => some '\t'
  | 'b' => some (Char.ofNat 8)
  | 'f' => some (Char.ofNat 12)
  | _ => none

/-- The rest of a string, up to its closing mark. -/
def stringFrom (u : Units) : List Char → Option (String × List Char)
  | [] => none
  | '"' :: rest => some (u.toText, rest)
  | '\\' :: 'u' :: a :: b :: c :: d :: rest =>
    match hexUnit? a b c d with
    | some n => stringFrom (u.push n) rest
    | none => none
  | '\\' :: e :: rest =>
    match escaped? e with
    | some c => stringFrom (u.push c.toNat) rest
    | none => none
  | c :: rest => if c.toNat < 0x20 || c = '\\' then none else stringFrom (u.push c.toNat) rest

/-! ## 2. Numbers -/

def isDigit (c : Char) : Bool := '0' ≤ c && c ≤ '9'

def digitsValue (cs : List Char) : Nat :=
  cs.foldl (fun acc c => acc * 10 + (c.toNat - '0'.toNat)) 0

def number? (cs : List Char) : Option (Value × List Char) :=
  let (negative, cs) := match cs with
    | '-' :: rest => (true, rest)
    | _ => (false, cs)
  let whole := cs.takeWhile isDigit
  let cs := cs.dropWhile isDigit
  if whole.isEmpty || (whole.head? == some '0' && whole.length != 1) then none
  else
    let (fraction, cs) := match cs with
      | '.' :: rest =>
        let ds := rest.takeWhile isDigit
        if ds.isEmpty then (none, cs) else (some ds, rest.dropWhile isDigit)
      | _ => (none, cs)
    let (power, cs) : Option Int × List Char := match cs with
      | e :: rest =>
        if e = 'e' || e = 'E' then
          let (minus, body) := match rest with
            | '-' :: body => (true, body)
            | '+' :: body => (false, body)
            | _ => (false, rest)
          let ds := body.takeWhile isDigit
          if ds.isEmpty then (none, cs)
          else
            let n : Int := digitsValue ds
            (some (if minus then -n else n), body.dropWhile isDigit)
        else (none, cs)
      | [] => (none, cs)
    match fraction, power with
    | none, none =>
      let n : Int := digitsValue whole
      some (.int (if negative then -n else n), cs)
    | _, _ =>
      let places := fraction.getD []
      some (.float (Binary64.ofDecimal negative (digitsValue (whole ++ places))
        (power.getD 0 - places.length)), cs)

/-! ## 3. Values -/

def word? (cs : List Char) (words : List (String × Value)) : Option (Value × List Char) :=
  words.findSome? fun w =>
    if w.1.toList.isPrefixOf cs then some (w.2, cs.drop w.1.length) else none

def words : List (String × Value) :=
  [("null", .null), ("true", .bool true), ("false", .bool false), ("NaN", .float Binary64.nan),
    ("Infinity", .float (Binary64.infinity false)), ("-Infinity", .float (Binary64.infinity true))]

mutual

/-- A value at the front of a text, and the rest.  The first argument bounds the depth. -/
def value? : Nat → List Char → Option (Value × List Char)
  | 0, _ => none
  | n + 1, cs =>
    match skipBlanks cs with
    | '"' :: rest => (stringFrom {} rest).map fun (s, rest) => (.text s, rest)
    | '[' :: rest =>
      match skipBlanks rest with
      | ']' :: rest => some (.list [], rest)
      | rest => (items? n rest).map fun (vs, rest) => (.list vs, rest)
    | '\x7b' :: rest =>
      match skipBlanks rest with
      | '\x7d' :: rest => some (.object [], rest)
      | rest => (fields? n rest).map fun (fs, rest) => (.object (Fields.update [] fs), rest)
    | cs => (word? cs words).or (number? cs)

def items? : Nat → List Char → Option (List Value × List Char)
  | 0, _ => none
  | n + 1, cs => do
    let (v, cs) ← value? n cs
    match skipBlanks cs with
    | ',' :: rest =>
      let (vs, rest) ← items? n rest
      return (v :: vs, rest)
    | ']' :: rest => return ([v], rest)
    | _ => none

def fields? : Nat → List Char → Option (Fields × List Char)
  | 0, _ => none
  | n + 1, cs =>
    match skipBlanks cs with
    | '"' :: rest => do
      let (name, rest) ← stringFrom {} rest
      match skipBlanks rest with
      | ':' :: rest =>
        let (v, rest) ← value? n rest
        match skipBlanks rest with
        | ',' :: rest =>
          let (fs, rest) ← fields? n rest
          return ((name, v) :: fs, rest)
        | '\x7d' :: rest => return ([(name, v)], rest)
        | _ => none
      | _ => none
    | _ => none

end

/-- The value that a whole text writes. -/
def read? (s : String) : Option Value :=
  let cs := s.toList
  match value? (cs.length + 1) cs with
  | some (v, rest) => if (skipBlanks rest).isEmpty then some v else none
  | none => none

end Json

end ResumableStorage
