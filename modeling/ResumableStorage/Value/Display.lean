/-
  ResumableStorage/Value/Display.lean
  ===================================
  **The text of a value** — `display` is the form in which a value enters a message:
  a text is itself, an instant its calendar form.  `literal` is the form that shows
  what kind of value it is; the items of a list and the fields of an object are
  always literals.

  Not every value can be written: the machine may bound the digits of an integer and the
  levels of values within values.
-/
import ResumableStorage.Machine
import ResumableStorage.Value.Basic

namespace ResumableStorage

namespace Calendar

/-- The literal of an instant names its calendar fields.  The microseconds are left out when there
are none, and so are the seconds then. -/
def literal (t : Instant) : String :=
  let d := dateOf t
  let c := clockOf t
  let seconds := if c.microsecond ≠ 0 then [c.second, c.microsecond]
    else if c.second ≠ 0 then [c.second] else []
  let fields := [d.year, d.month, d.day, c.hour, c.minute] ++ seconds
  "datetime.datetime(" ++ String.intercalate ", " (fields.map toString) ++
    ", tzinfo=datetime.timezone.utc)"

end Calendar

namespace Value

mutual

/-- The form of a value that shows its kind. -/
def literal : Value → String
  | null => "None"
  | bool true => "True"
  | bool false => "False"
  | int n => toString n
  | float x => x.render
  | text s => Text.quoted s
  | bytes b => Text.quotedBytes b.toList
  | time t => Calendar.literal t
  | list items => "[" ++ String.intercalate ", " (literals items) ++ "]"
  | object fields => "\x7b" ++ String.intercalate ", " (fieldLiterals fields) ++ "\x7d"
  | stream .. => "<body>"
  | handle => "<handle>"

def literals : List Value → List String
  | [] => []
  | v :: rest => literal v :: literals rest

def fieldLiterals : List (String × Value) → List String
  | [] => []
  | (name, v) :: rest => (Text.quoted name ++ ": " ++ literal v) :: fieldLiterals rest

end

def display : Value → String
  | text s => s
  | time t => Calendar.render t
  | v => v.literal

mutual

/-- Goes through a value, which stands within `level` others, in the order in which it is written;
the first integer that is too long, or value that is too deep, is the error. -/
def check (m : Machine) (level : Nat) : Value → Except WriteError Unit
  | null | bool _ | float _ | text _ => .ok ()
  | int n => m.checkDigits n
  | bytes _ | time _ | stream .. | handle => m.checkDepth (level + 1)
  | list items => do
    m.checkDepth (level + 1)
    checkItems m (level + 1) items
  | object fields => do
    m.checkDepth (level + 1)
    checkFields m (level + 1) fields

def checkItems (m : Machine) (level : Nat) : List Value → Except WriteError Unit
  | [] => .ok ()
  | v :: rest => do
    check m level v
    checkItems m level rest

def checkFields (m : Machine) (level : Nat) : List (String × Value) → Except WriteError Unit
  | [] => .ok ()
  | (_, v) :: rest => do
    check m level v
    checkFields m level rest

end

def tupleLiteral (vs : List Value) : String :=
  match vs with
  | [v] => "(" ++ v.literal ++ ",)"
  | _ => "(" ++ String.intercalate ", " (literals vs) ++ ")"

end Value

end ResumableStorage
