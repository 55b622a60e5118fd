/-
  ResumableStorage/Value/Basic.lean
  =================================
  **Dynamic values** — what an object service answers with, and what a log record
  carries beside its message.  Nothing is promised about the shape of an answer, so
  an answer is a value of this type until the client has decoded it.
-/
import ResumableStorage.Bytes
import ResumableStorage.Calendar
import ResumableStorage.Decimal.Shortest

namespace ResumableStorage

/-- The ways in which a request or a read fails: the service answers with an error, it cannot be
reached, something else breaks on the way, or the error answer lacks a member or is of the wrong
kind to be read. -/
inductive FailureKind where
  | refused
  | unreachable
  | unexpected
  | memberless
  | wrongKind
deriving DecidableEq, Repr

structure ReadFailure where
  kind : FailureKind
  text : String
deriving DecidableEq, Repr

/-- A value of unknown shape.  The fields of an object keep their order; `stream` is a body that
is still to be read, and `handle` an object of the service's own that holds no data. -/
inductive Value where
  | null
  | bool (b : Bool)
  | int (n : Int)
  | float (x : Binary64)
  | text (s : String)
  | bytes (b : Bytes)
  | time (t : Instant)
  | list (items : List Value)
  | object (fields : List (String × Value))
  | stream (content : Bytes) (failure : Option ReadFailure)
  | handle
deriving Inhabited

abbrev Fields := List (String × Value)

namespace Fields

/-- The fields with `name` set to `v`: in its place when it is there, at the end otherwise. -/
def set (fields : Fields) (name : String) (v : Value) : Fields :=
  match fields with
  | [] => [(name, v)]
  | (n, w) :: rest => if n = name then (n, v) :: rest else (n, w) :: set rest name v

/-- The fields with those of `more` set one after the other. -/
def update (fields more : Fields) : Fields :=
  more.foldl (fun acc f => set acc f.1 f.2) fields

def find? (fields : Fields) (name : String) : Option Value :=
  fields.lookup name

theorem find?_set_self (fields : Fields) (name : String) (v : Value) :
    find? (set fields name v) name = some v := by
  induction fields with
  | nil => simp [set, find?]
  | cons f rest ih =>
    obtain ⟨n, w⟩ := f
    by_cases h : n = name
    · simp [set, h, find?]
    · simpa [set, h, find?, List.lookup_cons, beq_false_of_ne (Ne.symm h)] using ih

theorem find?_set_of_ne (fields : Fields) {name other : String} (v : Value) (h : other ≠ name) :
    find? (set fields name v) other = find? fields other := by
  induction fields with
  | nil => simp [set, find?, List.lookup_cons, beq_false_of_ne h]
  | cons f rest ih =>
    obtain ⟨n, w⟩ := f
    by_cases hn : n = name
    · subst hn
      simp [set, find?, List.lookup_cons, beq_false_of_ne h]
    · by_cases ho : other = n
      · subst ho; simp [set, hn, find?]
      · simpa [set, hn, find?, List.lookup_cons, beq_false_of_ne ho] using ih

end Fields

namespace Value

/-- Values that count as given: not null, not false, not zero and not empty. -/
def isGiven : Value → Bool
  | null => false
  | bool b => b
  | int n => n != 0
  | float x => !x.isZero
  | text s => s != ""
  | bytes b => b.size != 0
  | list items => !items.isEmpty
  | object fields => !fields.isEmpty
  | time _ | stream .. | handle => true

def given? (v : Value) : Option Value :=
  if v.isGiven then some v else none

def isInt (v : Value) (n : Int) : Bool :=
  match v with
  | int m => m == n
  | float x => x.equalsInt n
  | _ => false

/-- The text of an absent value is none; any other is kept. -/
def ofOption : Option String → Value
  | none => null
  | some s => text s

end Value

end ResumableStorage
