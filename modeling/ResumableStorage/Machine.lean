/-
  ResumableStorage/Machine.lean
  =============================
  **What the machine allows** — the lengths of byte buffers and of texts that there is
  room for, the digits of an integer that is written as text, and how deep the values may
  be nested that are.  Where these bounds lie is not known here: they are parameters of
  what can fail by them.
-/
import ResumableStorage.Text.Numeral

namespace ResumableStorage

structure Machine where
  /-- Whether there is room for a buffer of so many bytes. -/
  hasBytes : Nat → Bool := fun _ => true
  /-- Whether there is room for a text of so many characters. -/
  hasText : Nat → Bool := fun _ => true
  /-- The digits that a written integer may have; any number when absent. -/
  digits : Option Nat := none
  /-- The levels to which a written value may be nested; any number when absent. -/
  depth : Option Nat := none

/-- Why a byte buffer is not made: its length is beyond a signed word, or leaves no room there for
what stands around the content, or the machine has no room for it. -/
inductive BufferError where
  | lengthBeyondWord
  | lengthBeyondObject
  | outOfMemory
deriving DecidableEq, Repr

def BufferError.message : BufferError → String
  | lengthBeyondWord => "cannot fit 'int' into an index-sized integer"
  | lengthBeyondObject => "byte string is too large"
  | outOfMemory => ""

/-- Why a value is not written as text. -/
inductive WriteError where
  | tooManyDigits (limit : Nat)
  | tooDeep
deriving DecidableEq, Repr

/-- The message; `doing` says for what the value was written. -/
def WriteError.message (doing : String) : WriteError → String
  | tooManyDigits limit => Text.Numeral.lengthMessage limit ""
  | tooDeep => "maximum recursion depth exceeded while " ++ doing

namespace Machine

/-- A machine on which nothing fails. -/
def unlimited : Machine := {}

/-- The lengths that no buffer has: a signed word counts its bytes, with the 33 that stand around the
content. -/
def wordBound : Nat := 0x8000000000000000
def bufferBound : Nat := wordBound - 33

def checkBuffer (m : Machine) (length : Nat) : Except BufferError Unit :=
  if wordBound ≤ length then .error .lengthBeyondWord
  else if bufferBound ≤ length then .error .lengthBeyondObject
  else if m.hasBytes length then .ok ()
  else .error .outOfMemory

/-- The machine makes byte buffers of this length. -/
def MakesBuffer (m : Machine) (length : Nat) : Prop :=
  length < bufferBound ∧ m.hasBytes length = true

theorem checkBuffer_eq_ok_iff (m : Machine) (length : Nat) :
    m.checkBuffer length = .ok () ↔ m.MakesBuffer length := by
  have hbounds : bufferBound < wordBound := by decide
  unfold checkBuffer MakesBuffer
  split
  · simp only [reduceCtorEq, false_iff]
    omega
  · split
    · simp only [reduceCtorEq, false_iff]
      omega
    · rw [and_iff_right (by omega)]
      cases m.hasBytes length <;> simp

def checkDigits (m : Machine) (n : Int) : Except WriteError Unit :=
  match m.digits with
  | none => .ok ()
  | some limit =>
    if limit < Text.Numeral.digitCount n then .error (.tooManyDigits limit) else .ok ()

def checkDepth (m : Machine) (level : Nat) : Except WriteError Unit :=
  match m.depth with
  | none => .ok ()
  | some limit => if limit < level then .error .tooDeep else .ok ()

end Machine

end ResumableStorage
