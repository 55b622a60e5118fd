/-
  ResumableStorage/Meters.lean
  ============================
  **Counters** — what writers have done: parts and bytes uploaded, repairs by the way
  they were made, finished writers by the way they ended; and their text exposition,
  one line for each sample.
-/
import ResumableStorage.Text.Quoted

namespace ResumableStorage

inductive RepairMode where
  | refetch
  | copy
deriving DecidableEq, Repr

def RepairMode.name : RepairMode → String
  | refetch => "refetch"
  | copy => "copy"

inductive Ending where
  | closed
  | committed
  | commitFailed
  | cancelled
deriving DecidableEq, Repr

def Ending.name : Ending → String
  | closed => "closed"
  | committed => "committed"
  | commitFailed => "commit_failed"
  | cancelled => "cancelled"

structure Meters where
  parts : Nat := 0
  partBytes : Nat := 0
  refetches : Nat := 0
  copies : Nat := 0
  closed : Nat := 0
  committed : Nat := 0
  commitFailed : Nat := 0
  cancelled : Nat := 0
deriving DecidableEq, Repr, Inhabited

namespace Meters

def addPart (m : Meters) (size : Nat) : Meters :=
  { m with parts := m.parts + 1, partBytes := m.partBytes + size }

def addRepair (m : Meters) : RepairMode → Meters
  | .refetch => { m with refetches := m.refetches + 1 }
  | .copy => { m with copies := m.copies + 1 }

def addEnding (m : Meters) : Ending → Meters
  | .closed => { m with closed := m.closed + 1 }
  | .committed => { m with committed := m.committed + 1 }
  | .commitFailed => { m with commitFailed := m.commitFailed + 1 }
  | .cancelled => { m with cancelled := m.cancelled + 1 }

def repairs (m : Meters) (mode : RepairMode) : Nat :=
  match mode with
  | .refetch => m.refetches
  | .copy => m.copies

def endings (m : Meters) (e : Ending) : Nat :=
  match e with
  | .closed => m.closed
  | .committed => m.committed
  | .commitFailed => m.commitFailed
  | .cancelled => m.cancelled

/-! ## 1. Exposition -/

/-- The metric families: name, help text. -/
def families : List (String × String) :=
  [("storage_parts_uploaded_total", "Multipart upload parts flushed by writers"),
    ("storage_part_bytes_total", "Bytes uploaded through multipart upload parts"),
    ("storage_session_repairs_total",
      "Resumed uploads restarted because their last part was undersized"),
    ("storage_writer_finished_total", "Writers that reached a terminal state")]

structure Sample where
  family : String
  label : Option (String × String)
  value : Nat

/-- The samples.  One with a label is there from the first time it was counted. -/
def samples (m : Meters) : List Sample :=
  [⟨"storage_parts_uploaded_total", none, m.parts⟩,
    ⟨"storage_part_bytes_total", none, m.partBytes⟩] ++
  ([RepairMode.refetch, .copy].map fun mode =>
    (⟨"storage_session_repairs_total", some ("mode", mode.name), m.repairs mode⟩ : Sample)).filter
      (·.value != 0) ++
  ([Ending.closed, .committed, .commitFailed, .cancelled].map fun e =>
    (⟨"storage_writer_finished_total", some ("outcome", e.name), m.endings e⟩ : Sample)).filter
      (·.value != 0)

/-- A count below a million with one place behind the point; from there on a mantissa without
zeros at its end, and a power of ten. -/
def renderCount (n : Nat) : String :=
  let digits := Nat.toDigits 10 n
  if digits.length ≤ 6 then String.ofList (digits ++ ['.', '0'])
  else
    let rest := (digits.drop 1).reverse.dropWhile (· == '0')
    String.ofList (digits.take 1 ++ (if rest.isEmpty then [] else '.' :: rest.reverse)) ++
      "e+0" ++ toString (digits.length - 1)

def Sample.render (s : Sample) : String :=
  let label := match s.label with
    | none => ""
    | some (name, v) => "\x7b" ++ name ++ "=\"" ++ v ++ "\"\x7d"
  s.family ++ label ++ " " ++ renderCount s.value

def exposition (m : Meters) : List String :=
  families.flatMap fun (name, help) =>
    ("# HELP " ++ name ++ " " ++ help) :: ("# TYPE " ++ name ++ " counter") ::
      (m.samples.filter (·.family == name)).map Sample.render

example : renderCount 25 = "25.0" ∧ renderCount 1200000 = "1.2e+06" := by constructor <;> cbv
example : renderCount 999999 = "999999.0" ∧ renderCount 1000000 = "1e+06" := by
  constructor <;> cbv

end Meters

end ResumableStorage
