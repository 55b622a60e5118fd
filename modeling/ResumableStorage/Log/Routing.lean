/-
  ResumableStorage/Log/Routing.lean
  =================================
  **Where log records go** — loggers form a tree by their names, whose steps are
  separated by points.  A logger has a threshold, or takes that of the next logger above
  it, and hands its records to its own sinks and to those above, unless it keeps them to
  itself.

  Two loggers are set up: the root, which writes records as lines of fields, and the one
  of the scripts, which writes short lines for people and hands nothing on.
-/
import ResumableStorage.Error
import ResumableStorage.Log.Record
import ResumableStorage.Text.Affix
import ResumableStorage.Text.Line

namespace ResumableStorage

/-- How a sink writes records. -/
inductive LineForm where
  | fields
  | plain
  | bare
deriving DecidableEq, Repr

def LineForm.write (m : Machine) : LineForm → LogRecord → Except WriteError String
  | fields, r => r.line m
  | plain, r => .ok r.plainLine
  | bare, r => .ok r.message

structure LoggerSetup where
  level : Level
  propagates : Bool := true
  sinks : List LineForm := []
deriving DecidableEq

/-- The setup of the two loggers; all others take theirs from above. -/
structure Routing where
  root : LoggerSetup
  scripts : LoggerSetup
deriving DecidableEq

namespace Routing

def unset : Routing :=
  ⟨{ level := .warning }, { level := .notset }⟩

def ofLevel (level : Level) : Routing :=
  ⟨{ level, sinks := [.fields] }, { level, propagates := false, sinks := [.plain] }⟩

def defaultLevel : String := "INFO"

def setup (name : String) : Except Error Routing :=
  match Level.ofName? name with
  | some level => .ok (ofLevel level)
  | none => .error .unknownLogLevel

/-- The name that a logger's records carry: the root has no name of its own. -/
def recordedName (logger : String) : String :=
  if logger = "" then "root" else logger

def isScripts (logger : String) : Bool :=
  logger = "storage.scripts" || Text.startsWith logger "storage.scripts."

def chain (r : Routing) (logger : String) : List LoggerSetup :=
  if isScripts logger then [r.scripts, r.root] else [r.root]

def threshold (r : Routing) (logger : String) : Int :=
  match (r.chain logger).find? fun s => s.level.number ≠ 0 with
  | some s => s.level.number
  | none => 0

def sinks (r : Routing) (logger : String) : List LineForm :=
  if isScripts logger then r.scripts.sinks ++ (if r.scripts.propagates then r.root.sinks else [])
  else r.root.sinks

/-- What each sink makes of a record.  Without any sink the message of a warning, or worse, is
written. -/
def write (r : Routing) (m : Machine) (record : LogRecord) : List (Except WriteError String) :=
  let n := record.level.number
  if n ≤ 0 || n < r.threshold record.logger then []
  else match r.sinks record.logger with
    | [] => if Level.warning.number ≤ n then [LineForm.bare.write m record] else []
    | forms => forms.map fun form => form.write m record

/-- The lines of records.  A sink that cannot write a record passes it over: the next one is served,
and what the runtime says of the failure is not among the lines. -/
def lines (r : Routing) (m : Machine) (records : List LogRecord) : List String :=
  let texts := (records.flatMap (r.write m)).filterMap Except.toOption
  texts.flatMap fun text => Text.lines (text ++ "\n")

end Routing

end ResumableStorage
