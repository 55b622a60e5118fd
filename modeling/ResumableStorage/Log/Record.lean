/-
  ResumableStorage/Log/Record.lean
  ================================
  **Log records and their lines** — a record is written as one JSON object on one line:
  level, logger and message, then the extra fields, which may take the place of these
  three, then the text of an exception.
-/
import ResumableStorage.Value.Json

namespace ResumableStorage

/-- The level of a record: the number by which loggers decide, and the name that is written.  A
program may name any number as it likes; these are the levels that have a name from the start. -/
structure Level where
  number : Int
  name : String
deriving DecidableEq, Repr

namespace Level

def notset : Level := ⟨0, "NOTSET"⟩
def debug : Level := ⟨10, "DEBUG"⟩
def info : Level := ⟨20, "INFO"⟩
def warning : Level := ⟨30, "WARNING"⟩
def error : Level := ⟨40, "ERROR"⟩
def critical : Level := ⟨50, "CRITICAL"⟩

/-- The level of a name; two levels have a second name. -/
def ofName? : String → Option Level
  | "NOTSET" => some notset
  | "DEBUG" => some debug
  | "INFO" => some info
  | "WARNING" | "WARN" => some warning
  | "ERROR" => some error
  | "CRITICAL" | "FATAL" => some critical
  | _ => none

end Level

/-- An exception: the name of its kind and what it was made with. -/
structure Exception where
  kind : String
  args : List Value

namespace Exception

/-- What the exception says: nothing, its one argument, or all of them.  The look-up of a
missing key shows the key as a literal. -/
def text (e : Exception) : String :=
  match e.args with
  | [] => ""
  | [v] => if e.kind = "KeyError" then v.literal else v.display
  | vs => Value.tupleLiteral vs

/-- What the account of an exception ends with, and all of it when it was never raised.  Otherwise
the lines before tell where it was raised and what led to it. -/
def summary (e : Exception) : String :=
  if e.text = "" then e.kind else e.kind ++ ": " ++ e.text

end Exception

structure LogRecord where
  level : Level
  logger : String
  message : String
  extra : Fields := []
  /-- The account of an exception, as it is written: any text. -/
  exception : Option String := none

namespace LogRecord

def fields (r : LogRecord) : Fields :=
  let base : Fields :=
    [("level", .text r.level.name), ("logger", .text r.logger), ("message", .text r.message)]
  let extended := base.update r.extra
  match r.exception with
  | none => extended
  | some account => extended.set "exc_info" (.text account)

def line (r : LogRecord) (m : Machine) : Except WriteError String :=
  (Value.object r.fields).dump m

/-- The short form without extra fields, for people to read. -/
def plainLine (r : LogRecord) : String :=
  r.level.name ++ " " ++ r.logger ++ ": " ++ r.message

end LogRecord

end ResumableStorage
