/-
  ResumableStorage/Settings/EnvFile.lean
  ======================================
  **Settings files** — lines of the form `NAME=value` that define variables.  Blank
  lines, lines that begin with a number sign and lines without an equals sign define
  nothing.  Blanks around the name and the value do not count, nor do quotation marks
  around the value: double ones outside, single ones inside.

  A file only adds to an environment: a variable that is set keeps its value, so the
  first definition of a name counts.
-/
import ResumableStorage.Error
import ResumableStorage.Keyed
import ResumableStorage.Text.Affix
import ResumableStorage.Text.Line

namespace ResumableStorage

abbrev Environment := Keyed String String

namespace Environment

def hasZero (s : String) : Bool :=
  s.toList.contains (Char.ofNat 0)

/-- The environment with a variable set, if it can be one. -/
def define (env : Environment) (name value : String) : Except VariableError Environment :=
  if hasZero name || hasZero value then .error .zero
  else if name.toList.contains '=' then .error .equalsSign
  else if name = "" then .error .nameless
  else .ok (env.insert name value)

def ofList (pairs : List (String × String)) : Except VariableError Environment :=
  pairs.foldlM (fun env v => define env v.1 v.2) Keyed.empty

end Environment

namespace EnvFile

/-- The characters without quotation marks at the ends: double ones, then single ones. -/
def unquote (cs : List Char) : List Char :=
  Text.trim (· == '\'') (Text.trim (· == '"') cs)

def definition? (line : List Char) : Option (String × String) :=
  match Text.trim Text.isBlank line with
  | [] => none
  | '#' :: _ => none
  | cs =>
    match Text.cutAt '=' cs with
    | (_, none) => none
    | (name, some value) =>
      match Text.trim Text.isBlank name with
      | [] => none
      | name => some (String.ofList name,
          String.ofList (unquote (Text.trim Text.isBlank value)))

def definitions (text : String) : List (String × String) :=
  (Text.linesFrom [] text.toList).filterMap definition?

/-- Adds definitions one after the other.  One that cannot be a variable is an error, and those
before it stay. -/
def add (env : Environment) : List (String × String) → Except Error Unit × Environment
  | [] => (.ok (), env)
  | (name, value) :: rest =>
    if (env.find? name).isSome then add env rest
    else match Environment.define env name value with
      | .error e => (.error (.unsettable e), env)
      | .ok env => add env rest

/-- Adds the definitions of a file; one that is not valid text adds none. -/
def load (env : Environment) (file : Bytes) : Except Error Unit × Environment :=
  match String.fromUTF8? file with
  | none => (.error .undecodable, env)
  | some text => add env (definitions text)

example : definition? " A = \"'b c'\" ".toList = some ("A", "b c") := by cbv
example : definition? "# A=b".toList = none ∧ definition? "=b".toList = none := by
  constructor <;> cbv

end EnvFile

end ResumableStorage
