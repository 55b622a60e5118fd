/-
  ResumableStorage/Value/Json.lean
  ================================
  **Values as JSON text** — a value is written on one line, its fields in their order.
  Only the quotation mark, the backslash and the control characters below U+0020 are
  escaped; all other characters stand for themselves.  Instants, byte strings and the
  like have no JSON form of their own and are written as the text that displays them.
-/
import ResumableStorage.Value.Display

namespace ResumableStorage

namespace Json

def escape (c : Char) : List Char :=
  if c = '"' then ['\\', '"']
  else if c = '\\' then ['\\', '\\']
  else if c = '\n' then ['\\', 'n']
  else if c = '\r' then ['\\', 'r']
  else if c = '\t' then ['\\', 't']
  else if c.toNat = 8 then ['\\', 'b']
  else if c.toNat = 12 then ['\\', 'f']
  else if c.toNat < 0x20 then '\\' :: 'u' :: Text.hex 4 c.toNat
  else [c]

def writeText (s : String) : List Char :=
  '"' :: s.toList.flatMap escape ++ ['"']

/-- Doubles that are no numbers have names of their own. -/
def writeFloat (x : Binary64) : List Char :=
  if x.isNaN then "NaN".toList
  else if x.isInfinite then (if x.isNegative then "-Infinity" else "Infinity").toList
  else x.render.toList

def separated : List (List Char) → List Char
  | [] => []
  | [piece] => piece
  | piece :: rest => piece ++ ',' :: ' ' :: separated rest

end Json

namespace Value

open Json

mutual

def writeJson : Value → List Char
  | null => "null".toList
  | bool true => "true".toList
  | bool false => "false".toList
  | int n => (toString n).toList
  | float x => writeFloat x
  | text s => writeText s
  | list items => '[' :: separated (writeItems items) ++ [']']
  | object fields => '\x7b' :: separated (writeFields fields) ++ ['\x7d']
  | bytes b => writeText (display (bytes b))
  | time t => writeText (display (time t))
  | stream c f => writeText (display (stream c f))
  | handle => writeText (display handle)

def writeItems : List Value → List (List Char)
  | [] => []
  | v :: rest => writeJson v :: writeItems rest

def writeFields : List (String × Value) → List (List Char)
  | [] => []
  | (name, v) :: rest => (writeText name ++ ':' :: ' ' :: writeJson v) :: writeFields rest

end

/-- The JSON text of a value, whatever the machine allows. -/
def toJson (v : Value) : String :=
  String.ofList v.writeJson

def dump (v : Value) (m : Machine) : Except WriteError String := do
  v.check m 0
  return v.toJson

end Value

end ResumableStorage
