/-
  ResumableStorage/Value/Decode.lean
  ==================================
  **Reading a value of unknown shape** — look-up of fields, iteration, conversion to an
  integer, and the ways in which each of them is refused.
-/
import ResumableStorage.Text.Numeral
import ResumableStorage.Value.Display

namespace ResumableStorage

/-- Why an answer could not be decoded. -/
inductive Malformed where
  | missingField (name : String)
  /-- An item is asked for by its place in a value that is no list. -/
  | missingItem (index : Nat)
  | numeral (e : Text.NumeralError)
  | byteNumeral (b : Bytes)
  | notANumber
  | infinite
  /-- A value is of a kind that does not allow what is done with it. -/
  | wrongKind (explanation : String)
  | noMember (kind member : String)

namespace Malformed

def message : Malformed → String
  | missingField name => Text.quoted name
  | missingItem index => toString index
  | numeral e => e.message
  | byteNumeral b => "invalid literal for int() with base 10: " ++
      String.ofList ((Text.quotedBytes b.toList).toList.take 200)
  | notANumber => "cannot convert float NaN to integer"
  | infinite => "cannot convert float infinity to integer"
  | wrongKind explanation => explanation
  | noMember kind member => "'" ++ kind ++ "' object has no attribute '" ++ member ++ "'"

end Malformed

namespace Value

def kindName : Value → String
  | null => "NoneType"
  | bool _ => "bool"
  | int _ => "int"
  | float _ => "float"
  | text _ => "str"
  | bytes _ => "bytes"
  | time _ => "datetime.datetime"
  | list _ => "list"
  | object _ => "dict"
  | stream .. => "Body"
  | handle => "Handle"

def field? (v : Value) (name : String) : Except Malformed (Option Value) :=
  match v with
  | object fields => .ok (Fields.find? fields name)
  | other => .error (.noMember other.kindName "get")

/-- A field, `default` when it is missing. -/
def fieldD (v : Value) (name : String) (default : Value) : Except Malformed Value := do
  return (← v.field? name).getD default

def field (v : Value) (name : String) : Except Malformed Value :=
  match v with
  | object fields =>
    match Fields.find? fields name with
    | some w => .ok w
    | none => .error (.missingField name)
  | list _ => .error (.wrongKind "list indices must be integers or slices, not str")
  | text _ => .error (.wrongKind "string indices must be integers, not 'str'")
  | bytes _ => .error (.wrongKind "byte indices must be integers or slices, not str")
  | other => .error (.wrongKind ("'" ++ other.kindName ++ "' object is not subscriptable"))

def items : Value → Except Malformed (List Value)
  | list vs => .ok vs
  | object fields => .ok (fields.map fun f => text f.1)
  | text s => .ok (s.toList.map fun c => text (String.singleton c))
  | bytes b => .ok (b.toList.map fun x => int x.toNat)
  | other => .error (.wrongKind ("'" ++ other.kindName ++ "' object is not iterable"))

/-- The integer that a value stands for: itself, a truth value as 0 or 1, a double without its
fraction, or the decimal that a text writes. -/
def toInt : Value → Except Malformed Int
  | int n => .ok n
  | bool b => .ok (if b then 1 else 0)
  | float x =>
    if x.isNaN then .error .notANumber
    else if x.isInfinite then .error .infinite
    else .ok x.truncate
  | text s => (Text.Numeral.read .decimal s).mapError .numeral
  | bytes b =>
    let ascii (x : UInt8) : Char := if x < 0x7f then Char.ofNat x.toNat else Char.ofNat 0
    match Text.Numeral.read .decimal (String.ofList (b.toList.map ascii)) with
    | .ok n => .ok n
    | .error (.tooLong digits) => .error (.numeral (.tooLong digits))
    | .error (.invalid ..) => .error (.byteNumeral b)
  | other => .error (.wrongKind
      ("int() argument must be a string, a bytes-like object or a real number, not '" ++
        other.kindName ++ "'"))

@[simp] theorem toInt_int (n : Int) : (int n).toInt = .ok n := rfl

@[simp] theorem field?_object (fields : Fields) (name : String) :
    (object fields).field? name = .ok (Fields.find? fields name) := rfl

@[simp] theorem items_list (vs : List Value) : (list vs).items = .ok vs := rfl

end Value

end ResumableStorage
