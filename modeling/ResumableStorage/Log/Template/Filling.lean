/-
  ResumableStorage/Log/Template/Filling.lean
  ==========================================
  **Filling a template** — the holes are filled from the left, each with the next
  argument or with the field it names, and the first that cannot be filled is the error.
  Every argument has to be used.
-/
import ResumableStorage.Decimal.Places
import ResumableStorage.Log.Record
import ResumableStorage.Log.Template.Basic

namespace ResumableStorage

namespace Template

/-! ## 1. Arguments -/

/-- Arguments in their order, or an object whose fields are arguments by name; then `current` is
what a hole without a name takes: the object itself, or the field that was named last. -/
inductive Arguments where
  | inOrder (rest : List Value)
  | named (fields : Fields) (current : Option Value)

namespace Arguments

def ofList : List Value → Arguments
  | [.object (f :: fields)] => named (f :: fields) (some (.object (f :: fields)))
  | vs => inOrder vs

def select (a : Arguments) : Option String → Except TemplateError Arguments
  | none => .ok a
  | some name =>
    match a with
    | inOrder _ => .error .notAnObject
    | named fields _ =>
      match Fields.find? fields name with
      | some v => .ok (named fields (some v))
      | none => .error (.unknownName name)

/-- The next argument, and those that are left. -/
def next : Arguments → Except TemplateError (Value × Arguments)
  | inOrder [] => .error .missingArgument
  | inOrder (v :: rest) => .ok (v, inOrder rest)
  | named _ none => .error .missingArgument
  | named fields (some v) => .ok (v, named fields none)

def extent (a : Arguments) (m : Measure) :
    Option Extent → Except TemplateError (Option Int × Arguments)
  | none => .ok (none, a)
  | some (.fixed n) => if n ≤ m.greatest then .ok (some n, a) else .error (.extentTooLarge m)
  | some .fromArgument => do
    match ← a.next with
    | (.int n, a) =>
      if -(m.greatest : Int) - 1 ≤ n && n ≤ m.greatest then return (some n, a)
      else .error .extentOutOfRange
    | (.bool b, a) => return (some b.toInt, a)
    | _ => .error .notAnExtent

end Arguments

/-! ## 2. Filling -/

/-- What a hole makes of its argument: a sign and the mark of a base, both of which may be missing,
and the rest. -/
structure Written where
  sign : List Char := []
  mark : List Char := []
  rest : List Char
  isNumber : Bool := false

def writeText (precision : Option Int) (text : String) : Written :=
  match precision with
  | none => { rest := text.toList }
  | some n => { rest := text.toList.take n.toNat }

def toAscii (text : String) : String :=
  String.ofList (text.toList.flatMap fun c =>
    if c.toNat < 0x80 then [c] else Text.Quoted.codePoint c)

def signOf (spec : Spec) (isNegative : Bool) : List Char :=
  if isNegative then ['-'] else if spec.signed then ['+'] else if spec.spaced then [' '] else []

/-- An integer, with at least as many digits as its precision. -/
def writeInteger (spec : Spec) (precision : Option Int) (base : Nat) (mark : List Char) (n : Int) :
    Written :=
  let digits := Nat.toDigits base n.natAbs
  let zeros := (precision.getD 0).toNat - digits.length
  { sign := signOf spec (n < 0)
    mark := if spec.explicit then mark else []
    rest := List.replicate zeros '0' ++ digits
    isNumber := true }

/-- The precision of an integer, which may fall short of the greatest one by three at least. -/
def integerPrecision (precision : Option Int) : Except TemplateError (Option Int) :=
  if (Measure.precision.greatest : Int) - 3 < precision.getD 0 then .error .precisionTooLarge
  else .ok precision

def writeNumber (m : Machine) (spec : Spec) (precision : Option Int) (v : Value) :
    Except TemplateError Written :=
  match v with
  | .int _ | .bool _ | .float _ => do
    let n ← v.toInt.mapError .unreadable
    let precision ← integerPrecision precision
    (m.checkDigits n).mapError .unwritable
    return writeInteger spec precision 10 [] n
  | other => .error (.notANumber other)

def integer? : Value → Option Int
  | .int n => some n
  | .bool b => some b.toInt
  | _ => none

def writeInBase (spec : Spec) (precision : Option Int) (letter : Char) (v : Value) :
    Except TemplateError Written :=
  match integer? v with
  | none => .error (.notAnInteger letter v)
  | some n => do
    let base := if letter = 'o' then 8 else 16
    let w := writeInteger spec (← integerPrecision precision) base ['0', letter] n
    return if letter = 'X' then { w with rest := w.rest.map Char.toUpper } else w

def real (v : Value) : Except TemplateError Binary64 :=
  match v with
  | .float x => .ok x
  | other =>
    match integer? other with
    | none => .error (.notAReal v)
    | some n =>
      let x := Binary64.ofInt n
      if x.isInfinite then .error .integerTooLarge else .ok x

def magnitude (keepPoint : Bool) (letter : Char) (precision : Nat) (x : Binary64) : List Char :=
  let mark := if letter.isUpper then 'E' else 'e'
  if x.isNaN then "nan".toList
  else if x.isInfinite then "inf".toList
  else match letter.toLower with
    | 'f' => x.positional keepPoint precision
    | 'e' => x.scientific keepPoint mark precision
    | _ => x.general keepPoint mark precision

/-- A double, to six places unless there is a precision. -/
def writeReal (spec : Spec) (precision : Option Int) (letter : Char) (v : Value) :
    Except TemplateError Written := do
  let x ← real v
  let cs := magnitude spec.explicit letter (precision.getD 6).toNat x
  return {
    sign := signOf spec (x.isNegative && !x.isNaN)
    rest := if letter.isUpper then cs.map Char.toUpper else cs
    isNumber := true }

/-- A character, given as itself or by its number. -/
def writeCharacter (v : Value) : Except TemplateError Written :=
  match v with
  | .text s =>
    match s.toList with
    | [c] => .ok { rest := [c] }
    | _ => .error .notACharacter
  | other =>
    match integer? other with
    | none => .error .notACharacter
    | some n =>
      if 0 ≤ n && n < 0x110000 then .ok { rest := [Char.ofNat n.toNat] }
      else .error .characterTooLarge

/-- A value in a form of its own, cut off at the precision. -/
def writeValue (m : Machine) (precision : Option Int) (form : Value → String) (v : Value) :
    Except TemplateError Written := do
  (v.check m 0).mapError .unwritable
  return writeText precision (form v)

/-- What a hole with this letter makes of its argument. -/
def convert (m : Machine) (spec : Spec) (precision : Option Int) (letter : Char) (position : Nat)
    (v : Value) : Except TemplateError Written :=
  match letter with
  | 's' => writeValue m precision Value.display v
  | 'r' => writeValue m precision Value.literal v
  | 'a' => writeValue m precision (toAscii ∘ Value.literal) v
  | 'c' => writeCharacter v
  | 'd' | 'i' | 'u' => writeNumber m spec precision v
  | 'o' | 'x' | 'X' => writeInBase spec precision letter v
  | 'e' | 'f' | 'g' | 'E' | 'F' | 'G' => writeReal spec precision letter v
  | other => .error (.unsupported other position)

/-- The characters to which a text is filled up.  A negative width fills up behind it; the least
one has no magnitude of its kind and fills up nothing. -/
def extentOf (m : Machine) (width : Option Int) : Except TemplateError Nat :=
  let n := (width.getD 0).natAbs
  if Measure.width.greatest < n then .ok 0
  else if m.hasText n then .ok n
  else .error .beyondMemory

def layOut (m : Machine) (spec : Spec) (width : Option Int) (w : Written) :
    Except TemplateError (List Char) := do
  let front := w.sign ++ w.mark
  let missing := (← extentOf m width) - (front.length + w.rest.length)
  let width := width.getD 0
  if spec.leftAligned || width < 0 then return front ++ w.rest ++ List.replicate missing ' '
  else if spec.zeros && w.isNumber then return front ++ List.replicate missing '0' ++ w.rest
  else return List.replicate missing ' ' ++ front ++ w.rest

/-- The width and the precision of a hole, and the arguments that are left. -/
def measure (a : Arguments) (spec : Spec) :
    Except TemplateError (Option Int × Option Int × Arguments) := do
  let (width, a) ← (← a.select spec.name).extent .width spec.width
  let (precision, a) ← a.extent .precision spec.precision
  return (width, precision, a)

def fillHole (m : Machine) (a : Arguments) (spec : Spec) (letter : Char) (position : Nat) :
    Except TemplateError (List Char × Arguments) := do
  let (width, precision, a) ← measure a spec
  let (v, a) ← a.next
  return (← layOut m spec width (← convert m spec precision letter position v), a)

def fill (m : Machine) (a : Arguments) : List Piece → Except TemplateError (List Char)
  | [] =>
    match a with
    | .inOrder (_ :: _) => .error .leftoverArgument
    | _ => .ok []
  | .literal c :: rest => do return c :: (← fill m a rest)
  | .unfinished spec :: _ => do
    let _ ← measure a spec
    .error .unfinished
  | .unfinishedName :: _ =>
    match a with
    | .inOrder _ => .error .notAnObject
    | .named .. => .error .unfinishedName
  | .hole spec letter position :: rest => do
    let (text, a) ← fillHole m a spec letter position
    return text ++ (← fill m a rest)

/-- The message that a template makes of its arguments; without any it is the template itself. -/
def message (m : Machine) (template : String) (args : List Value) : Except TemplateError String :=
  if args.isEmpty then .ok template
  else (fill m (.ofList args) (pieces template)).map String.ofList

example : message .unlimited "%s is %5d%%" [.text "a", .int (-3)] = .ok "a is    -3%" := by cbv
example : message .unlimited "%05d|%-3s|%.1s" [.int (-7), .text "x", .text "yz"] =
    .ok "-0007|x  |y" := by cbv
example : message .unlimited "100%" [] = .ok "100%" := by cbv

end Template

namespace LogRecord

/-- The record of a template and its arguments; `extra` counts when it is an object. -/
def ofTemplate (m : Machine) (level : Level) (logger template : String) (args : List Value)
    (extra : Value) (exception : Option String) : Except TemplateError LogRecord := do
  let fields := match extra with
    | .object fields => fields
    | _ => []
  return { level, logger, message := ← Template.message m template args, extra := fields, exception }

end LogRecord

end ResumableStorage
