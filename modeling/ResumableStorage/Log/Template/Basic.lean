/-
  ResumableStorage/Log/Template/Basic.lean
  ========================================
  **Message templates** — a template is text with holes for arguments.  A hole is a
  percent sign and a letter.  `s` displays its argument, `r` writes it as a literal, `a`
  as one in ASCII; `c` is a character; `d` (also `i` or `u`) writes a number without its
  fraction, `o` and `x` an integer in octal or hexadecimal; `e`, `f` and `g` write a double.

  Between the two may stand, in this order, the name of a field of the only argument in
  parentheses, flags, a width, a point with a precision, and a letter of length that
  does not matter.  A star takes a width or a precision from the arguments.  Two percent
  signs stand for one.

  A template is cut into pieces without a look at the arguments.
-/
import ResumableStorage.Value.Decode

namespace ResumableStorage

/-- The extents of what fills a hole. -/
inductive Measure where
  | width
  | precision
deriving DecidableEq

namespace Measure

def name : Measure → String
  | width => "width"
  | precision => "precision"

/-- The greatest extent: a long word holds a width and a short one a precision. -/
def greatest : Measure → Nat
  | width => 0x7fffffffffffffff
  | precision => 0x7fffffff

end Measure

inductive TemplateError where
  | missingArgument
  | leftoverArgument
  | notAnObject
  | unknownName (name : String)
  | notANumber (v : Value)
  | notAnInteger (letter : Char) (v : Value)
  | notAReal (v : Value)
  | notACharacter
  | characterTooLarge
  | integerTooLarge
  | notAnExtent
  /-- The template writes an extent that no text can have. -/
  | extentTooLarge (m : Measure)
  /-- An argument gives such an extent. -/
  | extentOutOfRange
  | precisionTooLarge
  /-- The machine has no room for the text. -/
  | beyondMemory
  | unreadable (e : Malformed)
  | unwritable (e : WriteError)
  | unsupported (letter : Char) (position : Nat)
  | unfinished
  | unfinishedName

namespace TemplateError

def message : TemplateError → String
  | missingArgument => "not enough arguments for format string"
  | leftoverArgument => "not all arguments converted during string formatting"
  | notAnObject => "format requires a mapping"
  | unknownName name => Text.quoted name
  | notANumber v => "%d format: a real number is required, not " ++ v.kindName
  | notAnInteger letter v => "%" ++ String.singleton letter ++
      " format: an integer is required, not " ++ v.kindName
  | notAReal v => "must be real number, not " ++ v.kindName
  | notACharacter => "%c requires int or char"
  | characterTooLarge => "%c arg not in range(0x110000)"
  | integerTooLarge => "int too large to convert to float"
  | notAnExtent => "* wants int"
  | extentTooLarge m => m.name ++ " too big"
  | extentOutOfRange => "extent out of range"
  | precisionTooLarge => "precision too large"
  | beyondMemory => ""
  | unreadable e => e.message
  | unwritable e => e.message "getting the repr of an object"
  | unsupported letter position =>
    let shown := if 31 ≤ letter.toNat && letter.toNat < 127 then letter else '?'
    "unsupported format character '" ++ String.singleton shown ++ "' (0x" ++
      String.ofList (Text.hex 1 letter.toNat) ++ ") at index " ++ toString position
  | unfinished => "incomplete format"
  | unfinishedName => "incomplete format key"

end TemplateError

namespace Template

/-! ## 1. Holes -/

inductive Extent where
  | fixed (n : Nat)
  | fromArgument
deriving DecidableEq

def Extent.digit (d : Nat) : Option Extent → Extent
  | some (.fixed n) => .fixed (n * 10 + d)
  | _ => .fixed d

/-- What stands before the letter of a hole. -/
structure Spec where
  name : Option String := none
  /-- `-`: blanks go behind the text. -/
  leftAligned : Bool := false
  /-- `+`: numbers that are not negative have a sign too. -/
  signed : Bool := false
  /-- A blank: they have a blank in its place. -/
  spaced : Bool := false
  /-- `0`: numbers are filled up with zeros. -/
  zeros : Bool := false
  /-- `#`: the base of an integer is told, and the point of a double is kept. -/
  explicit : Bool := false
  width : Option Extent := none
  precision : Option Extent := none
deriving DecidableEq

inductive Stage where
  | flag
  | widthDigit
  | widthStar
  | point
  | precisionDigit
  | precisionStar
  | length
deriving DecidableEq

namespace Spec

def withFlag? (s : Spec) : Char → Option Spec
  | '-' => some { s with leftAligned := true }
  | '+' => some { s with signed := true }
  | ' ' => some { s with spaced := true }
  | '0' => some { s with zeros := true }
  | '#' => some { s with explicit := true }
  | _ => none

def withLength? (s : Spec) (c : Char) : Option (Stage × Spec) :=
  if c = 'h' || c = 'l' || c = 'L' then some (.length, s) else none

def withPoint? (s : Spec) (c : Char) : Option (Stage × Spec) :=
  if c = '.' then some (.point, { s with precision := some (.fixed 0) }) else s.withLength? c

def withWidthDigit? (s : Spec) (c : Char) : Option (Stage × Spec) :=
  if c.isDigit then
    some (.widthDigit, { s with width := some (.digit (c.toNat - '0'.toNat) s.width) })
  else s.withPoint? c

def withPrecisionDigit? (s : Spec) (c : Char) : Option (Stage × Spec) :=
  if c.isDigit then
    some (.precisionDigit, { s with precision := some (.digit (c.toNat - '0'.toNat) s.precision) })
  else s.withLength? c

/-- The hole read on by one character; none when the character is its letter. -/
def read? (s : Spec) (stage : Stage) (c : Char) : Option (Stage × Spec) :=
  match stage with
  | .flag =>
    match s.withFlag? c with
    | some s => some (.flag, s)
    | none =>
      if c = '*' then some (.widthStar, { s with width := some .fromArgument })
      else s.withWidthDigit? c
  | .widthDigit => s.withWidthDigit? c
  | .widthStar => s.withPoint? c
  | .point =>
    if c = '*' then some (.precisionStar, { s with precision := some .fromArgument })
    else s.withPrecisionDigit? c
  | .precisionDigit => s.withPrecisionDigit? c
  | .precisionStar => s.withLength? c
  | .length => none

end Spec

/-! ## 2. Pieces -/

inductive Piece where
  | literal (c : Char)
  | hole (spec : Spec) (letter : Char) (position : Nat)
  | unfinished (spec : Spec)
  | unfinishedName
deriving DecidableEq

inductive Place where
  | text
  | opened
  /-- Within a name, `depth` parentheses deep; its characters, last one first. -/
  | name (depth : Nat) (done : List Char)
  /-- Behind a percent sign and more. -/
  | hole (stage : Stage) (spec : Spec)

/-- A hole read on by one character: the piece that is complete then, if one is, and the place. -/
def Place.holeStep (stage : Stage) (spec : Spec) (i : Nat) (c : Char) : Option Piece × Place :=
  match spec.read? stage c with
  | some (stage, spec) => (none, .hole stage spec)
  | none => (some (.hole spec c i), .text)

def Place.step (i : Nat) (c : Char) : Place → Option Piece × Place
  | .text => if c = '%' then (none, .opened) else (some (.literal c), .text)
  | .opened =>
    if c = '%' then (some (.literal c), .text)
    else if c = '(' then (none, .name 0 [])
    else holeStep .flag {} i c
  | .name depth done =>
    if c = '(' then (none, .name (depth + 1) (c :: done))
    else if c ≠ ')' then (none, .name depth (c :: done))
    else match depth with
      | 0 => (none, .hole .flag { name := String.ofList done.reverse })
      | depth + 1 => (none, .name depth (c :: done))
  | .hole stage spec => holeStep stage spec i c

def piecesFrom : Place → Nat → List Char → List Piece
  | .text, _, [] => []
  | .name .., _, [] => [.unfinishedName]
  | .opened, _, [] => [.unfinished {}]
  | .hole _ spec, _, [] => [.unfinished spec]
  | place, i, c :: rest =>
    match place.step i c with
    | (some piece, place) => piece :: piecesFrom place (i + 1) rest
    | (none, place) => piecesFrom place (i + 1) rest

def pieces (template : String) : List Piece :=
  piecesFrom .text 0 template.toList

end Template

end ResumableStorage
