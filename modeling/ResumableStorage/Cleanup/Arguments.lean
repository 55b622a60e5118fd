/-
  ResumableStorage/Cleanup/Arguments.lean
  =======================================
  **Arguments of the cleanup command** — three options: the path below which uploads are
  considered, their age in hours, and whether to only tell what would be dropped.

  An option may be written by any beginning of its name that no other option shares, and
  its value may follow behind an equals sign or as the next word.  A word with a hyphen in
  front can be a value only when it is a negative number or holds a blank; two hyphens
  behind an equals sign leave the option without a value.  Words are told apart first, all
  of them; then they are consumed from the left.
-/
import ResumableStorage.Text.Affix
import ResumableStorage.Text.Numeral

namespace ResumableStorage.Cleanup

inductive Flag where
  | help
  | path
  | hours
  | dryRun
deriving DecidableEq, Repr

namespace Flag

/-- The long names, in the order in which they are listed. -/
def names : List (String × Flag) :=
  [("--help", help), ("--prefix", path), ("--hours", hours), ("--dry-run", dryRun)]

def describe : Flag → String
  | help => "-h/--help"
  | path => "--prefix"
  | hours => "--hours"
  | dryRun => "--dry-run"

end Flag

inductive UsageError where
  /-- Several options begin like this. -/
  | ambiguous (word : String) (candidates : List String)
  | valueExpected (flag : Flag)
  | valueUnexpected (flag : Flag) (value : String)
  | notAnInteger (flag : Flag) (text : String)
  /-- Words that belong to no option. -/
  | unrecognized (words : List String)
deriving DecidableEq, Repr

def UsageError.message : UsageError → String
  | ambiguous word candidates =>
    "ambiguous option: " ++ word ++ " could match " ++ String.intercalate ", " candidates
  | valueExpected flag => "argument " ++ flag.describe ++ ": expected one argument"
  | valueUnexpected flag value =>
    "argument " ++ flag.describe ++ ": ignored explicit argument " ++ Text.quoted value
  | notAnInteger flag text =>
    "argument " ++ flag.describe ++ ": invalid int value: " ++ Text.quoted text
  | unrecognized words => "unrecognized arguments: " ++ String.intercalate " " words

inductive Given (α : Type) where
  | value (a : α)
  | nothing
deriving DecidableEq, Repr

structure Options where
  path : Given String := .value "/"
  hours : Option (Given Int) := none
  dryRun : Bool := false
deriving DecidableEq, Repr

inductive Command where
  | run (o : Options)
  | help
deriving DecidableEq, Repr

/-! ## 1. Words -/

/-- The word behind which nothing is an option. -/
def endOfOptions : String := "--"

/-- A word of the command line. -/
inductive Word where
  /-- A word that can be a value. -/
  | plain (text : String)
  | option (flag : Flag) (value : Option String)
  /-- A word with a hyphen in front that is neither an option nor a value. -/
  | stray (text : String)
deriving DecidableEq, Repr

def isDigit (c : Char) : Bool :=
  (Text.decimalDigit? c).isSome

/-- The characters behind a hyphen make a number: digits, or digits around a point with at least
one behind it. -/
def isNumber (cs : List Char) : Bool :=
  match cs.dropWhile isDigit with
  | [] => !cs.isEmpty
  | '.' :: fraction => !fraction.isEmpty && fraction.all isDigit
  | _ => false

def withoutLineFeed (cs : List Char) : List Char :=
  match cs.getLast? with
  | some '\n' => cs.dropLast
  | _ => cs

def other (word : String) : Word :=
  if isNumber (withoutLineFeed (word.toList.drop 1)) || word.toList.contains ' ' then .plain word
  else .stray word

def longWord (word : String) : Except UsageError Word :=
  let (name, value) := match Text.cutAt '=' word.toList with
    | (cs, value) => (String.ofList cs, value.map String.ofList)
  match Flag.names.lookup name with
  | some flag => .ok (.option flag value)
  | none =>
    match Flag.names.filter fun n => Text.startsWith n.1 name with
    | [] => .ok (other word)
    | [n] => .ok (.option n.2 value)
    | several => .error (.ambiguous word (several.map Prod.fst))

/-- What follows a short option without a value: more of the same change nothing, and all else is
a value. -/
def beyondRepeats (cs : List Char) : Option (List Char) :=
  match cs.dropWhile (· == 'h') with
  | [] => none
  | rest => some rest

/-- The value behind the only short option, `-h`, in its word; one equals sign may stand between
them. -/
def shortValue : List Char → Option (List Char)
  | ['='] => some []
  | '=' :: value => beyondRepeats value
  | rest => beyondRepeats rest

def shortWord (word : String) : Word :=
  match word.toList with
  | '-' :: 'h' :: rest => .option .help ((shortValue rest).map String.ofList)
  | _ => other word

def classify (word : String) : Except UsageError Word :=
  match word.toList with
  | '-' :: '-' :: _ => longWord word
  | '-' :: _ :: _ => .ok (shortWord word)
  | _ => .ok (.plain word)

def words : List String → Except UsageError (List Word)
  | [] => .ok []
  | word :: rest =>
    if word = endOfOptions then .ok (.stray word :: rest.map .plain)
    else do return (← classify word) :: (← words rest)

/-! ## 2. Consumption -/

/-- The options with `flag` set to `value`; what ends the options is no value. -/
def setValue (o : Options) (flag : Flag) (value : String) : Except UsageError Options :=
  match flag with
  | .path => .ok { o with path := if value = endOfOptions then .nothing else .value value }
  | .hours =>
    if value = endOfOptions then .ok { o with hours := some .nothing }
    else match Text.Numeral.read .decimal value with
      | .ok n => .ok { o with hours := some (.value n) }
      | .error _ => .error (.notAnInteger flag value)
  | .help | .dryRun => .error (.valueUnexpected flag value)

/-- Consumes words; `left` holds those that belong to no option. -/
def consume (o : Options) (left : List String) : List Word → Except UsageError Command
  | [] => if left.isEmpty then .ok (.run o) else .error (.unrecognized left)
  | .plain text :: rest => consume o (left ++ [text]) rest
  | .stray text :: rest => consume o (left ++ [text]) rest
  | .option flag (some value) :: rest => do consume (← setValue o flag value) left rest
  | .option .help none :: _ => .ok .help
  | .option .dryRun none :: rest => consume { o with dryRun := true } left rest
  | .option flag none :: .plain value :: rest => do consume (← setValue o flag value) left rest
  | .option flag none :: _ => .error (.valueExpected flag)

def parse (argv : List String) : Except UsageError Command := do
  consume {} [] (← words argv)

example : parse ["--pre", "/z", "--hours=-5"] =
    .ok (.run { path := .value "/z", hours := some (.value (-5)) }) := by cbv
example : parse ["--h"] = .error (.ambiguous "--h" ["--help", "--hours"]) := by cbv
example : parse ["-hh5"] = .error (.valueUnexpected .help "5") := by cbv
example : parse ["--hours=--"] = .ok (.run { hours := some .nothing }) := by cbv
example : parse ["--prefix", "--dry-run"] = .error (.valueExpected .path) := by cbv

end ResumableStorage.Cleanup
