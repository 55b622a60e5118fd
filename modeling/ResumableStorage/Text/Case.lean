/-
  ResumableStorage/Text/Case.lean
  ===============================
  **Upper and lower case of a text** — the full Unicode mappings: a character may
  become several, and a capital sigma that ends a word becomes the final form.
-/
import ResumableStorage.Text.Case.Upper
import ResumableStorage.Text.Case.Lower

namespace ResumableStorage.Text

namespace Case

/-- What a table of runs and expansions says of a character. -/
def apply (runs : List (Nat × Nat × Nat × Int)) (expansions : List (Nat × List Nat)) (c : Char) :
    List Char :=
  let n := c.toNat
  match expansions.lookup n with
  | some codes => codes.map Char.ofNat
  | none =>
    match runs.find? fun r => r.1 ≤ n && n ≤ r.2.1 && (n - r.1) % r.2.2.1 == 0 with
    | some r => [Char.ofNat (n + r.2.2.2).toNat]
    | none => [c]

def upperOf (c : Char) : List Char :=
  if c.toNat < 0x80 then [c.toUpper] else apply upperRuns upperExpansions c

def lowerOf (c : Char) : List Char :=
  if c.toNat < 0x80 then [c.toLower] else apply lowerRuns lowerExpansions c

def inRanges (ranges : List (Nat × Nat)) (c : Char) : Bool :=
  ranges.any fun r => r.1 ≤ c.toNat && c.toNat ≤ r.2

/-- The first character that is no caseless mark is a letter with a case. -/
def seesCased (cs : List Char) : Bool :=
  match cs.dropWhile (inRanges caselessMarkRanges) with
  | [] => false
  | c :: _ => inRanges casedRanges c

def capitalSigma : Char := Char.ofNat 0x3a3
def smallSigma : Char := Char.ofNat 0x3c3
def finalSigma : Char := Char.ofNat 0x3c2

/-- Lower case of a text; `before` holds what precedes it, nearest character first. -/
def lowerFrom (before : List Char) : List Char → List Char
  | [] => []
  | c :: rest =>
    let here :=
      if c = capitalSigma then
        [if seesCased before && !seesCased rest then finalSigma else smallSigma]
      else lowerOf c
    here ++ lowerFrom (c :: before) rest

end Case

def upper (s : String) : String :=
  String.ofList (s.toList.flatMap Case.upperOf)

def lower (s : String) : String :=
  String.ofList (Case.lowerFrom [] s.toList)

end ResumableStorage.Text
