/-
  ResumableStorage/Proofs/Text/Numerals.lean
  ==========================================
  **The grammar of written integers** — an integer is written as blanks, a sign or none, a
  magnitude and blanks.  A magnitude is a plain decimal, or digits of another base behind a
  zero and a letter.  The grammar is told by how a text is put together, and the reader is
  shown to take exactly the texts of the grammar, each as the number that its digits make.

  The reader works on a text brought to ASCII; the grammar speaks of the characters as they
  stand, so a decimal digit may be of any script.
-/
import ResumableStorage.Proofs.Text.Cutting
import ResumableStorage.Text.Numeral

namespace ResumableStorage.Text

/-! ## 1. The grammar -/

/-- The letters that go on behind the digit nine, in both cases. -/
def letterDigits : List (Char × Nat) :=
  [('a', 10), ('b', 11), ('c', 12), ('d', 13), ('e', 14), ('f', 15),
    ('A', 10), ('B', 11), ('C', 12), ('D', 13), ('E', 14), ('F', 15)]

/-- The character is a digit of the base, a decimal digit of some script or a letter. -/
def StandsFor (base : Nat) (c : Char) (d : Nat) : Prop :=
  d < base ∧ (decimalDigit? c = some d ∨ (c, d) ∈ letterDigits)

instance (base : Nat) (c : Char) (d : Nat) : Decidable (StandsFor base c d) :=
  inferInstanceAs (Decidable (_ ∧ _))

/-- Digits behind a digit or a mark.  One underscore may stand in front of each. -/
inductive DigitRun (base : Nat) : List Char → List Nat → Prop
  | done : DigitRun base [] []
  | next {c : Char} {d : Nat} {cs : List Char} {ds : List Nat} (digit : StandsFor base c d)
      (rest : DigitRun base cs ds) : DigitRun base (c :: cs) (d :: ds)
  | spaced {c : Char} {d : Nat} {cs : List Char} {ds : List Nat} (digit : StandsFor base c d)
      (rest : DigitRun base cs ds) : DigitRun base ('_' :: c :: cs) (d :: ds)

/-- The letters that mark a base behind a zero. -/
def baseMarks : List (Char × Nat) :=
  [('x', 16), ('X', 16), ('o', 8), ('O', 8), ('b', 2), ('B', 2)]

/-- An unsigned number with its base and its digits.  Where a text may choose its base, a decimal
that begins with a zero has no other digits. -/
inductive Magnitude (n : Notation) : Nat → List Char → List Nat → Prop
  | plain {c : Char} {d : Nat} {cs : List Char} {ds : List Nat} (first : StandsFor 10 c d)
      (rest : DigitRun 10 cs ds) (leading : n = .marked → d = 0 → ∀ e ∈ ds, e = 0) :
      Magnitude n 10 (c :: cs) (d :: ds)
  | marked {zero m : Char} {base : Nat} {cs : List Char} {ds : List Nat} (chosen : n = .marked)
      (first : StandsFor 10 zero 0) (mark : (m, base) ∈ baseMarks) (run : DigitRun base cs ds)
      (nonempty : ds ≠ []) : Magnitude n base (zero :: m :: cs) ds

/-- A number as it is written: its sign, its base and its digits, the first one counting most. -/
structure Written where
  isNegative : Bool
  base : Nat
  digits : List Nat

namespace Written

def magnitude (w : Written) : Nat := Nat.ofDigits w.base w.digits.reverse

def value (w : Written) : Int := if w.isNegative then -(w.magnitude : Int) else w.magnitude

/-- A decimal of more digits than are read. -/
def TooLong (w : Written) : Prop := w.base = 10 ∧ Numeral.maxDigits < w.digits.length

instance (w : Written) : Decidable w.TooLong := inferInstanceAs (Decidable (_ ∧ _))

end Written

/-- The signs, none among them, and whether they make a number negative. -/
def signs : List (List Char × Bool) := [([], false), (['+'], false), (['-'], true)]

/-- A number with its sign. -/
def Signed (n : Notation) (cs : List Char) (w : Written) : Prop :=
  ∃ sign body, cs = sign ++ body ∧ (sign, w.isNegative) ∈ signs ∧ Magnitude n w.base body w.digits

/-- A number with its sign between blanks, where `p` says what counts as a blank. -/
def Spells (p : Char → Bool) (n : Notation) (cs : List Char) (w : Written) : Prop :=
  ∃ front inner behind, cs = front ++ inner ++ behind ∧ (∀ c ∈ front, p c = true) ∧
    (∀ c ∈ behind, p c = true) ∧ Signed n inner w

variable {p : Char → Bool} {n : Notation} {base d m : Nat} {c a : Char} {cs : List Char}
  {ds : List Nat} {w : Written}

theorem Magnitude.exists_first (h : Magnitude n base cs ds) :
    ∃ c rest d, cs = c :: rest ∧ StandsFor 10 c d := by
  cases h with
  | plain first => exact ⟨_, _, _, rfl, first⟩
  | marked _ first => exact ⟨_, _, _, rfl, first⟩

theorem base_le_of_mark (h : (a, base) ∈ baseMarks) : base ≤ 16 ∧ base ≠ 10 := by
  have hall : ∀ mark ∈ baseMarks, mark.2 ≤ 16 ∧ mark.2 ≠ 10 := by decide
  exact hall (a, base) h

/-! ## 2. Characters -/

/-- A decimal digit is one of the ten that begin with the zero of its script. -/
theorem decimalDigit?_eq_some (h : decimalDigit? c = some d) :
    d ≤ 9 ∧ ∃ z ∈ digitZeros, c.toNat = z + d := by
  obtain ⟨z, hz, rfl⟩ := Option.map_eq_some_iff.mp h
  have hrange : z ≤ c.toNat ∧ c.toNat ≤ z + 9 := by simpa using List.find?_some hz
  exact ⟨by omega, z, List.mem_of_find?_eq_some hz, by omega⟩

/-- In ASCII the decimal digits are those of one script only. -/
theorem decimalDigit?_of_lt (h : c.toNat < 0x7f) :
    decimalDigit? c = some d ↔ d ≤ 9 ∧ c.toNat = 48 + d := by
  constructor
  · intro hdigit
    have hall : ∀ z ∈ digitZeros, z = 48 ∨ 0x7f ≤ z := by decide
    obtain ⟨hd, z, hz, hc⟩ := decimalDigit?_eq_some hdigit
    rcases hall z hz with rfl | hhigh
    · exact ⟨hd, hc⟩
    · omega
  · rintro ⟨hd, hc⟩
    have hfirst : (48 ≤ c.toNat && c.toNat ≤ 48 + 9) = true := by
      simp only [Bool.and_eq_true, decide_eq_true_eq]
      omega
    rw [decimalDigit?, digitZeros, List.find?_cons_of_pos (by exact hfirst), Option.map_some, hc,
      Nat.add_sub_cancel_left]

/-- No script has its digits where blanks are. -/
theorem isBlank_of_decimalDigit? (h : decimalDigit? c = some d) : isBlank c = false := by
  have hgaps : ∀ z ∈ digitZeros, z = 48 ∨ 0xa0 < z ∧ z + 9 < 0x1680 ∨
      0x1680 < z ∧ z + 9 < 0x2000 ∨ 0x3000 < z := by decide
  obtain ⟨hd, z, hz, hc⟩ := decimalDigit?_eq_some h
  have hgap := hgaps z hz
  simp only [isBlank, Bool.or_eq_false_iff, Bool.and_eq_false_iff, decide_eq_false_iff_not]
  omega

theorem StandsFor.isBlank_eq_false (h : StandsFor base c d) : isBlank c = false := by
  have hletters : ∀ letter ∈ letterDigits, isBlank letter.1 = false := by decide
  rcases h.2 with hdecimal | hletter
  · exact isBlank_of_decimalDigit? hdecimal
  · exact hletters (c, d) hletter

theorem StandsFor.lt (h : StandsFor base c d) : d < 16 := by
  have hletters : ∀ letter ∈ letterDigits, letter.2 < 16 := by decide
  rcases h.2 with hdecimal | hletter
  · have hnine := (decimalDigit?_eq_some hdecimal).1
    omega
  · exact hletters (c, d) hletter

namespace Numeral

/-- A digit that the reader knows is one of three runs of characters. -/
theorem digitValue?_eq_some_iff : digitValue? c = some d ↔ d ≤ 9 ∧ c.toNat = 48 + d ∨
    (10 ≤ d ∧ d ≤ 35) ∧ (c.toNat = 87 + d ∨ c.toNat = 55 + d) := by
  have hle : ∀ a b : Char, a ≤ b ↔ a.toNat ≤ b.toNat := fun _ _ => Iff.rfl
  have hzero : '0'.toNat = 48 ∧ '9'.toNat = 57 := by decide
  have hlower : 'a'.toNat = 97 ∧ 'z'.toNat = 122 := by decide
  have hupper : 'A'.toNat = 65 ∧ 'Z'.toNat = 90 := by decide
  simp only [digitValue?, Bool.and_eq_true, decide_eq_true_eq, hle, hzero, hlower, hupper]
  split_ifs
  · simp only [Option.some_inj]
    omega
  · simp only [Option.some_inj]
    omega
  · simp only [Option.some_inj]
    omega
  · simp only [false_iff]
    omega

/-- The letters of a base up to sixteen are read as in a base of thirty-six. -/
theorem mem_letterDigits_iff :
    (c, d) ∈ letterDigits ↔ (10 ≤ d ∧ d < 16) ∧ digitValue? c = some d := by
  constructor
  · intro hletter
    have hall : ∀ letter ∈ letterDigits, (10 ≤ letter.2 ∧ letter.2 < 16) ∧
        digitValue? letter.1 = some letter.2 := by decide
    exact hall (c, d) hletter
  · rintro ⟨hd, hvalue⟩
    have hall : ∀ d < 16, 10 ≤ d → (Char.ofNat (87 + d), d) ∈ letterDigits ∧
        (Char.ofNat (55 + d), d) ∈ letterDigits := by decide
    obtain ⟨hlower, hupper⟩ := hall d hd.2 hd.1
    rw [← Char.ofNat_toNat c]
    rcases digitValue?_eq_some_iff.mp hvalue with ⟨hlow, -⟩ | ⟨-, hc | hc⟩
    · omega
    · rw [hc]
      exact hlower
    · rw [hc]
      exact hupper

theorem toNat_lt_of_digitIn? (h : digitIn? base c = some d) : c.toNat < 0x7f := by
  obtain ⟨hvalue, hd⟩ := Option.filter_eq_some_iff.mp h
  rw [digitValue?_eq_some_iff] at hvalue
  omega

/-- In ASCII a digit is read as what it stands for. -/
theorem digitIn?_of_lt (hbase : base ≤ 16) (h : c.toNat < 0x7f) :
    digitIn? base c = some d ↔ StandsFor base c d := by
  rw [digitIn?, StandsFor, decimalDigit?_of_lt h, mem_letterDigits_iff, Option.filter_eq_some_iff,
    decide_eq_true_eq, digitValue?_eq_some_iff]
  omega

/-- No digit is one of the characters that have another part in a numeral. -/
theorem ne_of_standsFor (h : StandsFor base c d) : c ≠ '_' ∧ c ≠ '+' ∧ c ≠ '-' := by
  have hne : ∀ other : Char, other.toNat < 0x7f → digitIn? 16 other = none → c ≠ other := by
    rintro other hascii hnone rfl
    have hfound := (digitIn?_of_lt (by decide) hascii).mpr ⟨h.lt, h.2⟩
    rw [hnone] at hfound
    cases hfound
  exact ⟨hne '_' (by decide) (by decide), hne '+' (by decide) (by decide),
    hne '-' (by decide) (by decide)⟩

/-- A character behind the ASCII ones is a blank, a digit, or neither. -/
theorem toAscii_cases (c : Char) :
    c.toNat < 0x7f ∧ toAscii c = c ∨
    0x7f ≤ c.toNat ∧ (isBlank c = true ∧ toAscii c = ' ' ∨
      isBlank c = false ∧ (∃ d ≤ 9, decimalDigit? c = some d ∧ toAscii c = Char.ofNat (48 + d)) ∨
      isBlank c = false ∧ decimalDigit? c = none ∧ toAscii c = c) := by
  by_cases hlow : c.toNat < 0x7f
  · left
    refine ⟨hlow, ?_⟩
    rw [toAscii, if_pos hlow]
  · right
    refine ⟨by omega, ?_⟩
    rw [toAscii, if_neg hlow]
    by_cases hblank : isBlank c = true
    · left
      refine ⟨hblank, ?_⟩
      rw [if_pos hblank]
    · right
      rw [if_neg hblank]
      rcases hdigit : decimalDigit? c with _ | d
      · exact .inr ⟨by simpa using hblank, rfl, rfl⟩
      · exact .inl ⟨by simpa using hblank, d, (decimalDigit?_eq_some hdigit).1, rfl, rfl⟩

/-- The digit that the reader finds is the one that the character stands for. -/
theorem digitIn?_toAscii (hbase : base ≤ 16) (c : Char) (d : Nat) :
    digitIn? base (toAscii c) = some d ↔ StandsFor base c d := by
  have hno : 0x7f ≤ c.toNat → ∀ d, (c, d) ∉ letterDigits := by
    intro hhigh d hletter
    have hvalue := (mem_letterDigits_iff.mp hletter).2
    rw [digitValue?_eq_some_iff] at hvalue
    omega
  rcases toAscii_cases c with ⟨hlow, heq⟩ | ⟨hhigh, ⟨hblank, heq⟩ | ⟨-, k, hk, hdigit, heq⟩ |
    ⟨-, hnone, heq⟩⟩
  · rw [heq]
    exact digitIn?_of_lt hbase hlow
  · rw [heq, digitIn?_of_lt hbase (by decide)]
    constructor
    · intro h
      exact absurd h.isBlank_eq_false (by decide)
    · intro h
      rw [h.isBlank_eq_false] at hblank
      cases hblank
  · have hascii : ∀ k < 10, digitValue? (Char.ofNat (48 + k)) = some k := by decide
    rw [heq, digitIn?, hascii k (by omega), Option.filter_eq_some_iff, decide_eq_true_eq, StandsFor,
      hdigit, and_comm]
    simp only [hno hhigh d, or_false]
  · have hnodigit : digitIn? base c ≠ some d := by
      intro h
      have hlow := toNat_lt_of_digitIn? h
      omega
    rw [heq, StandsFor, hnone]
    simp only [hnodigit, hno hhigh d, reduceCtorEq, or_self, and_false]

/-- A character that is neither a blank nor a digit is found in ASCII only where it stands. -/
theorem toAscii_eq_iff (hascii : a.toNat < 0x7f) (hblank : isBlank a = false)
    (hdigit : digitIn? 10 a = none) : toAscii c = a ↔ c = a := by
  rcases toAscii_cases c with ⟨-, heq⟩ | ⟨hhigh, ⟨-, heq⟩ | ⟨-, k, hk, -, heq⟩ | ⟨-, -, heq⟩⟩
  · rw [heq]
  · rw [heq]
    constructor
    · rintro rfl
      exact absurd hblank (by decide)
    · rintro rfl
      omega
  · have hall : ∀ k < 10, digitIn? 10 (Char.ofNat (48 + k)) ≠ none := by decide
    rw [heq]
    constructor
    · rintro rfl
      exact absurd hdigit (hall k (by omega))
    · rintro rfl
      omega
  · rw [heq]

theorem isNumeralBlank_toAscii (c : Char) : isNumeralBlank (toAscii c) = isNumeralBlank c := by
  rcases toAscii_cases c with ⟨-, heq⟩ | ⟨hhigh, ⟨hblank, heq⟩ | ⟨hblank, k, hk, -, heq⟩ |
    ⟨hblank, -, heq⟩⟩
  · rw [heq]
  · have hseparator : ¬c.toNat ≤ 31 := by omega
    rw [heq, isNumeralBlank, isNumeralBlank, hblank]
    simp [hseparator, isBlank]
  · have hall : ∀ k < 10, isBlank (Char.ofNat (48 + k)) = false := by decide
    rw [heq, isNumeralBlank, isNumeralBlank, hblank, hall k (by omega), Bool.false_and,
      Bool.false_and]
  · rw [heq]

theorem toAscii_eq_underscore : toAscii c = '_' ↔ c = '_' :=
  toAscii_eq_iff (by decide) (by decide) (by decide)

theorem markedBase?_eq_some_iff : markedBase? a = some base ↔ (a, base) ∈ baseMarks := by
  simp only [markedBase?, baseMarks, List.mem_cons, Prod.mk.injEq, List.not_mem_nil, or_false]
  grind

theorem markedBase?_toAscii : markedBase? (toAscii c) = some base ↔ (c, base) ∈ baseMarks := by
  have hletters : ['x', 'X', 'o', 'O', 'b', 'B'].all (fun a => a.toNat < 0x7f && !isBlank a &&
      (digitIn? 10 a).isNone) = true := by decide
  have hletter : ∀ a ∈ ['x', 'X', 'o', 'O', 'b', 'B'], toAscii c = a ↔ c = a := by
    intro a ha
    have hplain := List.all_eq_true.mp hletters a ha
    simp only [Bool.and_eq_true, decide_eq_true_eq, Bool.not_eq_true', Option.isNone_iff_eq_none]
      at hplain
    obtain ⟨⟨hascii, hblank⟩, hdigit⟩ := hplain
    exact toAscii_eq_iff hascii hblank hdigit
  have hsame : markedBase? (toAscii c) = markedBase? c := by
    simp only [markedBase?, hletter 'x' (by simp), hletter 'X' (by simp), hletter 'o' (by simp),
      hletter 'O' (by simp), hletter 'b' (by simp), hletter 'B' (by simp)]
  rw [hsame, markedBase?_eq_some_iff]

/-! ## 3. Magnitudes -/

/-- Digits make a number one after the other, each by one step of the reader. -/
theorem foldl_digits (base : Nat) (ds : List Nat) (value : Nat) :
    ds.foldl (fun v d => v * base + d) value =
      value * base ^ ds.length + Nat.ofDigits base ds.reverse := by
  induction ds generalizing value with
  | nil => simp
  | cons d ds ih =>
    rw [List.foldl_cons, ih, List.reverse_cons, Nat.ofDigits_append, List.length_reverse,
      Nat.ofDigits_singleton, List.length_cons]
    ring

theorem digitsFrom_nil (base value : Nat) : digitsFrom base value [] = some value := by
  rw [digitsFrom]

theorem digitsFrom_spaced (base value : Nat) (c : Char) (cs : List Char) :
    digitsFrom base value ('_' :: c :: cs) =
      (digitIn? base c).bind fun d => digitsFrom base (value * base + d) cs := by
  rw [digitsFrom, Option.bind_eq_bind]

theorem digitsFrom_next (value : Nat) (h : c = '_' → cs = []) :
    digitsFrom base value (c :: cs) =
      (digitIn? base c).bind fun d => digitsFrom base (value * base + d) cs := by
  rw [digitsFrom]
  · rw [Option.bind_eq_bind]
  · rintro d rest rfl rfl
    cases h rfl

/-- The reader goes on over exactly the runs of digits, and every digit takes one step. -/
theorem digitsFrom_iff (hbase : base ≤ 16) (cs : List Char) (value : Nat) :
    digitsFrom base value (cs.map toAscii) = some m ↔
      ∃ ds, DigitRun base cs ds ∧ ds.foldl (fun v d => v * base + d) value = m := by
  induction cs using List.twoStepInduction generalizing value with
  | nil =>
    rw [List.map_nil, digitsFrom_nil, Option.some_inj]
    constructor
    · intro h
      exact ⟨[], .done, h⟩
    · rintro ⟨ds, hrun, hvalue⟩
      cases hrun
      exact hvalue
  | singleton c =>
    rw [List.map_singleton, digitsFrom_next value fun _ => rfl, Option.bind_eq_some_iff]
    constructor
    · rintro ⟨d, hdigit, hvalue⟩
      rw [digitsFrom_nil, Option.some_inj] at hvalue
      exact ⟨[d], .next ((digitIn?_toAscii hbase c d).mp hdigit) .done, hvalue⟩
    · rintro ⟨ds, hrun, hvalue⟩
      cases hrun with
      | next digit rest =>
        cases rest
        refine ⟨_, (digitIn?_toAscii hbase c _).mpr digit, ?_⟩
        rw [digitsFrom_nil, Option.some_inj]
        exact hvalue
  | cons_cons c c' cs ihspaced ihnext =>
    by_cases hspace : c = '_'
    · subst hspace
      have hmark : toAscii '_' = '_' := toAscii_eq_underscore.mpr rfl
      rw [List.map_cons, List.map_cons, hmark, digitsFrom_spaced, Option.bind_eq_some_iff]
      constructor
      · rintro ⟨d, hdigit, hrest⟩
        obtain ⟨ds, hrun, hvalue⟩ := (ihspaced _).mp hrest
        exact ⟨d :: ds, .spaced ((digitIn?_toAscii hbase c' d).mp hdigit) hrun, hvalue⟩
      · rintro ⟨ds, hrun, hvalue⟩
        cases hrun with
        | next digit => exact absurd rfl (ne_of_standsFor digit).1
        | spaced digit rest =>
          exact ⟨_, (digitIn?_toAscii hbase c' _).mpr digit, (ihspaced _).mpr ⟨_, rest, hvalue⟩⟩
    · have hmark : toAscii c ≠ '_' := fun h => hspace (toAscii_eq_underscore.mp h)
      rw [List.map_cons, digitsFrom_next value fun h => absurd h hmark, Option.bind_eq_some_iff]
      constructor
      · rintro ⟨d, hdigit, hrest⟩
        obtain ⟨ds, hrun, hvalue⟩ := (ihnext c' _).mp hrest
        exact ⟨d :: ds, .next ((digitIn?_toAscii hbase c d).mp hdigit) hrun, hvalue⟩
      · rintro ⟨ds, hrun, hvalue⟩
        cases hrun with
        | next digit rest =>
          exact ⟨_, (digitIn?_toAscii hbase c _).mpr digit, (ihnext c' _).mpr ⟨_, rest, hvalue⟩⟩
        | spaced => exact absurd rfl hspace

/-- Digits with one in front are read as the number that they make. -/
theorem digits_iff (hbase : base ≤ 16) : digits base (cs.map toAscii) = some m ↔
    ∃ c cs' d ds, cs = c :: cs' ∧ StandsFor base c d ∧ DigitRun base cs' ds ∧
      Nat.ofDigits base (d :: ds).reverse = m := by
  have hmake : ∀ d ds, ds.foldl (fun v d => v * base + d) d =
      Nat.ofDigits base (d :: ds).reverse := by
    intro d ds
    have hall := foldl_digits base (d :: ds) 0
    rwa [List.foldl_cons, Nat.zero_mul, Nat.zero_add, Nat.zero_mul, Nat.zero_add] at hall
  rcases cs with _ | ⟨c, cs⟩
  · rw [List.map_nil, digits]
    simp
  · rw [List.map_cons, digits]
    rw [Option.bind_eq_bind, Option.bind_eq_some_iff]
    constructor
    · rintro ⟨d, hdigit, hrest⟩
      obtain ⟨ds, hrun, hvalue⟩ := (digitsFrom_iff hbase cs d).mp hrest
      rw [hmake] at hvalue
      exact ⟨c, cs, d, ds, rfl, (digitIn?_toAscii hbase c d).mp hdigit, hrun, hvalue⟩
    · rintro ⟨_, _, d, ds, ⟨⟩, hdigit, hrun, hvalue⟩
      rw [← hmake] at hvalue
      exact ⟨d, (digitIn?_toAscii hbase c d).mpr hdigit, (digitsFrom_iff hbase cs d).mpr ⟨ds, hrun, hvalue⟩⟩

/-- Behind a mark stand digits, the first of which may be set off by an underscore as well. -/
theorem digitsAfterMark_iff (hbase : base ≤ 16) : digitsAfterMark base (cs.map toAscii) = some m ↔
    ∃ ds, DigitRun base cs ds ∧ ds ≠ [] ∧ Nat.ofDigits base ds.reverse = m := by
  by_cases hspace : ∃ rest, cs = '_' :: rest
  · obtain ⟨rest, rfl⟩ := hspace
    rw [List.map_cons, toAscii_eq_underscore.mpr rfl, digitsAfterMark, digits_iff hbase]
    constructor
    · rintro ⟨c, cs, d, ds, rfl, digit, run, hvalue⟩
      exact ⟨d :: ds, .spaced digit run, List.cons_ne_nil _ _, hvalue⟩
    · rintro ⟨ds, hrun, hne, hvalue⟩
      cases hrun with
      | next digit => exact absurd rfl (ne_of_standsFor digit).1
      | spaced digit run => exact ⟨_, _, _, _, rfl, digit, run, hvalue⟩
  · have hplain : digitsAfterMark base (cs.map toAscii) = digits base (cs.map toAscii) := by
      rw [digitsAfterMark]
      intro rest hrest
      obtain ⟨c, cs', rfl, hc, -⟩ := List.map_eq_cons_iff.mp hrest
      exact hspace ⟨cs', by rw [toAscii_eq_underscore.mp hc]⟩
    rw [hplain, digits_iff hbase]
    constructor
    · rintro ⟨c, cs, d, ds, rfl, digit, run, hvalue⟩
      exact ⟨d :: ds, .next digit run, List.cons_ne_nil _ _, hvalue⟩
    · rintro ⟨ds, hrun, hne, hvalue⟩
      cases hrun with
      | done => exact absurd rfl hne
      | next digit run => exact ⟨_, _, _, _, rfl, digit, run, hvalue⟩
      | spaced => exact absurd ⟨_, rfl⟩ hspace

theorem toAscii_eq_zero_iff : toAscii c = '0' ↔ StandsFor 10 c 0 := by
  rw [← digitIn?_toAscii (by decide) c 0]
  constructor
  · intro h
    rw [h]
    decide
  · intro h
    obtain ⟨hvalue, -⟩ := Option.filter_eq_some_iff.mp h
    have hcode : (toAscii c).toNat = 48 := by
      rw [digitValue?_eq_some_iff] at hvalue
      omega
    rw [← Char.ofNat_toNat (toAscii c), hcode]

/-- Only zeros make the number zero. -/
theorem ofDigits_cons_zero_iff (ds : List Nat) :
    Nat.ofDigits 10 (0 :: ds).reverse = 0 ↔ ∀ e ∈ ds, e = 0 := by
  constructor
  · intro h e he
    exact Nat.digits_zero_of_eq_zero (by decide) h e
      (List.mem_reverse.mpr (List.mem_cons_of_mem _ he))
  · intro h
    have hzeros : ds = List.replicate ds.length 0 := List.eq_replicate_of_mem h
    rw [hzeros, ← List.replicate_succ, List.reverse_replicate, Nat.ofDigits_replicate_zero]

/-- A text with no mark is read as a decimal, which may begin with a zero only if it is zero or if
there are no marks at all. -/
theorem magnitude_plain_iff (h : marked? n (cs.map toAscii) = none) :
    magnitude n (cs.map toAscii) = some m ↔ ∃ c cs' d ds, cs = c :: cs' ∧ StandsFor 10 c d ∧
      DigitRun 10 cs' ds ∧ (n = .marked → d = 0 → ∀ e ∈ ds, e = 0) ∧
      Nat.ofDigits 10 (d :: ds).reverse = m := by
  cases n with
  | decimal =>
    rw [magnitude.eq_def, h]
    change digits 10 (cs.map toAscii) = some m ↔ _
    rw [digits_iff (by decide)]
    simp only [reduceCtorEq, false_imp_iff, true_and]
  | marked =>
    rw [magnitude.eq_def, h]
    simp only [plainDecimal, Option.filter_eq_some_iff, digits_iff (by decide : 10 ≤ 16),
      true_imp_iff]
    constructor
    · rintro ⟨⟨c, cs, d, ds, rfl, digit, run, rfl⟩, hleading⟩
      refine ⟨c, cs, d, ds, rfl, digit, run, ?_, rfl⟩
      rintro rfl
      rw [List.map_cons, toAscii_eq_zero_iff.mpr digit] at hleading
      exact (ofDigits_cons_zero_iff ds).mp (by simpa using hleading)
    · rintro ⟨c, cs, d, ds, rfl, digit, run, hleading, rfl⟩
      refine ⟨⟨c, cs, d, ds, rfl, digit, run, rfl⟩, ?_⟩
      by_cases hd : d = 0
      · subst hd
        rw [(ofDigits_cons_zero_iff ds).mpr (hleading rfl)]
        simp
      · have hhead : toAscii c ≠ '0' := by
          intro hzero
          have hread := (digitIn?_toAscii (by decide) c d).mpr digit
          rw [hzero] at hread
          exact hd (Option.some_inj.mp hread).symm
        simp [hhead]

theorem marked?_eq_some_iff {rest : List Char} :
    marked? n (cs.map toAscii) = some (base, rest) ↔ n = .marked ∧ ∃ zero mark cs',
      cs = zero :: mark :: cs' ∧ StandsFor 10 zero 0 ∧ (mark, base) ∈ baseMarks ∧
      rest = cs'.map toAscii := by
  constructor
  · intro h
    rw [marked?.eq_def] at h
    split at h
    · rename_i mark _ hcs
      obtain ⟨zero, cs', rfl, hzero, hcs'⟩ := List.map_eq_cons_iff.mp hcs
      obtain ⟨m, cs, rfl, hm, rfl⟩ := List.map_eq_cons_iff.mp hcs'
      obtain ⟨base', hmark, heq⟩ := Option.map_eq_some_iff.mp h
      cases heq
      rw [← hm, markedBase?_toAscii] at hmark
      exact ⟨rfl, zero, m, cs, rfl, toAscii_eq_zero_iff.mp hzero, hmark, rfl⟩
    · cases h
  · rintro ⟨rfl, zero, mark, cs, rfl, first, hmark, rfl⟩
    rw [List.map_cons, List.map_cons, toAscii_eq_zero_iff.mpr first, marked?,
      markedBase?_toAscii.mpr hmark, Option.map_some]

/-- A letter that marks a base is no decimal digit, so a marked number is no plain decimal. -/
theorem not_digitRun_of_mark (h : (a, base) ∈ baseMarks) : ¬DigitRun 10 (a :: cs) ds := by
  have hmarks : ∀ mark ∈ baseMarks, mark.1 ≠ '_' ∧ mark.1.toNat < 0x7f ∧
      digitIn? 10 mark.1 = none := by decide
  obtain ⟨hspace, hascii, hnone⟩ := hmarks (a, base) h
  intro hrun
  cases hrun with
  | next digit =>
    rw [← digitIn?_of_lt (by decide) hascii, hnone] at digit
    cases digit
  | spaced => exact hspace rfl

/-- A plain decimal has no mark. -/
theorem marked?_of_digitRun (h : DigitRun 10 cs ds) (c : Char) :
    marked? n ((c :: cs).map toAscii) = none := by
  rw [Option.eq_none_iff_forall_ne_some]
  rintro ⟨base, rest⟩ hmarked
  obtain ⟨-, zero, mark, cs', ⟨⟩, -, hmark, -⟩ := marked?_eq_some_iff.mp hmarked
  exact not_digitRun_of_mark hmark h

/-- The reader takes exactly the magnitudes of the grammar. -/
theorem magnitude_iff : magnitude n (cs.map toAscii) = some m ↔
    ∃ base ds, Magnitude n base cs ds ∧ Nat.ofDigits base ds.reverse = m := by
  rcases hmarked : marked? n (cs.map toAscii) with _ | ⟨base, rest⟩
  · rw [magnitude_plain_iff hmarked]
    constructor
    · rintro ⟨c, cs, d, ds, rfl, first, rest, leading, rfl⟩
      exact ⟨10, d :: ds, .plain first rest leading, rfl⟩
    · rintro ⟨base, ds, hmagnitude, rfl⟩
      cases hmagnitude with
      | plain first rest leading => exact ⟨_, _, _, _, rfl, first, rest, leading, rfl⟩
      | marked chosen first mark run nonempty =>
        rw [marked?_eq_some_iff.mpr ⟨chosen, _, _, _, rfl, first, mark, rfl⟩] at hmarked
        cases hmarked
  · obtain ⟨rfl, zero, mark, cs, rfl, first, hmark, rfl⟩ := marked?_eq_some_iff.mp hmarked
    rw [magnitude.eq_def, hmarked]
    change digitsAfterMark base (cs.map toAscii) = some m ↔ _
    rw [digitsAfterMark_iff (base_le_of_mark hmark).1]
    constructor
    · rintro ⟨ds, run, nonempty, rfl⟩
      exact ⟨base, ds, .marked rfl first hmark run nonempty, rfl⟩
    · rintro ⟨base', ds, hmagnitude, rfl⟩
      cases hmagnitude with
      | plain _ rest => exact absurd rest (not_digitRun_of_mark hmark)
      | marked _ _ mark' run nonempty =>
        rw [← markedBase?_eq_some_iff] at hmark mark'
        rw [hmark, Option.some_inj] at mark'
        subst mark'
        exact ⟨ds, run, nonempty, rfl⟩

end Numeral

/-! ## 4. Integers -/

theorem DigitRun.isBlank_eq_false (h : DigitRun base cs ds) : ∀ c ∈ cs, isBlank c = false := by
  induction h with
  | done => simp
  | next digit _ ih => exact List.forall_mem_cons.mpr ⟨digit.isBlank_eq_false, ih⟩
  | spaced digit _ ih =>
    have hspace : isBlank '_' = false := by decide
    exact List.forall_mem_cons.mpr ⟨hspace, List.forall_mem_cons.mpr ⟨digit.isBlank_eq_false, ih⟩⟩

theorem Magnitude.isBlank_eq_false (h : Magnitude n base cs ds) : ∀ c ∈ cs, isBlank c = false := by
  have hmarks : ∀ mark ∈ baseMarks, isBlank mark.1 = false := by decide
  cases h with
  | plain first rest _ =>
    exact List.forall_mem_cons.mpr ⟨first.isBlank_eq_false, rest.isBlank_eq_false⟩
  | marked _ first mark run _ =>
    have hmark := hmarks _ mark
    exact List.forall_mem_cons.mpr ⟨first.isBlank_eq_false,
      List.forall_mem_cons.mpr ⟨hmark, run.isBlank_eq_false⟩⟩

/-- No blank is inside a number with its sign. -/
theorem Signed.isBlank_eq_false (h : Signed n cs w) : ∀ c ∈ cs, isBlank c = false := by
  have hsigns : ∀ sign ∈ signs, sign.1.all (fun c => !isBlank c) = true := by decide
  obtain ⟨sign, body, rfl, hsign, hbody⟩ := h
  intro c hc
  rcases List.mem_append.mp hc with hc | hc
  · simpa using List.all_eq_true.mp (hsigns _ hsign) c hc
  · exact hbody.isBlank_eq_false c hc

/-- The blanks around a number are those that trimming takes off. -/
theorem spells_iff (hp : ∀ c, p c = true → isBlank c = true) :
    Spells p n cs w ↔ Signed n (trim p cs) w := by
  constructor
  · rintro ⟨front, inner, behind, rfl, hfront, hbehind, hinner⟩
    have hbare : Bare p inner := by
      refine .of_forall fun c hc => ?_
      by_contra hblank
      rw [Bool.not_eq_false] at hblank
      have hno := hinner.isBlank_eq_false c hc
      rw [hp c hblank] at hno
      cases hno
    have hstrips : Strips p (front ++ inner ++ behind) inner :=
      ⟨hbare, front, behind, rfl, hfront, hbehind⟩
    rwa [hstrips.trim_eq]
  · intro h
    obtain ⟨front, behind, hcs, hfront, hbehind⟩ := (strips_trim p cs).between
    exact ⟨front, trim p cs, behind, hcs, hfront, hbehind, h⟩

theorem isBlank_of_isNumeralBlank (c : Char) (h : isNumeralBlank c = true) : isBlank c = true := by
  rw [isNumeralBlank, Bool.and_eq_true] at h
  exact h.1

namespace Numeral

theorem trimmed_ofList (cs : List Char) :
    trimmed (String.ofList cs) = (trim isNumeralBlank cs).map toAscii := by
  have hsame : isNumeralBlank ∘ toAscii = isNumeralBlank := funext isNumeralBlank_toAscii
  rw [trimmed, String.toList_ofList, trim, trim, trimEnd, trimEnd, List.dropWhile_map, hsame,
    ← List.map_reverse, List.dropWhile_map, hsame, List.map_reverse]

/-- A sign is found where a sign is written, for a magnitude does not begin with one. -/
theorem splitSign_of_signed {sign body : List Char} {isNegative : Bool}
    (hsign : (sign, isNegative) ∈ signs) (h : Magnitude n base body ds) :
    splitSign ((sign ++ body).map toAscii) = (isNegative, body.map toAscii) := by
  have hplus : ∀ c, toAscii c = '+' ↔ c = '+' := fun c =>
    toAscii_eq_iff (by decide) (by decide) (by decide)
  have hminus : ∀ c, toAscii c = '-' ↔ c = '-' := fun c =>
    toAscii_eq_iff (by decide) (by decide) (by decide)
  simp only [signs, List.mem_cons, Prod.mk.injEq, List.not_mem_nil, or_false] at hsign
  rcases hsign with ⟨rfl, rfl⟩ | ⟨rfl, rfl⟩ | ⟨rfl, rfl⟩
  · obtain ⟨c, rest, d, rfl, hdigit⟩ := h.exists_first
    obtain ⟨-, hnoplus, hnominus⟩ := ne_of_standsFor hdigit
    rw [List.nil_append, List.map_cons, splitSign.eq_3]
    · intro rest' heq
      exact hnominus ((hminus c).mp (List.cons.inj heq).1)
    · intro rest' heq
      exact hnoplus ((hplus c).mp (List.cons.inj heq).1)
  · rw [List.singleton_append, List.map_cons, (hplus '+').mpr rfl, splitSign]
  · rw [List.singleton_append, List.map_cons, (hminus '-').mpr rfl, splitSign]

/-- What stands behind the sign of a text, with the sign before it. -/
theorem splitSign_cases (cs : List Char) : ∃ sign body, cs = sign ++ body ∧
    (sign, (splitSign (cs.map toAscii)).1) ∈ signs ∧
    (splitSign (cs.map toAscii)).2 = body.map toAscii := by
  have hplus : ∀ c, toAscii c = '+' → c = '+' := fun c =>
    (toAscii_eq_iff (by decide) (by decide) (by decide)).mp
  have hminus : ∀ c, toAscii c = '-' → c = '-' := fun c =>
    (toAscii_eq_iff (by decide) (by decide) (by decide)).mp
  rw [splitSign.eq_def]
  split
  · rename_i hcs
    obtain ⟨c, cs', rfl, hc, rfl⟩ := List.map_eq_cons_iff.mp hcs
    obtain rfl := hminus c hc
    exact ⟨['-'], cs', rfl, by simp [signs], rfl⟩
  · rename_i hcs
    obtain ⟨c, cs', rfl, hc, rfl⟩ := List.map_eq_cons_iff.mp hcs
    obtain rfl := hplus c hc
    exact ⟨['+'], cs', rfl, by simp [signs], rfl⟩
  · exact ⟨[], cs, rfl, by simp [signs], rfl⟩

/-- The reader takes exactly the texts of the grammar, each as its value. -/
theorem read?_iff {i : Int} : read? n (String.ofList cs) = some i ↔
    ∃ w, Spells isNumeralBlank n cs w ∧ w.value = i := by
  simp only [spells_iff isBlank_of_isNumeralBlank, read?, trimmed_ofList]
  constructor
  · intro h
    obtain ⟨sign, body, hcs, hsign, hbody⟩ := splitSign_cases (trim isNumeralBlank cs)
    rw [hbody] at h
    obtain ⟨_, hlifted, hvalue⟩ := Option.map_eq_some_iff.mp h
    obtain ⟨m, hread, ⟨⟩⟩ := Option.bind_eq_some_iff.mp hlifted
    obtain ⟨base, ds, hmagnitude, rfl⟩ := magnitude_iff.mp hread
    exact ⟨⟨_, base, ds⟩, ⟨sign, body, hcs, hsign, hmagnitude⟩, hvalue⟩
  · rintro ⟨w, ⟨sign, body, hcs, hsign, hbody⟩, rfl⟩
    rw [hcs, splitSign_of_signed hsign hbody, magnitude_iff.mpr ⟨_, _, hbody, rfl⟩]
    rfl

/-! ## 5. Length -/

theorem isSome_digitIn?_toAscii (h : StandsFor 10 c d) : (digitIn? 10 (toAscii c)).isSome = true := by
  rw [(digitIn?_toAscii (by decide) c d).mpr h]
  rfl

/-- What is counted of a run of digits are its digits. -/
theorem counted_of_digitRun (h : DigitRun 10 cs ds) :
    (∀ a ∈ cs.map toAscii, (a == '_' || (digitIn? 10 a).isSome) = true) ∧
      (cs.map toAscii).countP (· != '_') = ds.length := by
  have hspace : toAscii '_' = '_' := toAscii_eq_underscore.mpr rfl
  have hdigit : ∀ {c d}, StandsFor 10 c d → toAscii c ≠ '_' := fun h hc =>
    (ne_of_standsFor h).1 (toAscii_eq_underscore.mp hc)
  induction h with
  | done => simp
  | next digit _ ih =>
    obtain ⟨hall, hcount⟩ := ih
    refine ⟨List.forall_mem_cons.mpr ⟨?_, hall⟩, ?_⟩
    · simp [isSome_digitIn?_toAscii digit]
    · simp [hdigit digit, hcount]
  | spaced digit _ ih =>
    obtain ⟨hall, hcount⟩ := ih
    refine ⟨List.forall_mem_cons.mpr ⟨?_, List.forall_mem_cons.mpr ⟨?_, hall⟩⟩, ?_⟩
    · simp [hspace]
    · simp [isSome_digitIn?_toAscii digit]
    · simp [hspace, hdigit digit, hcount]

theorem wellSpaced_of_digitRun (h : DigitRun 10 cs ds) {c : Char} {d : Nat}
    (first : StandsFor 10 c d) : wellSpaced ((c :: cs).map toAscii) = true := by
  have hspace : toAscii '_' = '_' := toAscii_eq_underscore.mpr rfl
  have hdigit : ∀ {c d}, StandsFor 10 c d → (toAscii c != '_') = true := fun h =>
    bne_iff_ne.mpr fun hc => (ne_of_standsFor h).1 (toAscii_eq_underscore.mp hc)
  induction h generalizing c d with
  | done => simpa [wellSpaced] using hdigit first
  | next digit _ ih =>
    have hrest := ih digit
    rw [List.map_cons, List.map_cons, wellSpaced, hdigit first, Bool.true_and]
    · exact hrest
    · exact fun h => absurd h (by simp)
    · rintro rest hc
      exact absurd (List.cons.inj hc).1 (bne_iff_ne.mp (hdigit digit))
  | spaced digit _ ih =>
    have hrest := ih digit
    rw [List.map_cons, List.map_cons, hspace, wellSpaced, hdigit first, Bool.true_and]
    exact hrest

/-- Only a decimal can be too long, and its length is the number of its digits. -/
theorem overlong?_of_signed (h : Signed n cs w) :
    overlong? n (splitSign (cs.map toAscii)).2 = if w.TooLong then some w.digits.length else none := by
  obtain ⟨sign, body, rfl, hsign, hbody⟩ := h
  rw [splitSign_of_signed hsign hbody]
  obtain ⟨isNegative, base, ds⟩ := w
  cases hbody with
  | @plain c d cs ds first rest leading =>
    obtain ⟨hall, hcount⟩ := counted_of_digitRun (.next first rest)
    rw [overlong?, List.takeWhile_eq_self_iff.mpr hall, hcount, marked?_of_digitRun rest,
      wellSpaced_of_digitRun rest first, Option.isNone_none, Bool.true_and, Bool.and_true]
    by_cases hmany : maxDigits < (d :: ds).length
    · rw [if_pos (decide_eq_true hmany), if_pos ⟨rfl, hmany⟩]
    · rw [if_neg (mt of_decide_eq_true hmany), if_neg fun h => hmany h.2]
  | @marked zero mark _ cs ds chosen first hmark run nonempty =>
    have hmarked := marked?_eq_some_iff.mpr ⟨chosen, zero, mark, cs, rfl, first, hmark, rfl⟩
    rw [overlong?, hmarked, if_neg, if_neg fun h => (base_le_of_mark hmark).2 h.1]
    exact Bool.false_ne_true

/-- A written integer is read, unless it is a decimal of too many digits. -/
theorem read_of_spells (h : Spells isNumeralBlank n cs w) : read n (String.ofList cs) =
    if w.TooLong then .error (.tooLong w.digits.length) else .ok w.value := by
  have hread : read? n (String.ofList cs) = some w.value := read?_iff.mpr ⟨w, h, rfl⟩
  have hlong := overlong?_of_signed ((spells_iff isBlank_of_isNumeralBlank).mp h)
  rw [read, trimmed_ofList, hlong, hread]
  split_ifs <;> rfl

/-- What is not written as an integer is not read. -/
theorem read_of_not_spells (h : ∀ w, ¬Spells isNumeralBlank n cs w) :
    ∃ e, read n (String.ofList cs) = .error e := by
  have hread : read? n (String.ofList cs) = none := by
    rw [Option.eq_none_iff_forall_ne_some]
    intro i hi
    obtain ⟨w, hw, -⟩ := read?_iff.mp hi
    exact h w hw
  rw [read, hread]
  split
  · exact ⟨_, rfl⟩
  · exact ⟨_, rfl⟩

end Numeral

/-! ## 6. Every integer can be written -/

theorem exists_standsFor (hbase : base ≤ 16) (hd : d < base) : ∃ c, StandsFor base c d := by
  have hall : ∀ d < 16, Numeral.digitIn? 16 (Nat.digitChar d) = some d := by decide
  have hread := hall d (by omega)
  have hascii := Numeral.toNat_lt_of_digitIn? hread
  exact ⟨Nat.digitChar d, hd, ((Numeral.digitIn?_of_lt (by decide) hascii).mp hread).2⟩

theorem exists_digitRun (hbase : base ≤ 16) (h : ∀ d ∈ ds, d < base) : ∃ cs, DigitRun base cs ds := by
  induction ds with
  | nil => exact ⟨[], .done⟩
  | cons d ds ih =>
    obtain ⟨c, digit⟩ := exists_standsFor hbase (h d List.mem_cons_self)
    obtain ⟨cs, rest⟩ := ih fun e he => h e (List.mem_cons_of_mem _ he)
    exact ⟨c :: cs, .next digit rest⟩

/-- The digits of a number, of which there is one at least, begin with a zero for zero only. -/
theorem exists_digits (hbase : 1 < base) (m : Nat) : ∃ d ds, Nat.ofDigits base (d :: ds).reverse = m ∧
    (∀ e ∈ d :: ds, e < base) ∧ (d = 0 → ds = []) := by
  rcases Nat.eq_zero_or_pos m with rfl | hpos
  · refine ⟨0, [], ?_, ?_, fun _ => rfl⟩
    · simp
    · simpa using Nat.zero_lt_of_lt hbase
  · have hne : base.digits m ≠ [] := Nat.digits_ne_nil_iff_ne_zero.mpr hpos.ne'
    have hlast := Nat.getLast_digit_ne_zero base hpos.ne'
    rcases hreverse : (base.digits m).reverse with _ | ⟨d, ds⟩
    · exact absurd (List.reverse_eq_nil_iff.mp hreverse) hne
    · have hdigits : base.digits m = (d :: ds).reverse := List.reverse_eq_iff.mp hreverse
      refine ⟨d, ds, ?_, ?_, ?_⟩
      · rw [← hdigits, Nat.ofDigits_digits]
      · intro e he
        exact Nat.digits_lt_base hbase (hdigits ▸ List.mem_reverse.mpr he)
      · intro hzero
        simp only [hdigits, List.getLast_reverse, List.head_cons] at hlast
        exact absurd hzero hlast

/-- Every integer is written in each of the four bases. -/
theorem exists_spells (p : Char → Bool) (i : Int) (h : base ∈ [2, 8, 10, 16]) :
    ∃ cs w, Spells p .marked cs w ∧ w.base = base ∧ w.value = i := by
  have hbase : 1 < base ∧ base ≤ 16 := by
    have hall : ∀ base ∈ [2, 8, 10, 16], 1 < base ∧ base ≤ 16 := by decide
    exact hall base h
  obtain ⟨d, ds, hvalue, hdigits, hzero⟩ := exists_digits hbase.1 i.natAbs
  have hbody : ∃ body, Magnitude .marked base body (d :: ds) := by
    by_cases hdecimal : base = 10
    · subst hdecimal
      obtain ⟨c, first⟩ := exists_standsFor hbase.2 (hdigits d List.mem_cons_self)
      obtain ⟨cs, rest⟩ := exists_digitRun hbase.2 fun e he => hdigits e (List.mem_cons_of_mem _ he)
      refine ⟨c :: cs, .plain first rest ?_⟩
      intro _ hd e he
      rw [hzero hd] at he
      cases he
    · obtain ⟨cs, run⟩ := exists_digitRun hbase.2 hdigits
      obtain ⟨mark, hmark⟩ : ∃ mark, (mark, base) ∈ baseMarks := by
        simp only [List.mem_cons, List.not_mem_nil, or_false, hdecimal, false_or] at h
        rcases h with rfl | rfl | rfl
        · exact ⟨'b', by simp [baseMarks]⟩
        · exact ⟨'o', by simp [baseMarks]⟩
        · exact ⟨'x', by simp [baseMarks]⟩
      exact ⟨'0' :: mark :: cs, .marked rfl (by decide) hmark run (List.cons_ne_nil _ _)⟩
  obtain ⟨body, hbody⟩ := hbody
  have hsign : ∃ sign, (sign, decide (i < 0)) ∈ signs := by
    by_cases hnegative : i < 0
    · exact ⟨['-'], by simp [signs, hnegative]⟩
    · exact ⟨[], by simp [signs, hnegative]⟩
  obtain ⟨sign, hsign⟩ := hsign
  refine ⟨sign ++ body, ⟨decide (i < 0), base, d :: ds⟩, ?_, rfl, ?_⟩
  · exact ⟨[], sign ++ body, [], by simp, by simp, by simp, sign, body, rfl, hsign, hbody⟩
  · simp only [Written.value, Written.magnitude, hvalue, decide_eq_true_eq]
    split_ifs <;> omega

end ResumableStorage.Text
