/-
  ResumableStorage/Proofs/Client/Ranges.lean
  ==========================================
  **Ranges of bytes that can be read** — a text `bytes=first-last` whose bounds are
  decimals is read as the number of bytes that it names.  Decimals beyond the number of
  digits that is read at all are the only ones left out.
-/
import ResumableStorage.Proofs.Client.Reading

namespace ResumableStorage

/-! ## 1. Decimals in ASCII digits -/

namespace Text

/-- An unsigned decimal in ASCII digits, no longer than what is read. -/
structure IsDecimal (cs : List Char) : Prop where
  nonempty : cs ≠ []
  digits : ∀ c ∈ cs, c.isDigit = true
  short : cs.length ≤ Numeral.maxDigits

variable {c : Char} {cs : List Char}

theorem IsDecimal.singleton (h : c.isDigit = true) : IsDecimal [c] := by
  refine ⟨List.cons_ne_nil _ _, fun d hd => List.mem_singleton.mp hd ▸ h, ?_⟩
  rw [List.length_singleton, Numeral.maxDigits]
  omega

theorem isBlank_of_isDigit (h : c.isDigit = true) : isBlank c = false := by
  obtain ⟨hlow, hhigh⟩ := Char.isDigit_iff_toNat.mp h
  have hzero : '0'.toNat = 48 := rfl
  have hnine : '9'.toNat = 57 := rfl
  simp only [isBlank, Bool.or_eq_false_iff, Bool.and_eq_false_iff, decide_eq_false_iff_not]
  omega

namespace Numeral

theorem toAscii_of_isDigit (h : c.isDigit = true) : toAscii c = c := by
  have hhigh := (Char.isDigit_iff_toNat.mp h).2
  have hnine : '9'.toNat = 57 := rfl
  rw [toAscii, if_pos (by omega)]

theorem digitIn?_of_isDigit (h : c.isDigit = true) :
    digitIn? 10 c = some (c.toNat - '0'.toNat) := by
  obtain ⟨hlow, hhigh⟩ := Char.isDigit_iff_toNat.mp h
  have hzero : '0'.toNat = 48 := rfl
  have hnine : '9'.toNat = 57 := rfl
  have hrange : ('0' ≤ c && c ≤ '9') = true := by
    simp only [Bool.and_eq_true, decide_eq_true_eq]
    exact ⟨hlow, hhigh⟩
  rw [digitIn?, digitValue?, if_pos hrange, Option.filter_some, if_pos]
  exact decide_eq_true (by omega)

/-- Digits are read on from a value as they are read in place. -/
theorem digitsFrom_of_digits (h : ∀ c ∈ cs, c.isDigit = true) (value : Nat) :
    digitsFrom 10 value cs = some (Nat.ofDigitChars 10 cs value) := by
  induction cs generalizing value with
  | nil => rfl
  | cons c rest ih =>
    have hc : c.isDigit = true := h c List.mem_cons_self
    have hunderscore : c ≠ '_' := by
      rintro rfl
      exact absurd hc (by decide)
    rw [digitsFrom.eq_3 10 value c rest fun d ds hd _ => hunderscore hd, digitIn?_of_isDigit hc,
      Nat.ofDigitChars_cons, Nat.mul_comm]
    exact ih (fun d hd => h d (List.mem_cons_of_mem _ hd)) _

/-- A decimal in ASCII digits is read as the number that it writes. -/
theorem read_of_isDecimal (h : IsDecimal cs) :
    read .decimal (String.ofList cs) = .ok (Nat.ofDigitChars 10 cs 0) := by
  have htrimmed : trimmed (String.ofList cs) = cs := by
    rw [trimmed, String.toList_ofList,
      List.map_congr_left fun c hc => toAscii_of_isDigit (h.digits c hc), List.map_id'']
    · refine trim_of_forall fun c hc => ?_
      rw [isNumeralBlank, isBlank_of_isDigit (h.digits c hc), Bool.false_and]
    · exact fun _ => rfl
  obtain ⟨first, rest, rfl⟩ := List.exists_cons_of_ne_nil h.nonempty
  have hfirst : first.isDigit = true := h.digits first List.mem_cons_self
  have hsign : splitSign (first :: rest) = (false, first :: rest) := by
    rw [splitSign.eq_3]
    · rintro _ ⟨⟩
      exact absurd hfirst (by decide)
    · rintro _ ⟨⟩
      exact absurd hfirst (by decide)
  have hlength : overlong? .decimal (first :: rest) = none := by
    have hcount := (List.countP_le_length (p := (· != '_'))
      (l := (first :: rest).takeWhile fun c => c == '_' || (digitIn? 10 c).isSome)).trans
        ((List.takeWhile_prefix _).length_le.trans h.short)
    rw [overlong?]
    refine if_neg ?_
    simp only [Bool.and_eq_true, decide_eq_true_eq, not_and]
    omega
  have hvalue : magnitude .decimal (first :: rest) =
      some (Nat.ofDigitChars 10 (first :: rest) 0) := by
    change (digitIn? 10 first >>= fun d => digitsFrom 10 d rest) = _
    rw [digitIn?_of_isDigit hfirst, Nat.ofDigitChars_cons, Nat.mul_zero, Nat.zero_add]
    exact digitsFrom_of_digits (fun d hd => h.digits d (List.mem_cons_of_mem _ hd)) _
  simp only [read, read?, htrimmed, hsign, hlength, hvalue]
  rfl

end Numeral

end Text

/-! ## 2. Ranges -/

namespace Client

/-- A well-formed range `bytes=first-last`. -/
def IsRange (range : String) : Prop :=
  ∃ first last, Text.IsDecimal first ∧ Text.IsDecimal last ∧
    range = String.ofList ("bytes=".toList ++ (first ++ '-' :: last))

theorem rangeLength_of_bounds {first last : List Char} (hfirst : Text.IsDecimal first)
    (hlast : Text.IsDecimal last) :
    rangeLength (String.ofList ("bytes=".toList ++ (first ++ '-' :: last))) =
      .ok (Nat.ofDigitChars 10 last 0 - Nat.ofDigitChars 10 first 0 + 1) := by
  have hunit : '=' ∉ "bytes".toList := by decide
  have hequals : Text.cutAt '=' ("bytes=".toList ++ (first ++ '-' :: last)) =
      ("bytes".toList, some (first ++ '-' :: last)) := Text.cutAt_append hunit _
  have hdash : '-' ∉ first := fun h => absurd (hfirst.digits _ h) (by decide)
  simp only [rangeLength, String.toList_ofList, hequals, Text.cutAt_append hdash, Option.getD_some,
    Text.Numeral.read_of_isDecimal hfirst, Text.Numeral.read_of_isDecimal hlast]
  rfl

theorem IsRange.rangeLength_eq_ok {range : String} (h : IsRange range) :
    ∃ n, rangeLength range = .ok n := by
  obtain ⟨first, last, hfirst, hlast, rfl⟩ := h
  exact ⟨_, rangeLength_of_bounds hfirst hlast⟩

/-- The text that asks for the bytes from one number to another, character by character. -/
theorem rangeText_eq (first last : Nat) : rangeText first (some (last : Int)) = String.ofList
    ("bytes=".toList ++ (Nat.toDigits 10 first ++ '-' :: Nat.toDigits 10 last)) := by
  have hdigits : ∀ n : Nat, (toString (n : Int)).toList = Nat.toDigits 10 n :=
    fun _ => String.toList_ofList
  rw [← String.toList_inj]
  simp only [rangeText, String.toList_append, hdigits, String.toList_ofList, List.append_assoc]
  rfl

/-- The text that asks for the bytes from one number to another is read as their number. -/
theorem rangeLength_rangeText {first last : Nat} (hfirst : Text.IsDecimal (Nat.toDigits 10 first))
    (hlast : Text.IsDecimal (Nat.toDigits 10 last)) :
    rangeLength (rangeText first (some (last : Int))) = .ok (last - first + 1) := by
  have hvalue : ∀ n : Nat, Nat.ofDigitChars 10 (Nat.toDigits 10 n) 0 = n :=
    fun n => Nat.ofDigitChars_toDigits (by decide) (by decide)
  rw [rangeText_eq, rangeLength_of_bounds hfirst hlast, hvalue, hvalue]

end Client

end ResumableStorage
