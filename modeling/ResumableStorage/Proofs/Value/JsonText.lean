/-
  ResumableStorage/Proofs/Value/JsonText.lean
  ===========================================
  **Reading what was written** — the JSON text of a value that JSON has a form for is read
  as that value again, whatever characters its texts and the names of its fields hold, and
  it holds no control character, so that it stands on one line.  A number has no end of its
  own: what follows a value in a text is never the continuation of a number.
-/
import ResumableStorage.Proofs.Value.Fields
import ResumableStorage.Value.Json
import ResumableStorage.Value.JsonReader

namespace ResumableStorage

namespace Json

/-! ## 1. Strings -/

/-- A character is written by a letter that stands for it, by its number, or as itself. -/
theorem escape_cases (c : Char) :
    (∃ e, escaped? e = some c ∧ escape c = ['\\', e]) ∨
      (c.toNat < 0x20 ∧ escape c = '\\' :: 'u' :: Text.hex 4 c.toNat) ∨
        (0x20 ≤ c.toNat ∧ c ≠ '"' ∧ c ≠ '\\' ∧ escape c = [c]) := by
  have hof : ∀ n, c.toNat = n → c = Char.ofNat n := by
    intro n hn
    rw [← hn, Char.ofNat_toNat]
  by_cases hquote : c = '"'
  · exact .inl ⟨'"', by rw [hquote]; rfl, by rw [hquote]; rfl⟩
  by_cases hbackslash : c = '\\'
  · exact .inl ⟨'\\', by rw [hbackslash]; rfl, by rw [hbackslash]; rfl⟩
  by_cases hfeed : c = '\n'
  · exact .inl ⟨'n', by rw [hfeed]; rfl, by rw [hfeed]; rfl⟩
  by_cases hreturn : c = '\r'
  · exact .inl ⟨'r', by rw [hreturn]; rfl, by rw [hreturn]; rfl⟩
  by_cases htab : c = '\t'
  · exact .inl ⟨'t', by rw [htab]; rfl, by rw [htab]; rfl⟩
  by_cases hback : c.toNat = 8
  · exact .inl ⟨'b', by rw [hof 8 hback]; rfl, by rw [hof 8 hback]; rfl⟩
  by_cases hform : c.toNat = 12
  · exact .inl ⟨'f', by rw [hof 12 hform]; rfl, by rw [hof 12 hform]; rfl⟩
  rw [escape, if_neg hquote, if_neg hbackslash, if_neg hfeed, if_neg hreturn, if_neg htab,
    if_neg hback, if_neg hform]
  by_cases hcontrol : c.toNat < 0x20
  · exact .inr (.inl ⟨hcontrol, if_pos hcontrol⟩)
  · exact .inr (.inr ⟨by omega, hquote, hbackslash, if_neg hcontrol⟩)

/-- The letters behind a backslash are no control characters, and `u` is not one of them. -/
theorem escaped?_eq_some {e c : Char} (h : escaped? e = some c) : 0x20 ≤ e.toNat ∧ e ≠ 'u' := by
  unfold escaped? at h
  split at h <;> first | exact ⟨by decide, by decide⟩ | cases h

/-- The four digits of a control character, and what they are read as. -/
theorem hex_of_lt : ∀ n < 0x20,
    Text.hex 4 n = ['0', '0', (n / 16).digitChar, (n % 16).digitChar] ∧
      hexUnit? '0' '0' (n / 16).digitChar (n % 16).digitChar = some n := by
  decide

theorem printed_of_all {cs : List Char} (h : cs.all (fun c => 0x20 ≤ c.toNat) = true) :
    ∀ c ∈ cs, 0x20 ≤ c.toNat := by
  simpa using h

/-- What is written for a character holds no control character. -/
theorem escape_printed (c : Char) : ∀ d ∈ escape c, 0x20 ≤ d.toNat := by
  intro d hd
  have hdigits : ∀ n < 0x20,
      ('\\' :: 'u' :: Text.hex 4 n).all (fun c => 0x20 ≤ c.toNat) = true := by
    decide
  rcases escape_cases c with ⟨e, he, hc⟩ | ⟨hcontrol, hc⟩ | ⟨hplain, -, -, hc⟩
  · rw [hc, List.mem_cons, List.mem_singleton] at hd
    rcases hd with rfl | rfl
    · decide
    · exact (escaped?_eq_some he).1
  · rw [hc] at hd
    exact printed_of_all (hdigits c.toNat hcontrol) d hd
  · rw [hc, List.mem_singleton] at hd
    exact hd ▸ hplain

/-- No character is half of a surrogate pair. -/
theorem push_toNat (done : List Char) (c : Char) :
    Units.push { done } c.toNat = { done := c :: done } := by
  have hvalid : c.toNat < 0xd800 ∨ (0xdfff < c.toNat ∧ c.toNat < 0x110000) := c.valid
  have hhigh : isHighSurrogate c.toNat = false := by
    simp only [isHighSurrogate, Bool.and_eq_false_iff, decide_eq_false_iff_not]
    omega
  have hlow : isLowSurrogate c.toNat = false := by
    simp only [isLowSurrogate, Bool.and_eq_false_iff, decide_eq_false_iff_not]
    omega
  simp only [Units.push, Units.start, hhigh, hlow, Bool.false_eq_true, if_false, Char.ofNat_toNat]

theorem stringFrom_escape (done : List Char) (c : Char) (rest : List Char) :
    stringFrom { done } (escape c ++ rest) = stringFrom { done := c :: done } rest := by
  rw [← push_toNat done c]
  rcases escape_cases c with ⟨e, he, hc⟩ | ⟨hcontrol, hc⟩ | ⟨hplain, hquote, hbackslash, hc⟩
  · have hu : e ≠ 'u' := (escaped?_eq_some he).2
    simp only [hc, List.cons_append, List.nil_append]
    rw [stringFrom.eq_4 _ _ _ fun _ _ _ _ _ h _ => hu h, he]
  · obtain ⟨hdigits, hunit⟩ := hex_of_lt c.toNat hcontrol
    simp only [hc, hdigits, List.cons_append, List.nil_append]
    rw [stringFrom, hunit]
  · simp only [hc, List.cons_append, List.nil_append]
    rw [stringFrom.eq_5 _ _ _ hquote (fun _ _ _ _ _ h _ => hbackslash h)
      fun _ _ h _ => hbackslash h, if_neg]
    simp only [hbackslash, decide_false, Bool.or_false, decide_eq_true_eq]
    omega

theorem stringFrom_flatMap_escape (cs done rest : List Char) :
    stringFrom { done } (cs.flatMap escape ++ '"' :: rest) =
      some (String.ofList (done.reverse ++ cs), rest) := by
  induction cs generalizing done with
  | nil => simp [stringFrom, Units.toText]
  | cons c cs ih =>
    rw [List.flatMap_cons, List.append_assoc, stringFrom_escape, ih, List.reverse_cons,
      List.append_assoc, List.singleton_append]

/-- A text is read up to its closing mark and no further. -/
theorem stringFrom_text (s : String) (rest : List Char) :
    stringFrom {} (s.toList.flatMap escape ++ '"' :: rest) = some (s, rest) := by
  rw [stringFrom_flatMap_escape, List.reverse_nil, List.nil_append, String.ofList_toList]

/-! ## 2. Numbers -/

/-- What stands behind a value in a text: nothing, or what ends an item, a list or an object. -/
def Follows (rest : List Char) : Prop :=
  rest = [] ∨ ∃ c tail, rest = c :: tail ∧ (c = ',' ∨ c = ']' ∨ c = '\x7d')

theorem Follows.cons {c : Char} (h : c = ',' ∨ c = ']' ∨ c = '\x7d') (rest : List Char) :
    Follows (c :: rest) :=
  .inr ⟨c, rest, rfl, h⟩

/-- Digits end where the value does. -/
theorem digits_end {ds rest : List Char} (hds : ∀ c ∈ ds, isDigit c = true)
    (hrest : Follows rest) :
    (ds ++ rest).takeWhile isDigit = ds ∧ (ds ++ rest).dropWhile isDigit = rest := by
  have hend : rest.takeWhile isDigit = [] ∧ rest.dropWhile isDigit = rest := by
    rcases hrest with rfl | ⟨c, tail, rfl, rfl | rfl | rfl⟩ <;> exact ⟨rfl, rfl⟩
  rw [List.takeWhile_append_of_pos hds, List.dropWhile_append_of_pos hds, hend.1, hend.2,
    List.append_nil]
  exact ⟨rfl, rfl⟩

theorem isDigit_of_mem_toDigits {n : Nat} {c : Char} (h : c ∈ Nat.toDigits 10 n) :
    isDigit c = true := by
  obtain ⟨hlow, hhigh⟩ :=
    Char.isDigit_iff_toNat.mp (Nat.isDigit_of_mem_toDigits (by decide) (by decide) h)
  simp only [isDigit, Bool.and_eq_true, decide_eq_true_eq]
  exact ⟨hlow, hhigh⟩

theorem digitsValue_toDigits (n : Nat) : digitsValue (Nat.toDigits 10 n) = n := by
  have hround := Nat.ofDigitChars_ten_toDigits (n := n)
  simpa only [digitsValue, Nat.ofDigitChars, Nat.mul_comm] using hround

/-- No number but zero begins with a zero. -/
theorem head?_toDigits {n : Nat} (h : 0 < n) : (Nat.toDigits 10 n).head? ≠ some '0' := by
  induction n using Nat.base_induction 10 (by decide) with
  | single m hm =>
    rw [Nat.toDigits_of_lt_base hm]
    revert hm h
    revert m
    decide
  | digit m k hk hm ih =>
    rw [← Nat.toDigits_append_toDigits (by decide) hm hk,
      List.head?_append_of_ne_nil _ Nat.toDigits_ne_nil]
    exact ih hm

/-- The digits of a whole number are taken up to what follows, with a sign or without one. -/
theorem number?_digits {ds rest : List Char} (hds : ∀ c ∈ ds, isDigit c = true) (hne : ds ≠ [])
    (hzero : ds.head? = some '0' → ds.length = 1) (hrest : Follows rest) :
    number? (ds ++ rest) = some (.int (digitsValue ds), rest) ∧
      number? ('-' :: (ds ++ rest)) = some (.int (-digitsValue ds), rest) := by
  obtain ⟨htake, hdrop⟩ := digits_end hds hrest
  have hwhole : (ds.isEmpty || (ds.head? == some '0' && ds.length != 1)) = false := by
    simp only [Bool.or_eq_false_iff, List.isEmpty_eq_false_iff, Bool.and_eq_false_imp, beq_iff_eq,
      bne_eq_false_iff_eq]
    exact ⟨hne, hzero⟩
  have hsign : ∀ tail, ds ++ rest ≠ '-' :: tail := by
    intro tail h
    obtain ⟨d, more, rfl⟩ := List.exists_cons_of_ne_nil hne
    cases h
    exact absurd (hds '-' List.mem_cons_self) (by decide)
  constructor
  · unfold number?
    split
    rename_i negative cs hcs
    obtain ⟨rfl, rfl⟩ : negative = false ∧ cs = ds ++ rest := by
      split at hcs
      · exact absurd ‹_› (hsign _)
      · cases hcs
        exact ⟨rfl, rfl⟩
    simp only [htake, hdrop, hwhole]
    rcases hrest with rfl | ⟨c, tail, rfl, rfl | rfl | rfl⟩
    all_goals simp
  · simp only [number?, htake, hdrop, hwhole]
    rcases hrest with rfl | ⟨c, tail, rfl, rfl | rfl | rfl⟩
    all_goals simp

/-- No word begins as a number does; the one that begins with a minus sign goes on with a letter. -/
theorem words_begin : ∀ w ∈ words, w.1.toList.head?.any (fun d => !isDigit d) = true ∧
    (w.1.toList.head? = some '-' → w.1.toList.tail.head? = some 'I') := by
  decide

theorem word?_eq_none {c : Char} {cs : List Char}
    (h : isDigit c = true ∨ c = '-' ∧ cs.head? ≠ some 'I') : word? (c :: cs) words = none := by
  apply List.findSome?_eq_none_iff.mpr
  intro w hw
  obtain ⟨hfirst, hsecond⟩ := words_begin w hw
  apply if_neg
  intro hprefix
  obtain ⟨tail, htail⟩ := List.isPrefixOf_iff_prefix.mp hprefix
  rcases hword : w.1.toList with _ | ⟨d, ds⟩
  · rw [hword] at hfirst
    cases hfirst
  · rw [hword] at hfirst hsecond htail
    obtain ⟨rfl, rfl⟩ : d = c ∧ ds ++ tail = cs := List.cons.inj htail
    have hletter : isDigit d = false := by simpa using hfirst
    rcases h with h | ⟨rfl, h⟩
    · rw [hletter] at h
      cases h
    -- Only the word for minus infinity is left, and digits do not go on as it does.
    · apply h
      rw [List.head?_append, show ds.head? = some 'I' from hsecond rfl]
      rfl

theorem skipBlanks_of_begins {c : Char} (h : isBlank c = false) (cs : List Char) :
    skipBlanks (c :: cs) = c :: cs := by
  rw [skipBlanks, List.dropWhile_cons_of_neg (by simp [h])]

/-- The characters of an integer are none of those that mean something else. -/
theorem ne_of_numeric {c d : Char} (h : isDigit c = true ∨ c = '-') (hdigit : isDigit d = false)
    (hminus : d ≠ '-') : c ≠ d := by
  rintro rfl
  rcases h with h | h
  · rw [hdigit] at h
    cases h
  · exact hminus h

theorem isBlank_of_numeric {c : Char} (h : isDigit c = true ∨ c = '-') : isBlank c = false := by
  have hne := fun d => ne_of_numeric (d := d) h
  simp only [isBlank, Bool.or_eq_false_iff, decide_eq_false_iff_not]
  exact ⟨⟨⟨hne ' ' rfl (by decide), hne '\n' rfl (by decide)⟩, hne '\r' rfl (by decide)⟩,
    hne '\t' rfl (by decide)⟩

theorem toList_toString_int (n : Int) : (toString n).toList =
    (if n < 0 then ['-'] else []) ++ Nat.toDigits 10 n.natAbs := by
  cases n with
  | ofNat m =>
    rw [if_neg (show ¬ Int.ofNat m < 0 from Int.not_lt.mpr (Int.natCast_nonneg m))]
    exact String.toList_ofList
  | negSucc m =>
    rw [if_pos (Int.negSucc_lt_zero m)]
    show ("-" ++ Nat.repr (m + 1)).toList = _
    rw [String.toList_append]
    exact congrArg ('-' :: ·) String.toList_ofList

theorem numeric_of_mem_toString {n : Int} {c : Char} (h : c ∈ (toString n).toList) :
    isDigit c = true ∨ c = '-' := by
  rw [toList_toString_int, List.mem_append] at h
  rcases h with h | h
  · split at h
    · exact .inr (List.mem_singleton.mp h)
    · cases h
  · exact .inl (isDigit_of_mem_toDigits h)

/-- What begins like a number is read as one. -/
theorem value?_eq_number? {c : Char} {cs : List Char} (n : Nat)
    (h : isDigit c = true ∨ c = '-' ∧ cs.head? ≠ some 'I') :
    value? (n + 1) (c :: cs) = number? (c :: cs) := by
  have hnumeric : isDigit c = true ∨ c = '-' := h.imp_right And.left
  rw [value?, skipBlanks_of_begins (isBlank_of_numeric hnumeric)]
  split
  · rename_i heq
    cases heq
    exact absurd rfl (ne_of_numeric (d := '"') hnumeric rfl (by decide))
  · rename_i heq
    cases heq
    exact absurd rfl (ne_of_numeric (d := '[') hnumeric rfl (by decide))
  · rename_i heq
    cases heq
    exact absurd rfl (ne_of_numeric (d := '\x7b') hnumeric rfl (by decide))
  · rw [word?_eq_none h, Option.none_or]

theorem value?_int (depth : Nat) (n : Int) {rest : List Char} (hrest : Follows rest) :
    value? (depth + 1) ((toString n).toList ++ rest) = some (.int n, rest) := by
  obtain ⟨d, ds, hds⟩ :=
    List.exists_cons_of_ne_nil (Nat.toDigits_ne_nil (b := 10) (n := n.natAbs))
  have hdigits : ∀ c ∈ Nat.toDigits 10 n.natAbs, isDigit c = true :=
    fun c => isDigit_of_mem_toDigits
  have hd : isDigit d = true := hdigits d (hds ▸ List.mem_cons_self)
  have hzero : (Nat.toDigits 10 n.natAbs).head? = some '0' →
      (Nat.toDigits 10 n.natAbs).length = 1 := by
    intro hhead
    rcases Nat.eq_zero_or_pos n.natAbs with hn | hn
    · rw [hn]
      rfl
    · exact absurd hhead (head?_toDigits hn)
  obtain ⟨hplus, hminus⟩ := number?_digits hdigits Nat.toDigits_ne_nil hzero hrest
  rw [digitsValue_toDigits] at hplus hminus
  rw [toList_toString_int]
  by_cases hn : n < 0
  · have hvalue : -(n.natAbs : Int) = n := by omega
    rw [hvalue] at hminus
    rw [if_pos hn, List.cons_append, List.nil_append, List.cons_append, value?_eq_number? depth]
    · exact hminus
    · right
      rw [hds]
      refine ⟨rfl, fun h => ?_⟩
      cases h
      exact absurd hd (by decide)
  · have hvalue : (n.natAbs : Int) = n := by omega
    rw [hvalue] at hplus
    rw [if_neg hn, List.nil_append]
    rw [hds, List.cons_append] at hplus ⊢
    rw [value?_eq_number? depth (.inl hd)]
    exact hplus

theorem separated_begins {c : Char} {cs piece : List Char} (pieces : List (List Char))
    (h : piece = c :: cs) : ∃ more, separated (piece :: pieces) = c :: more := by
  cases pieces with
  | nil => exact ⟨cs, h⟩
  | cons second pieces =>
    refine ⟨cs ++ ',' :: ' ' :: separated (second :: pieces), ?_⟩
    rw [h]
    rfl

end Json

/-! ## 3. Values that JSON has a form for -/

namespace Value

open Json

/-- Null, truth values, integers and texts, and the lists and objects built from them.  The names
of an object are all different. -/
inductive Plain : Value → Prop where
  | null : Plain .null
  | bool (b : Bool) : Plain (.bool b)
  | int (n : Int) : Plain (.int n)
  | text (s : String) : Plain (.text s)
  | list {items : List Value} (each : ∀ v ∈ items, Plain v) : Plain (.list items)
  | object {fields : Fields} (distinct : (fields.map Prod.fst).Nodup)
      (each : ∀ f ∈ fields, Plain f.2) : Plain (.object fields)

theorem writeItems_eq (items : List Value) : writeItems items = items.map writeJson := by
  induction items with
  | nil => rfl
  | cons v rest ih => rw [writeItems, ih, List.map_cons]

theorem writeFields_eq (fields : Fields) : writeFields fields =
    fields.map fun f => writeText f.1 ++ ':' :: ' ' :: f.2.writeJson := by
  induction fields with
  | nil => rfl
  | cons f rest ih => rw [writeFields, ih, List.map_cons]

/-- The text of a value begins with what is neither a blank nor the end of a list. -/
theorem Plain.writeJson_begins {v : Value} (h : v.Plain) :
    ∃ c cs, v.writeJson = c :: cs ∧ isBlank c = false ∧ c ≠ ']' := by
  cases h with
  | null => exact ⟨'n', _, rfl, rfl, by decide⟩
  | bool b =>
    cases b with
    | false => exact ⟨'f', _, rfl, rfl, by decide⟩
    | true => exact ⟨'t', _, rfl, rfl, by decide⟩
  | int n =>
    have hne : (toString n).toList ≠ [] := by
      rw [toList_toString_int]
      exact List.append_ne_nil_of_right_ne_nil _ Nat.toDigits_ne_nil
    obtain ⟨c, cs, hcs⟩ := List.exists_cons_of_ne_nil hne
    have hc := numeric_of_mem_toString (hcs ▸ List.mem_cons_self)
    exact ⟨c, cs, by rw [writeJson, hcs], isBlank_of_numeric hc, ne_of_numeric hc rfl (by decide)⟩
  | text s => exact ⟨'"', _, rfl, rfl, by decide⟩
  | list each => exact ⟨'[', _, by rw [writeJson]; rfl, rfl, by decide⟩
  | object distinct each => exact ⟨'\x7b', _, by rw [writeJson]; rfl, rfl, by decide⟩

/-! ## 4. A whole value -/

/-- The text of a value is read as that value, wherever it stands. -/
def Reads (v : Value) : Prop :=
  ∀ n rest, v.writeJson.length < n → Follows rest →
    value? n (v.writeJson ++ rest) = some (v, rest)

theorem value?_blank (n : Nat) (cs : List Char) : value? n (' ' :: cs) = value? n cs := by
  cases n with
  | zero => rw [value?, value?]
  | succ n => rw [value?, value?]; rfl

theorem items?_blank (n : Nat) (cs : List Char) : items? n (' ' :: cs) = items? n cs := by
  cases n with
  | zero => rw [items?, items?]
  | succ n => rw [items?, items?, value?_blank]

theorem fields?_blank (n : Nat) (cs : List Char) : fields? n (' ' :: cs) = fields? n cs := by
  cases n with
  | zero => rw [fields?, fields?]
  | succ n => rw [fields?, fields?]; rfl

/-- The items of a list are read one after the other, as deep as their text is long. -/
theorem items?_separated {v : Value} {items : List Value} (h : ∀ w ∈ v :: items, w.Reads) {n : Nat}
    (hn : (separated (writeItems (v :: items))).length + 1 < n) (rest : List Char) :
    items? n (separated (writeItems (v :: items)) ++ ']' :: rest) = some (v :: items, rest) := by
  -- An item takes one from the depth, and it and its comma two characters at least from the text.
  induction items generalizing v n with
  | nil =>
    obtain ⟨n, rfl⟩ := Nat.exists_eq_succ_of_ne_zero (Nat.ne_zero_of_lt hn)
    have hlength : v.writeJson.length < n := by
      simp only [writeItems, separated] at hn
      omega
    have hfirst := h v List.mem_cons_self n (']' :: rest) hlength (.cons (by decide) rest)
    simp only [writeItems, separated, items?, hfirst]
    rfl
  | cons w items ih =>
    obtain ⟨n, rfl⟩ := Nat.exists_eq_succ_of_ne_zero (Nat.ne_zero_of_lt hn)
    have hpieces : separated (writeItems (v :: w :: items)) =
        v.writeJson ++ ',' :: ' ' :: separated (writeItems (w :: items)) := rfl
    rw [hpieces] at hn ⊢
    simp only [List.length_append, List.length_cons] at hn
    have hfirst := h v List.mem_cons_self n
      (',' :: ' ' :: (separated (writeItems (w :: items)) ++ ']' :: rest)) (by omega)
      (.cons (by decide) _)
    have hmore := ih (fun u hu => h u (List.mem_cons_of_mem v hu)) (n := n) (by omega)
    simp only [List.append_assoc, List.cons_append, items?, hfirst]
    show (items? n (' ' :: _) >>= _) = _
    rw [items?_blank, hmore]
    rfl

/-- A field is its name, read as a text, and its value. -/
theorem fields?_first {v : Value} (hv : v.Reads) (name : String) {n : Nat}
    (hn : v.writeJson.length < n) {rest : List Char} (hrest : Follows rest) :
    fields? (n + 1) (writeText name ++ ':' :: ' ' :: (v.writeJson ++ rest)) =
      match skipBlanks rest with
      | ',' :: rest => do
        let (fs, rest) ← fields? n rest
        return ((name, v) :: fs, rest)
      | '\x7d' :: rest => some ([(name, v)], rest)
      | _ => none := by
  have htext : writeText name ++ ':' :: ' ' :: (v.writeJson ++ rest) =
      '"' :: (name.toList.flatMap escape ++ '"' :: ':' :: ' ' :: (v.writeJson ++ rest)) := by
    simp [writeText]
  have hmark : ∀ cs, skipBlanks ('"' :: cs) = '"' :: cs := fun _ => rfl
  have hcolon : ∀ cs, skipBlanks (':' :: cs) = ':' :: cs := fun _ => rfl
  rw [htext, fields?]
  simp only [hmark, stringFrom_text, Option.bind_eq_bind, Option.bind_some, hcolon]
  rw [value?_blank, hv n rest hn hrest]
  rfl

/-- The fields of an object are read one after the other. -/
theorem fields?_separated {f : String × Value} {fields : Fields}
    (h : ∀ g ∈ f :: fields, g.2.Reads) {n : Nat}
    (hn : (separated (writeFields (f :: fields))).length + 1 < n) (rest : List Char) :
    fields? n (separated (writeFields (f :: fields)) ++ '\x7d' :: rest) =
      some (f :: fields, rest) := by
  induction fields generalizing f n with
  | nil =>
    obtain ⟨n, rfl⟩ := Nat.exists_eq_succ_of_ne_zero (Nat.ne_zero_of_lt hn)
    have hlength : f.2.writeJson.length < n := by
      simp only [writeFields, separated, List.length_append, List.length_cons] at hn
      omega
    have hfirst := fields?_first (h f List.mem_cons_self) f.1 hlength
      (.cons (c := '\x7d') (by decide) rest)
    simp only [writeFields, separated, List.append_assoc, List.cons_append]
    exact hfirst
  | cons g fields ih =>
    obtain ⟨n, rfl⟩ := Nat.exists_eq_succ_of_ne_zero (Nat.ne_zero_of_lt hn)
    have hpieces : separated (writeFields (f :: g :: fields)) =
        (writeText f.1 ++ ':' :: ' ' :: f.2.writeJson) ++
          ',' :: ' ' :: separated (writeFields (g :: fields)) := rfl
    rw [hpieces] at hn ⊢
    simp only [List.length_append, List.length_cons] at hn
    have hfirst := fields?_first (h f List.mem_cons_self) f.1 (n := n) (by omega)
      (.cons (c := ',') (by decide)
        (' ' :: (separated (writeFields (g :: fields)) ++ '\x7d' :: rest)))
    have hmore := ih (fun e he => h e (List.mem_cons_of_mem f he)) (n := n) (by omega)
    simp only [List.append_assoc, List.cons_append]
    rw [hfirst]
    show (fields? n (' ' :: _) >>= _) = _
    rw [fields?_blank, hmore]
    rfl

theorem value?_list {c : Char} (hblank : isBlank c = false) (hend : c ≠ ']') (n : Nat)
    (cs : List Char) : value? (n + 1) ('[' :: c :: cs) =
      (items? n (c :: cs)).map fun (vs, rest) => (.list vs, rest) := by
  have hmark : skipBlanks ('[' :: c :: cs) = '[' :: c :: cs := rfl
  rw [value?, hmark]
  simp only [skipBlanks_of_begins hblank]
  split
  · rename_i heq
    cases heq
    exact absurd rfl hend
  · rfl

theorem Reads.intro {v : Value} (h : ∀ n rest, v.writeJson.length ≤ n → Follows rest →
    value? (n + 1) (v.writeJson ++ rest) = some (v, rest)) : v.Reads := by
  intro n rest hn hrest
  obtain ⟨n, rfl⟩ := Nat.exists_eq_succ_of_ne_zero (Nat.ne_zero_of_lt hn)
  exact h n rest (by omega) hrest

/-- A list is read when its items are, the first of which does not look like its end. -/
theorem reads_list {items : List Value} (hplain : ∀ v ∈ items, v.Plain)
    (h : ∀ v ∈ items, v.Reads) : (list items).Reads := by
  refine .intro fun n rest hn _ => ?_
  cases items with
  | nil =>
    rw [value?]
    rfl
  | cons v items =>
    have htext : (list (v :: items)).writeJson ++ rest =
        '[' :: (separated (writeItems (v :: items)) ++ ']' :: rest) := by
      simp [writeJson]
    have hitems : (separated (writeItems (v :: items))).length + 1 < n := by
      simp [writeJson] at hn
      omega
    obtain ⟨c, cs, hv, hblank, hend⟩ := (hplain v List.mem_cons_self).writeJson_begins
    obtain ⟨more, hmore⟩ := separated_begins (writeItems items) hv
    have hread := items?_separated h hitems rest
    rw [writeItems] at hread htext
    rw [hmore, List.cons_append] at hread htext
    rw [htext, value?_list hblank hend, hread]
    rfl

/-- An object is read when its values are, and its fields are where they were. -/
theorem reads_object {fields : Fields} (hdistinct : (fields.map Prod.fst).Nodup)
    (h : ∀ f ∈ fields, f.2.Reads) : (object fields).Reads := by
  refine .intro fun n rest hn _ => ?_
  cases fields with
  | nil =>
    rw [value?]
    rfl
  | cons f fields =>
    have htext : (object (f :: fields)).writeJson ++ rest =
        '\x7b' :: (separated (writeFields (f :: fields)) ++ '\x7d' :: rest) := by
      simp [writeJson]
    have hfields : (separated (writeFields (f :: fields))).length + 1 < n := by
      simp [writeJson] at hn
      omega
    have hfirst : writeText f.1 ++ ':' :: ' ' :: f.2.writeJson = '"' :: _ := rfl
    obtain ⟨more, hmore⟩ := separated_begins (writeFields fields) hfirst
    have hread := fields?_separated h hfields rest
    have hnames : Fields.update [] (f :: fields) = f :: fields := Fields.update_of_nodup hdistinct
    rw [writeFields] at hread htext
    rw [hmore, List.cons_append] at hread htext
    rw [htext, value?]
    show (fields? n _).map _ = _
    rw [hread]
    show some (object (Fields.update [] (f :: fields)), rest) = _
    rw [hnames]

theorem Plain.reads {v : Value} (h : v.Plain) : v.Reads := by
  induction h with
  | null =>
    refine .intro fun n rest _ _ => ?_
    rw [value?]
    rfl
  | bool b =>
    refine .intro fun n rest _ _ => ?_
    rw [value?]
    cases b <;> rfl
  | int m =>
    refine .intro fun n rest _ hrest => ?_
    rw [writeJson]
    exact value?_int n m hrest
  | text s =>
    refine .intro fun n rest _ _ => ?_
    have htext : writeJson (.text s) ++ rest =
        '"' :: (s.toList.flatMap escape ++ '"' :: rest) := by
      simp [writeJson, writeText]
    rw [htext, value?]
    show (stringFrom {} _).map _ = _
    rw [stringFrom_text]
    rfl
  | list each ih => exact reads_list each ih
  | object distinct _ ih => exact reads_object distinct ih

/-- A value that JSON has a form for is what its text is read as. -/
theorem Plain.read?_toJson {v : Value} (h : v.Plain) : read? v.toJson = some v := by
  have hread := h.reads (v.writeJson.length + 1) [] (by omega) (.inl rfl)
  rw [List.append_nil] at hread
  rw [read?, toJson, String.toList_ofList]
  simp only [hread]
  rfl

end Value

/-! ## 5. No control characters -/

namespace Json

theorem mem_separated {c : Char} {pieces : List (List Char)} (h : c ∈ separated pieces) :
    c = ',' ∨ c = ' ' ∨ ∃ piece ∈ pieces, c ∈ piece := by
  induction pieces with
  | nil => cases h
  | cons piece pieces ih =>
    cases pieces with
    | nil => exact .inr (.inr ⟨piece, List.mem_cons_self, h⟩)
    | cons second pieces =>
      have hmem : c ∈ piece ++ ',' :: ' ' :: separated (second :: pieces) := h
      simp only [List.mem_append, List.mem_cons] at hmem
      rcases hmem with hmem | rfl | rfl | hmem
      · exact .inr (.inr ⟨piece, List.mem_cons_self, hmem⟩)
      · exact .inl rfl
      · exact .inr (.inl rfl)
      · exact (ih hmem).imp_right (.imp_right fun ⟨p, hp, hc⟩ => ⟨p, List.mem_cons_of_mem _ hp, hc⟩)

/-- What stands between two pieces is no control character. -/
theorem separated_printed {pieces : List (List Char)}
    (h : ∀ piece ∈ pieces, ∀ c ∈ piece, 0x20 ≤ c.toNat) :
    ∀ c ∈ separated pieces, 0x20 ≤ c.toNat := by
  intro c hc
  rcases mem_separated hc with rfl | rfl | ⟨piece, hpiece, hmem⟩
  · decide
  · decide
  · exact h piece hpiece c hmem

theorem between_printed {opening closing : Char} {cs : List Char} (hopening : 0x20 ≤ opening.toNat)
    (hclosing : 0x20 ≤ closing.toNat) (h : ∀ c ∈ cs, 0x20 ≤ c.toNat) :
    ∀ c ∈ opening :: cs ++ [closing], 0x20 ≤ c.toNat := by
  intro c hc
  simp only [List.cons_append, List.mem_cons, List.mem_append, List.not_mem_nil, or_false] at hc
  rcases hc with rfl | hc | rfl
  · exact hopening
  · exact h c hc
  · exact hclosing

theorem writeText_printed (s : String) : ∀ c ∈ writeText s, 0x20 ≤ c.toNat := by
  apply between_printed (by decide) (by decide)
  intro c hc
  obtain ⟨d, -, hd⟩ := List.mem_flatMap.mp hc
  exact escape_printed d c hd

end Json

open Json in
/-- The text of a value stands on one line. -/
theorem Value.Plain.writeJson_printed {v : Value} (h : v.Plain) :
    ∀ c ∈ v.writeJson, 0x20 ≤ c.toNat := by
  induction h with
  | null => exact printed_of_all rfl
  | bool b => cases b <;> exact printed_of_all rfl
  | int n =>
    intro c hc
    rw [writeJson] at hc
    rcases numeric_of_mem_toString hc with h | rfl
    · simp only [isDigit, Bool.and_eq_true, decide_eq_true_eq] at h
      exact Nat.le_trans (by decide) h.1
    · decide
  | text s =>
    rw [writeJson]
    exact writeText_printed s
  | @list items _ ih =>
    rw [writeJson, writeItems_eq]
    apply between_printed (by decide) (by decide)
    apply separated_printed
    intro piece hpiece
    obtain ⟨v, hv, rfl⟩ := List.mem_map.mp hpiece
    exact ih v hv
  | @object fields _ _ ih =>
    rw [writeJson, writeFields_eq]
    apply between_printed (by decide) (by decide)
    apply separated_printed
    intro piece hpiece c hc
    obtain ⟨f, hf, rfl⟩ := List.mem_map.mp hpiece
    simp only [List.mem_append, List.mem_cons] at hc
    rcases hc with hc | rfl | rfl | hc
    · exact writeText_printed f.1 c hc
    · decide
    · decide
    · exact ih f hf c hc

end ResumableStorage
