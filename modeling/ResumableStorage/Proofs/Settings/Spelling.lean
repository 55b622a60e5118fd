/-
  ResumableStorage/Proofs/Settings/Spelling.lean
  ==============================================
  **Settings files as they are written** — a file is a sheet of lines: blank ones, remarks,
  and settings with any padding and either kind of quotation marks, each with one of the
  ends that a line can have.  However variables are spelled on a sheet, loading it sets
  these variables and nothing else.
-/
import ResumableStorage.Proofs.Settings.Loading

namespace ResumableStorage

namespace EnvFile

open Text

/-! ## 1. Names and values that can be written -/

structure Writable (name : String) : Prop where
  named : name ≠ ""
  noEquals : '=' ∉ name.toList
  oneLine : OnOneLine name.toList
  noZero : Char.ofNat 0 ∉ name.toList
  bare : Bare isBlank name.toList
  noRemark : name.toList.head? ≠ some '#'

instance (name : String) : Decidable (Writable name) :=
  decidable_of_iff (name ≠ "" ∧ '=' ∉ name.toList ∧ OnOneLine name.toList ∧
      Char.ofNat 0 ∉ name.toList ∧ Bare isBlank name.toList ∧ name.toList.head? ≠ some '#')
    ⟨fun ⟨named, noEquals, oneLine, noZero, bare, noRemark⟩ =>
      ⟨named, noEquals, oneLine, noZero, bare, noRemark⟩,
      fun h => ⟨h.named, h.noEquals, h.oneLine, h.noZero, h.bare, h.noRemark⟩⟩

def isMark (c : Char) : Bool := c == '"' || c == '\''

structure Quotable (value : String) : Prop where
  oneLine : OnOneLine value.toList
  noZero : Char.ofNat 0 ∉ value.toList
  bare : Bare isMark value.toList

instance (value : String) : Decidable (Quotable value) :=
  decidable_of_iff (OnOneLine value.toList ∧ Char.ofNat 0 ∉ value.toList ∧
      Bare isMark value.toList)
    ⟨fun ⟨oneLine, noZero, bare⟩ => ⟨oneLine, noZero, bare⟩,
      fun h => ⟨h.oneLine, h.noZero, h.bare⟩⟩

/-! ## 2. Lines -/

/-- The quotation marks around a value. -/
inductive Marks where
  | none
  | double
  | single
deriving DecidableEq

def Marks.around : Marks → List Char → List Char
  | none, cs => cs
  | double, cs => '"' :: (cs ++ ['"'])
  | single, cs => '\'' :: (cs ++ ['\''])

/-- What may stand around the name and the value within a line. -/
def IsPadding (cs : List Char) : Prop := (∀ c ∈ cs, isBlank c = true) ∧ OnOneLine cs

instance (cs : List Char) : Decidable (IsPadding cs) :=
  decidable_of_iff (cs.all isBlank = true ∧ OnOneLine cs) (by rw [IsPadding, List.all_eq_true])

inductive Line where
  | blank (padding : List Char)
  | remark (padding text : List Char)
  | setting (name value : String) (marks : Marks) (left right before behind : List Char)

namespace Line

def chars : Line → List Char
  | blank padding => padding
  | remark padding text => padding ++ '#' :: text
  | setting name value marks left right before behind =>
    (left ++ name.toList ++ right) ++ '=' :: (before ++ marks.around value.toList ++ behind)

def setting? : Line → Option (String × String)
  | setting name value .. => some (name, value)
  | _ => none

/-- The line is laid out as it may be; only a value without blanks at its ends goes without marks. -/
def LaidOut : Line → Prop
  | blank padding => IsPadding padding
  | remark padding text => IsPadding padding ∧ OnOneLine text
  | setting _ value marks left right before behind =>
    (IsPadding left ∧ IsPadding right ∧ IsPadding before ∧ IsPadding behind) ∧
      (marks = .none → Bare isBlank value.toList)

instance : (l : Line) → Decidable l.LaidOut
  | blank padding => inferInstanceAs (Decidable (IsPadding padding))
  | remark padding text =>
    inferInstanceAs (Decidable (IsPadding padding ∧ OnOneLine text))
  | setting _ value marks left right before behind =>
    inferInstanceAs (Decidable ((IsPadding left ∧ IsPadding right ∧ IsPadding before ∧
      IsPadding behind) ∧ (marks = .none → Bare isBlank value.toList)))

end Line

/-- Within their marks, or bare, values are found again. -/
theorem strips_around {value : List Char} (h : Bare isMark value) (marks : Marks)
    (hbare : marks = .none → Bare isBlank value) :
    Bare isBlank (marks.around value) ∧ ∃ unmarked,
      Strips (· == '"') (marks.around value) unmarked ∧ Strips (· == '\'') unmarked value := by
  have hdouble : Bare (· == '"') value :=
    ⟨fun c hc => (Bool.or_eq_false_iff.mp (h.first c hc)).1,
      fun c hc => (Bool.or_eq_false_iff.mp (h.last c hc)).1⟩
  have hsingle : Bare (· == '\'') value :=
    ⟨fun c hc => (Bool.or_eq_false_iff.mp (h.first c hc)).2,
      fun c hc => (Bool.or_eq_false_iff.mp (h.last c hc)).2⟩
  have hself : ∀ {p : Char → Bool} {cs : List Char}, Bare p cs → Strips p cs cs :=
    fun hcs => strips_iff.mpr hcs.trim
  have hmarked : ∀ {p : Char → Bool} {m : Char}, p m = false → Bare p (m :: (value ++ [m])) := by
    intro p m hm
    constructor
    · intro c hc
      cases hc
      exact hm
    · intro c hc
      rw [← List.cons_append, List.getLast?_concat] at hc
      cases hc
      exact hm
  cases marks with
  | none => exact ⟨hbare rfl, value, hself hdouble, hself hsingle⟩
  | double =>
    refine ⟨hmarked (by decide), value, ⟨hdouble, ['"'], ['"'], rfl, ?_, ?_⟩, hself hsingle⟩
    · simp
    · simp
  | single =>
    refine ⟨hmarked (by decide), _, hself (hmarked (by decide)),
      ⟨hsingle, ['\''], ['\''], rfl, ?_, ?_⟩⟩
    · simp
    · simp

/-- A line is read as the setting that it writes, and as none when it writes none. -/
theorem definition?_chars {l : Line} (h : l.LaidOut)
    (hgood : ∀ d, l.setting? = some d → Writable d.1 ∧ Quotable d.2) :
    definition? l.chars = l.setting? := by
  cases l with
  | blank padding =>
    apply definition?_of_not_mem
    intro hmem
    exact absurd (h.1 '=' hmem) (by decide)
  | remark padding text =>
    have hnumber : isBlank '#' = false := by decide
    have htrim : trim isBlank (padding ++ '#' :: text) = '#' :: trimEnd isBlank text := by
      rw [trim_append_left h.1.1, trim, List.dropWhile_cons_of_neg (by simp [hnumber])]
      exact trimEnd_append_cons hnumber [] text
    rw [Line.chars, definition?, htrim]
    rfl
  | setting name value marks left right before behind =>
    obtain ⟨⟨hleft, hright, hbefore, hbehind⟩, hmarks⟩ := h
    obtain ⟨hname, hvalue⟩ := hgood (name, value) rfl
    obtain ⟨hshown, unmarked, hdouble, hsingle⟩ := strips_around hvalue.bare marks hmarks
    apply definition?_eq_some_iff.mpr
    refine ⟨hname.named, hname.noRemark, _, _, _, unmarked, rfl, ?_,
      ⟨hname.bare, left, right, rfl, hleft.1, hright.1⟩,
      ⟨hshown, before, behind, rfl, hbefore.1, hbehind.1⟩, hdouble, hsingle⟩
    simp only [List.mem_append, not_or]
    refine ⟨⟨fun hmem => ?_, hname.noEquals⟩, fun hmem => ?_⟩
    · exact absurd (hleft.1 '=' hmem) (by decide)
    · exact absurd (hright.1 '=' hmem) (by decide)

theorem Line.LaidOut.oneLine {l : Line} (h : l.LaidOut)
    (hgood : ∀ d, l.setting? = some d → Writable d.1 ∧ Quotable d.2) :
    OnOneLine l.chars := by
  cases l with
  | blank padding => exact h.2
  | remark padding text =>
    intro c hc
    rcases List.mem_append.mp hc with hc | hc
    · exact h.1.2 c hc
    · rcases List.mem_cons.mp hc with rfl | hc
      · decide
      · exact h.2 c hc
  | setting name value marks left right before behind =>
    obtain ⟨⟨hleft, hright, hbefore, hbehind⟩, -⟩ := h
    obtain ⟨hname, hvalue⟩ := hgood (name, value) rfl
    have haround : OnOneLine (marks.around value.toList) := by
      intro c hc
      cases marks with
      | none => exact hvalue.oneLine c hc
      | double | single =>
        simp only [Marks.around, List.mem_cons, List.mem_append, List.not_mem_nil, or_false] at hc
        rcases hc with rfl | hc | rfl
        · decide
        · exact hvalue.oneLine c hc
        · decide
    intro c hc
    simp only [Line.chars, List.mem_append, List.mem_cons] at hc
    rcases hc with ((hc | hc) | hc) | rfl | (hc | hc) | hc
    · exact hleft.2 c hc
    · exact hname.oneLine c hc
    · exact hright.2 c hc
    · decide
    · exact hbefore.2 c hc
    · exact haround c hc
    · exact hbehind.2 c hc

/-! ## 3. Sheets -/

/-- Lines with the end of each, and a last one without; it is blank when the file ends with an end of
line. -/
structure Sheet where
  lines : List (Line × List Char)
  last : Line

namespace Sheet

def chars (s : Sheet) : List Char :=
  s.lines.flatMap (fun l => l.1.chars ++ l.2) ++ s.last.chars

def text (s : Sheet) : String := String.ofList s.chars

/-- The variables that are written, in their order. -/
def settings (s : Sheet) : List (String × String) :=
  (s.lines.map Prod.fst ++ [s.last]).filterMap Line.setting?

structure LaidOut (s : Sheet) : Prop where
  lines : ∀ l ∈ s.lines, l.1.LaidOut ∧ IsLineEnd l.2
  last : s.last.LaidOut

instance (s : Sheet) : Decidable s.LaidOut :=
  decidable_of_iff ((∀ l ∈ s.lines, l.1.LaidOut ∧ IsLineEnd l.2) ∧ s.last.LaidOut)
    ⟨fun ⟨lines, last⟩ => ⟨lines, last⟩, fun h => ⟨h.lines, h.last⟩⟩

/-- The settings of a sheet can be written. -/
def Good (s : Sheet) : Prop := ∀ d ∈ s.settings, Writable d.1 ∧ Quotable d.2

/-- The lines of the text are read as the settings of the sheet.  The induction is on the lines; two
of their ends may be taken for one, but then the line between them is empty. -/
theorem definitions_chars {s : Sheet} (hlaid : s.LaidOut) (hgood : s.Good) :
    (linesFrom [] s.chars).filterMap definition? = s.settings := by
  obtain ⟨lines, last⟩ := s
  have hempty : definition? [] = none := rfl
  induction lines with
  | nil =>
    have hlast := hgood
    simp only [Good, settings, List.map_nil, List.nil_append, List.mem_filterMap,
      List.mem_singleton, exists_eq_left] at hlast
    have hclosed : (linesFrom [] last.chars).filterMap definition? =
        (definition? last.chars).toList := by
      rw [← List.append_nil last.chars, linesFrom_append _ (hlaid.last.oneLine hlast),
        linesFrom_nil, List.append_nil, List.append_nil]
      split
      · rename_i hnil
        rw [List.isEmpty_reverse, List.isEmpty_iff] at hnil
        rw [hnil, hempty]
        rfl
      · rw [List.reverse_reverse]
        cases hline : definition? last.chars <;> simp [hline]
    rw [chars, settings, List.flatMap_nil, List.nil_append, hclosed,
      definition?_chars hlaid.last hlast]
    cases hsetting : last.setting? <;> simp [hsetting]
  | cons line lines ih =>
    obtain ⟨l, ending⟩ := line
    obtain ⟨hl, hending⟩ := hlaid.lines (l, ending) List.mem_cons_self
    have hsettings : Sheet.settings ⟨(l, ending) :: lines, last⟩ =
        l.setting?.toList ++ Sheet.settings ⟨lines, last⟩ := by
      cases hsetting : l.setting? <;> simp [settings, hsetting]
    rw [Good, hsettings] at hgood
    have hline : ∀ d, l.setting? = some d → Writable d.1 ∧ Quotable d.2 := by
      intro d hd
      exact hgood d (List.mem_append_left _ (by simp [hd]))
    have hrest := ih ⟨fun l' hl' => hlaid.lines l' (List.mem_cons_of_mem _ hl'), hlaid.last⟩
      fun d hd => hgood d (List.mem_append_right _ hd)
    have hchars : Sheet.chars ⟨(l, ending) :: lines, last⟩ =
        l.chars ++ (ending ++ Sheet.chars ⟨lines, last⟩) := by
      simp [chars]
    rw [hchars, linesFrom_append _ (hl.oneLine hline), filterMap_linesFrom_end hempty hending,
      List.append_nil, List.reverse_reverse, definition?_chars hl hline, hrest, hsettings]

end Sheet

theorem lookup_eq_of_nodup {pairs : List (String × String)} (h : (pairs.map Prod.fst).Nodup)
    {d : String × String} (hd : d ∈ pairs) : pairs.lookup d.1 = some d.2 := by
  induction pairs with
  | nil => cases hd
  | cons first rest ih =>
    obtain ⟨name, value⟩ := first
    rw [List.map_cons, List.nodup_cons] at h
    rcases List.mem_cons.mp hd with rfl | hd
    · rw [List.lookup_cons_self]
    · have hmem : d.1 ∈ rest.map Prod.fst := List.mem_map_of_mem hd
      have hne : d.1 ≠ name := fun heq => h.1 (heq ▸ hmem)
      rw [List.lookup_cons, beq_false_of_ne hne]
      exact ih h.2 hd

theorem lookup_eq_none_of_not_mem {pairs : List (String × String)} {name : String}
    (h : name ∉ pairs.map Prod.fst) : pairs.lookup name = none := by
  rw [List.lookup_eq_none_iff]
  intro d hd
  rw [bne_iff_ne]
  rintro rfl
  exact h (List.mem_map_of_mem hd)

/-- However variables with different names are spelled on a sheet, loading it into an environment
without them sets these variables to these values, and leaves all others as they are. -/
theorem load_sheet {pairs : List (String × String)} (hdistinct : (pairs.map Prod.fst).Nodup)
    (hgood : ∀ d ∈ pairs, Writable d.1 ∧ Quotable d.2) {s : Sheet} (hwritten : s.settings = pairs)
    (hlaid : s.LaidOut) {env : Environment} (hnew : ∀ d ∈ pairs, env.find? d.1 = none) :
    (load env s.text.toUTF8).1 = .ok () ∧
      (∀ d ∈ pairs, (load env s.text.toUTF8).2.find? d.1 = some d.2) ∧
      ∀ name, name ∉ pairs.map Prod.fst →
        (load env s.text.toUTF8).2.find? name = env.find? name := by
  have hdefinitions : (linesFrom [] s.text.toList).filterMap definition? = pairs := by
    rw [Sheet.text, String.toList_ofList, ← hwritten]
    exact Sheet.definitions_chars hlaid fun d hd => hgood d (hwritten ▸ hd)
  rw [load_toUTF8]
  rcases add_lines env (linesFrom [] s.text.toList) with ⟨env', hok, hadded⟩ |
    ⟨front, line, rest, env', hsplit, hrejected, -⟩
  · rw [hok]
    refine ⟨rfl, ?_, ?_⟩
    · intro d hd
      rw [hadded.find?_eq, reached, hdefinitions, hnew d hd, Option.none_or,
        lookup_eq_of_nodup hdistinct hd]
    · intro name hname
      rw [hadded.find?_eq, reached, hdefinitions, lookup_eq_none_of_not_mem hname, Option.or_none]
  · obtain ⟨name, value, hdefines, -, -, hzero⟩ := hrejected
    have hmem : (name, value) ∈ pairs := by
      rw [← hdefinitions, hsplit]
      exact List.mem_filterMap.mpr ⟨line, by simp, definition?_eq_some_iff.mpr hdefines⟩
    obtain ⟨hname, hvalue⟩ := hgood _ hmem
    exact absurd hzero (not_or_intro hname.noZero hvalue.noZero)

/-- A remark, padding of several kinds, a value with an equals sign, a number sign and a quotation mark
within, one with blanks at its ends, and an empty one.  The carriage return behind the first setting
and the line feed of the empty line behind it are read as one end of line. -/
theorem load_sheet_with_joined_ends :
    let pairs := [("A", "b=c #\"d"), ("B C", " x'y "), ("é", "")]
    let sheet : Sheet := ⟨[(.remark [' '] "A = e".toList, ['\r', '\n']),
        (.setting "A" "b=c #\"d" .none [' '] ['\t'] ['\u00a0'] [' '], ['\r']), (.blank [], ['\n']),
        (.setting "B C" " x'y " .double [] [] [] ['\u001f'], ['\u2028']), (.blank [' '], ['\x0b'])],
      .setting "é" "" .single [] [] [' '] []⟩
    let env : Environment := Keyed.ofList [("X", "1")]
    let loaded := load env sheet.text.toUTF8
    sheet.text = " #A = e\r\n A\t=\u00a0b=c #\"d \r\nB C=\" x'y \"\u001f\u2028 \x0bé= ''" ∧
      sheet.settings = pairs ∧ sheet.LaidOut ∧ loaded.1 = .ok () ∧
      loaded.2.find? "B C" = some " x'y " ∧ loaded.2.find? "X" = some "1" := by
  intro pairs sheet env loaded
  have hgood : ∀ d ∈ pairs, Writable d.1 ∧ Quotable d.2 := by decide +kernel
  have hwritten : sheet.settings = pairs := by decide +kernel
  have hlaid : sheet.LaidOut := by decide +kernel
  have hnew : ∀ d ∈ pairs, env.find? d.1 = none := by decide +kernel
  obtain ⟨hok, hset, hkept⟩ := load_sheet (by decide) hgood hwritten hlaid hnew
  refine ⟨by decide +kernel, hwritten, hlaid, hok, hset ("B C", " x'y ") (by simp [pairs]), ?_⟩
  rw [hkept "X" (by decide)]
  decide +kernel

end EnvFile

end ResumableStorage
