/-
  ResumableStorage/Proofs/Settings/Definitions.lean
  =================================================
  **Which lines define what** — a line of a settings file is told by how it is spelled: a
  name, an equals sign and a value, with blanks around the two and quotation marks around
  the value.  A line is read as the definition of a variable exactly when it is spelled so,
  and a name and a value that are spelled by a line are unique.
-/
import ResumableStorage.Proofs.Text.Cutting
import ResumableStorage.Settings.EnvFile

namespace ResumableStorage

open Text

namespace EnvFile

/-! ## 1. Lines -/

/-- The line is spelled as the definition of a variable: blanks around the name and around the
value, and quotation marks within the blanks around the value, double ones outside and single ones
inside.  The equals sign is the first one, and a number sign in front would make a remark of it. -/
structure Defines (line : List Char) (name value : String) : Prop where
  named : name ≠ ""
  noRemark : name.toList.head? ≠ some '#'
  spelled : ∃ front behind shown unmarked, line = front ++ '=' :: behind ∧ '=' ∉ front ∧
    Strips isBlank front name.toList ∧ Strips isBlank behind shown ∧
      Strips (· == '"') shown unmarked ∧ Strips (· == '\'') unmarked value.toList

theorem definition?_of_not_mem {line : List Char} (h : '=' ∉ line) : definition? line = none := by
  obtain ⟨front, behind, hline, -, -⟩ := (strips_trim isBlank line).between
  have hnone : '=' ∉ trim isBlank line := by
    intro hmem
    apply h
    rw [hline]
    exact List.mem_append_left _ (List.mem_append_right _ hmem)
  rw [definition?]
  split
  · rfl
  · rfl
  · rw [cutAt_of_not_mem hnone]

/-- The line may be cut before it is trimmed. -/
theorem definition?_of_cut {front : List Char} (h : '=' ∉ front) (behind : List Char) :
    definition? (front ++ '=' :: behind) = match trim isBlank front with
      | [] => none
      | '#' :: _ => none
      | name => some (String.ofList name, String.ofList (unquote (trim isBlank behind))) := by
  have hequals : isBlank '=' = false := by decide
  have hhead : ∀ c, (front.dropWhile isBlank ++ '=' :: behind).head? = some c →
      isBlank c = false := by
    intro c hc
    have hdrop := List.head?_dropWhile_not isBlank front
    rcases hfront : front.dropWhile isBlank with _ | ⟨d, rest⟩
    · rw [hfront] at hc
      cases hc
      exact hequals
    · rw [hfront] at hc hdrop
      cases hc
      exact hdrop
  have hline : trim isBlank (front ++ '=' :: behind) =
      front.dropWhile isBlank ++ '=' :: trimEnd isBlank behind := by
    conv_lhs => rw [← List.takeWhile_append_dropWhile (p := isBlank) (l := front),
      List.append_assoc, trim_append_left fun c => List.mem_takeWhile_imp]
    rw [trim, dropWhile_of_head hhead, trimEnd_append_cons hequals]
  have hcut : '=' ∉ front.dropWhile isBlank :=
    fun hmem => h ((List.dropWhile_sublist isBlank).subset hmem)
  rw [definition?, hline, trim]
  rcases hdrop : front.dropWhile isBlank with _ | ⟨c, rest⟩
  · rfl
  · have hblank : isBlank c = false := by
      apply hhead c
      rw [hdrop]
      rfl
    rw [hdrop] at hcut
    have hname : trimEnd isBlank (c :: rest) = c :: trimEnd isBlank rest :=
      trimEnd_append_cons hblank [] rest
    have htrim : trim isBlank (c :: rest) = c :: trimEnd isBlank rest := by
      rw [trim, dropWhile_of_head fun d hd => Option.some.inj hd ▸ hblank, hname]
    rw [hname]
    by_cases hremark : c = '#'
    · subst hremark
      rfl
    · have hcuts : cutAt '=' (c :: (rest ++ '=' :: trimEnd isBlank behind)) =
          (c :: rest, some (trimEnd isBlank behind)) := cutAt_append hcut _
      simp [hremark, hcuts, htrim, trim_trimEnd]

/-- A line is read as a definition exactly when it is spelled as one. -/
theorem definition?_eq_some_iff {line : List Char} {name value : String} :
    definition? line = some (name, value) ↔ Defines line name value := by
  constructor
  · intro h
    by_cases hmem : '=' ∈ line
    · obtain ⟨front, behind, rfl, hfront⟩ := List.eq_append_cons_of_mem hmem
      have hname := strips_trim isBlank front
      rw [definition?_of_cut hfront] at h
      split at h
      · cases h
      · cases h
      · rename_i hnamed hremark
        simp only [Option.some.injEq, Prod.mk.injEq] at h
        obtain ⟨rfl, rfl⟩ := h
        refine ⟨?_, ?_, front, behind, _, _, rfl, hfront, ?_, strips_trim _ _, strips_trim _ _, ?_⟩
        · rwa [Ne, String.ofList_eq_empty_iff]
        · rw [String.toList_ofList]
          intro hhead
          obtain ⟨rest, hrest⟩ := List.head?_eq_some_iff.mp hhead
          exact hremark rest hrest
        · rwa [String.toList_ofList]
        · rw [String.toList_ofList]
          exact strips_trim _ _
    · rw [definition?_of_not_mem hmem] at h
      cases h
  · rintro ⟨hnamed, hremark, front, behind, shown, unmarked, rfl, hfront, hname, hshown, hunmarked,
      hvalue⟩
    rw [definition?_of_cut hfront, hname.trim_eq, hshown.trim_eq, unquote, hunmarked.trim_eq,
      hvalue.trim_eq, String.ofList_toList]
    split
    · rename_i hnil
      exact absurd (String.toList_eq_nil_iff.mp hnil) hnamed
    · rename_i rest hrest
      exact absurd (by rw [hrest]; rfl) hremark
    · rw [String.ofList_toList]

/-- A name that is defined is one that a variable can have, unless it holds a zero. -/
theorem Defines.equals_not_mem {line : List Char} {name value : String}
    (h : Defines line name value) : '=' ∉ name.toList := by
  obtain ⟨front, _, _, _, -, hfront, hname, -⟩ := h.spelled
  obtain ⟨_, _, hwhole, -, -⟩ := hname.between
  intro hmem
  apply hfront
  rw [hwhole]
  exact List.mem_append_left _ (List.mem_append_right _ hmem)

/-! ## 2. Several lines -/

/-- The value is the one that the first line to define the name gives it. -/
def FirstDefines (lines : List (List Char)) (name value : String) : Prop :=
  ∃ front line rest, lines = front ++ line :: rest ∧ Defines line name value ∧
    ∀ earlier ∈ front, ∀ v, ¬Defines earlier name v

theorem lookup_definitions_eq_none_iff {lines : List (List Char)} {name : String} :
    (lines.filterMap definition?).lookup name = none ↔ ∀ line ∈ lines, ∀ v, ¬Defines line name v := by
  rw [List.lookup_eq_none_iff]
  constructor
  · intro h line hline v hdefines
    have hmem : (name, v) ∈ lines.filterMap definition? :=
      List.mem_filterMap.mpr ⟨line, hline, definition?_eq_some_iff.mpr hdefines⟩
    simpa using h _ hmem
  · rintro h ⟨other, v⟩ hmem
    obtain ⟨line, hline, hdefines⟩ := List.mem_filterMap.mp hmem
    rw [bne_iff_ne]
    rintro rfl
    exact h line hline v (definition?_eq_some_iff.mp hdefines)

theorem lookup_definitions_eq_some_iff {lines : List (List Char)} {name value : String} :
    (lines.filterMap definition?).lookup name = some value ↔ FirstDefines lines name value := by
  constructor
  · intro h
    obtain ⟨earlier, later, hsplit, hearlier⟩ := List.lookup_eq_some_iff.mp h
    obtain ⟨front, behind, rfl, rfl, hbehind⟩ := List.filterMap_eq_append_iff.mp hsplit
    obtain ⟨skipped, line, rest, rfl, hskipped, hline, -⟩ := List.filterMap_eq_cons_iff.mp hbehind
    refine ⟨front ++ skipped, line, rest, (List.append_assoc ..).symm,
      definition?_eq_some_iff.mp hline, ?_⟩
    intro other hother v hdefines
    have hread := definition?_eq_some_iff.mpr hdefines
    rcases List.mem_append.mp hother with hother | hother
    · simpa using hearlier _ (List.mem_filterMap.mpr ⟨other, hother, hread⟩)
    · rw [hskipped other hother] at hread
      cases hread
  · rintro ⟨front, line, rest, rfl, hdefines, hearlier⟩
    have hread := definition?_eq_some_iff.mpr hdefines
    rw [List.filterMap_append, List.lookup_append, lookup_definitions_eq_none_iff.mpr hearlier,
      Option.none_or, List.filterMap_cons_some hread, List.lookup_cons_self]

end EnvFile

end ResumableStorage
