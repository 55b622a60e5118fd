/-
  ResumableStorage/Proofs/Value/Limits.lean
  =========================================
  **Which values are written** — all but those with an integer of more digits, or with more
  levels of values within values, than the machine allows.  So each value is written on a
  machine that has no such bounds, and the error names the bound that was passed.
-/
import ResumableStorage.Value.Json

namespace ResumableStorage

namespace Value

/-! ## 1. Measures -/

mutual

/-- The most digits that an integer within a value has. -/
def mostDigits : Value → Nat
  | null | bool _ | float _ | text _ | bytes _ | time _ | stream .. | handle => 0
  | int n => Text.Numeral.digitCount n
  | list items => mostDigitsOfItems items
  | object fields => mostDigitsOfFields fields

def mostDigitsOfItems : List Value → Nat
  | [] => 0
  | v :: rest => max (mostDigits v) (mostDigitsOfItems rest)

def mostDigitsOfFields : List (String × Value) → Nat
  | [] => 0
  | (_, v) :: rest => max (mostDigits v) (mostDigitsOfFields rest)

end

mutual

/-- The levels of a value: a list or an object is one above what it holds, and a value that has no
JSON form is one above its text. -/
def levels : Value → Nat
  | null | bool _ | int _ | float _ | text _ => 0
  | bytes _ | time _ | stream .. | handle => 1
  | list items => levelsOfItems items + 1
  | object fields => levelsOfFields fields + 1

def levelsOfItems : List Value → Nat
  | [] => 0
  | v :: rest => max (levels v) (levelsOfItems rest)

def levelsOfFields : List (String × Value) → Nat
  | [] => 0
  | (_, v) :: rest => max (levels v) (levelsOfFields rest)

end

/-- The machine allows the digits and the levels of a value. -/
structure Fits (m : Machine) (v : Value) : Prop where
  digits : ∀ limit, m.digits = some limit → v.mostDigits ≤ limit
  depth : ∀ limit, m.depth = some limit → v.levels ≤ limit

theorem fits_unlimited (v : Value) : v.Fits .unlimited := by
  constructor <;> exact nofun

/-! ## 2. The check -/

/-- What the outcome of a check tells of values of these measures that stand within `level` others. -/
def Tells (m : Machine) (level digits levels : Nat) : Except WriteError Unit → Prop
  | .ok () => (∀ limit, m.digits = some limit → digits ≤ limit) ∧
      ∀ limit, m.depth = some limit → levels = 0 ∨ level + levels ≤ limit
  | .error (.tooManyDigits limit) => m.digits = some limit ∧ limit < digits
  | .error .tooDeep => ∃ limit, m.depth = some limit ∧ levels ≠ 0 ∧ limit < level + levels

variable {m : Machine} {level d₁ d₂ n₁ n₂ : Nat} {x y : Except WriteError Unit}

theorem tells_nothing (m : Machine) (level : Nat) : Tells m level 0 0 (.ok ()) :=
  ⟨fun _ _ => Nat.zero_le _, fun _ _ => .inl rfl⟩

theorem tells_checkDigits (m : Machine) (level : Nat) (n : Int) :
    Tells m level (Text.Numeral.digitCount n) 0 (m.checkDigits n) := by
  unfold Machine.checkDigits
  rcases hdigits : m.digits with _ | limit
  · exact ⟨fun limit h => by simp [hdigits] at h, fun _ _ => .inl rfl⟩
  · dsimp only
    split
    · exact ⟨hdigits, ‹_›⟩
    · refine ⟨?_, fun _ _ => .inl rfl⟩
      intro limit' h
      cases hdigits.symm.trans h
      omega

/-- Two values, one behind the other. -/
theorem Tells.seq (hx : Tells m level d₁ n₁ x) (hy : Tells m level d₂ n₂ y) :
    Tells m level (max d₁ d₂) (max n₁ n₂) (x >>= fun _ => y) := by
  rcases x with (limit | _) | ⟨⟩
  · exact ⟨hx.1, Nat.lt_of_lt_of_le hx.2 (Nat.le_max_left d₁ d₂)⟩
  · obtain ⟨limit, hdepth, hne, hlt⟩ := hx
    exact ⟨limit, hdepth, by omega, by omega⟩
  · rcases y with (limit | _) | ⟨⟩
    · exact ⟨hy.1, Nat.lt_of_lt_of_le hy.2 (Nat.le_max_right d₁ d₂)⟩
    · obtain ⟨limit, hdepth, hne, hlt⟩ := hy
      exact ⟨limit, hdepth, by omega, by omega⟩
    · refine ⟨fun limit h => Nat.max_le.mpr ⟨hx.1 limit h, hy.1 limit h⟩, ?_⟩
      intro limit h
      have hfirst := hx.2 limit h
      have hsecond := hy.2 limit h
      omega

/-- Values that stand one level deeper. -/
theorem Tells.within (h : Tells m (level + 1) d₁ n₁ x) :
    Tells m level d₁ (n₁ + 1) (m.checkDepth (level + 1) >>= fun _ => x) := by
  unfold Machine.checkDepth
  rcases hdepth : m.depth with _ | limit
  · rcases x with (limit | _) | ⟨⟩
    · exact h
    · obtain ⟨limit, hlimit, -⟩ := h
      cases hdepth.symm.trans hlimit
    · exact ⟨h.1, fun limit hlimit => by cases hdepth.symm.trans hlimit⟩
  · dsimp only
    split
    · exact ⟨limit, hdepth, by omega, by omega⟩
    · rcases x with (limit | _) | ⟨⟩
      · exact h
      · obtain ⟨limit, hlimit, -, hlt⟩ := h
        exact ⟨limit, hlimit, by omega, by omega⟩
      · refine ⟨h.1, fun limit' hlimit => .inr ?_⟩
        have hrest := h.2 limit' hlimit
        cases hdepth.symm.trans hlimit
        omega

/-- A value that is one level above its text. -/
theorem tells_checkDepth (m : Machine) (level : Nat) :
    Tells m level 0 1 (m.checkDepth (level + 1)) := by
  have h := (tells_nothing m (level + 1)).within
  rcases hcheck : m.checkDepth (level + 1) with e | ⟨⟩ <;> rw [hcheck] at h <;> exact h

mutual

theorem check_tells (m : Machine) (level : Nat) :
    ∀ v : Value, Tells m level v.mostDigits v.levels (v.check m level)
  | null | bool _ | float _ | text _ => tells_nothing m level
  | int n => tells_checkDigits m level n
  | bytes _ | time _ | stream .. | handle => tells_checkDepth m level
  | list items => (checkItems_tells m (level + 1) items).within
  | object fields => (checkFields_tells m (level + 1) fields).within

theorem checkItems_tells (m : Machine) (level : Nat) : ∀ items : List Value,
    Tells m level (mostDigitsOfItems items) (levelsOfItems items) (checkItems m level items)
  | [] => tells_nothing m level
  | v :: rest => (check_tells m level v).seq (checkItems_tells m level rest)

theorem checkFields_tells (m : Machine) (level : Nat) : ∀ fields : List (String × Value),
    Tells m level (mostDigitsOfFields fields) (levelsOfFields fields) (checkFields m level fields)
  | [] => tells_nothing m level
  | (_, v) :: rest => (check_tells m level v).seq (checkFields_tells m level rest)

end

/-! ## 3. The written text -/

variable {v : Value}

theorem dump_of_fits (h : v.Fits m) : v.dump m = .ok v.toJson := by
  have htells := check_tells m 0 v
  unfold dump
  rcases hcheck : v.check m 0 with (limit | _) | ⟨⟩ <;> rw [hcheck] at htells
  · obtain ⟨hdigits, hlt⟩ := htells
    exact absurd (h.digits limit hdigits) (Nat.not_le.mpr hlt)
  · obtain ⟨limit, hdepth, -, hlt⟩ := htells
    have hle := h.depth limit hdepth
    omega
  · rfl

/-- A value that is not written passes one of the bounds, which the error names. -/
theorem dump_of_not_fits (h : ¬ v.Fits m) :
    (∃ limit, v.dump m = .error (.tooManyDigits limit) ∧ m.digits = some limit ∧
        limit < v.mostDigits) ∨
      ∃ limit, v.dump m = .error .tooDeep ∧ m.depth = some limit ∧ limit < v.levels := by
  have htells := check_tells m 0 v
  unfold dump
  rcases hcheck : v.check m 0 with (limit | _) | ⟨⟩ <;> rw [hcheck] at htells
  · exact .inl ⟨limit, rfl, htells⟩
  · obtain ⟨limit, hdepth, -, hlt⟩ := htells
    exact .inr ⟨limit, rfl, hdepth, by omega⟩
  · refine absurd ⟨htells.1, ?_⟩ h
    intro limit hlimit
    have hlevels := htells.2 limit hlimit
    omega

end Value

end ResumableStorage
