/-
  ResumableStorage/Text/Affix.lean
  ================================
  **Beginnings and ends of a text** — the tests and cuts that keys and paths need,
  stated on lists of characters so that they unfold.
-/

namespace ResumableStorage.Text

def startsWith (s front : String) : Bool :=
  front.toList.isPrefixOf s.toList

def endsWithChar (s : String) (c : Char) : Bool :=
  s.toList.getLast? == some c

def dropFront (s : String) (n : Nat) : String :=
  String.ofList (s.toList.drop n)

def stripFront (s : String) (c : Char) : String :=
  String.ofList (s.toList.dropWhile (· == c))

def stripEnd (s : String) (c : Char) : String :=
  String.ofList (s.toList.reverse.dropWhile (· == c)).reverse

def strip (s : String) (c : Char) : String :=
  stripEnd (stripFront s c) c

/-- A text cut at the first occurrence of `c`; the second part is absent without one. -/
def cutAt (c : Char) (cs : List Char) : List Char × Option (List Char) :=
  match cs.dropWhile (· != c) with
  | [] => (cs, none)
  | _ :: rest => (cs.takeWhile (· != c), some rest)

/-- A text begins with `front` exactly when it is `front` followed by a text. -/
theorem startsWith_iff {s front : String} :
    startsWith s front = true ↔ ∃ rest, s = front ++ rest := by
  rw [startsWith, List.isPrefixOf_iff_prefix]
  constructor
  · rintro ⟨cs, h⟩
    exact ⟨String.ofList cs, by rw [← String.toList_inj]; simp [h]⟩
  · rintro ⟨rest, rfl⟩
    exact ⟨rest.toList, by simp⟩

theorem startsWith_self (s : String) : startsWith s s = true :=
  startsWith_iff.2 ⟨"", by simp⟩

theorem startsWith_trans {s t u : String} (h : startsWith s t = true)
    (h' : startsWith t u = true) : startsWith s u = true := by
  obtain ⟨rest, rfl⟩ := startsWith_iff.1 h
  obtain ⟨rest', rfl⟩ := startsWith_iff.1 h'
  exact startsWith_iff.2 ⟨rest' ++ rest, String.append_assoc ..⟩

theorem length_le_of_startsWith {s front : String} (h : startsWith s front = true) :
    front.length ≤ s.length := by
  obtain ⟨rest, rfl⟩ := startsWith_iff.1 h
  rw [String.length_append]
  exact Nat.le_add_right _ _

theorem startsWith_empty (s : String) : startsWith s "" = true :=
  startsWith_iff.2 ⟨s, by simp⟩

end ResumableStorage.Text
