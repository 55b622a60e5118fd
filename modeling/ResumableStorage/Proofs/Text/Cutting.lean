/-
  ResumableStorage/Proofs/Text/Cutting.lean
  =========================================
  **What cutting and trimming leave** — a text cut at a character, trimmed at both ends, or
  split into lines.  Each is told by how the text is put together: what is trimmed is what
  stands between blanks and neither begins nor ends with one, and a line is what stands
  before an end of line and holds none.
-/
import Mathlib
import ResumableStorage.Text.Affix
import ResumableStorage.Text.Blank
import ResumableStorage.Text.Line

namespace ResumableStorage.Text

variable {p : Char → Bool} {front middle behind cs : List Char}

/-! ## 1. Cutting -/

theorem cutAt_append {c : Char} (h : c ∉ front) (rest : List Char) :
    cutAt c (front ++ c :: rest) = (front, some rest) := by
  have hne : ∀ d ∈ front, (d != c) = true := fun d hd => bne_iff_ne.mpr fun heq => h (heq ▸ hd)
  have hdrop : (front ++ c :: rest).dropWhile (· != c) = c :: rest := by
    rw [List.dropWhile_append_of_pos hne, List.dropWhile_cons_of_neg (by simp)]
  have htake : (front ++ c :: rest).takeWhile (· != c) = front := by
    rw [List.takeWhile_append_of_pos hne, List.takeWhile_cons_of_neg (by simp), List.append_nil]
  simp only [cutAt, hdrop, htake]

theorem cutAt_of_not_mem {c : Char} (h : c ∉ cs) : cutAt c cs = (cs, none) := by
  have hdrop : cs.dropWhile (· != c) = [] :=
    List.dropWhile_eq_nil_iff.mpr fun d hd => bne_iff_ne.mpr fun heq => h (heq ▸ hd)
  simp only [cutAt, hdrop]

/-! ## 2. Trimming -/

/-- Neither the first character nor the last one is of the kind that is trimmed. -/
structure Bare (p : Char → Bool) (cs : List Char) : Prop where
  first : ∀ c, cs.head? = some c → p c = false
  last : ∀ c, cs.getLast? = some c → p c = false

instance (p : Char → Bool) (cs : List Char) : Decidable (Bare p cs) :=
  decidable_of_iff (cs.head?.all (fun c => !p c) = true ∧ cs.getLast?.all (fun c => !p c) = true) (by
    simp only [Option.all_eq_true, Bool.not_eq_true']
    exact ⟨fun ⟨first, last⟩ => ⟨first, last⟩, fun h => ⟨h.first, h.last⟩⟩)

theorem Bare.of_forall (h : ∀ c ∈ cs, p c = false) : Bare p cs :=
  ⟨fun c hc => h c (List.mem_of_head? hc), fun c hc => h c (List.mem_of_getLast? hc)⟩

/-- What stays when characters of a kind are taken off both ends of a text. -/
structure Strips (p : Char → Bool) (cs inner : List Char) : Prop where
  bare : Bare p inner
  between : ∃ front behind, cs = front ++ inner ++ behind ∧ (∀ c ∈ front, p c = true) ∧
    ∀ c ∈ behind, p c = true

theorem dropWhile_of_head (h : ∀ c, cs.head? = some c → p c = false) : cs.dropWhile p = cs := by
  rcases cs with _ | ⟨c, rest⟩
  · rfl
  · exact List.dropWhile_cons_of_neg (by simp [h c rfl])

theorem trim_append_left (h : ∀ c ∈ front, p c = true) (cs : List Char) :
    trim p (front ++ cs) = trim p cs := by
  rw [trim, List.dropWhile_append_of_pos h, trim]

theorem trimEnd_append_right (h : ∀ c ∈ behind, p c = true) (cs : List Char) :
    trimEnd p (cs ++ behind) = trimEnd p cs := by
  have hreverse : ∀ c ∈ behind.reverse, p c = true := fun c hc => h c (List.mem_reverse.mp hc)
  rw [trimEnd, List.reverse_append, List.dropWhile_append_of_pos hreverse, trimEnd]

theorem trimEnd_append_cons {c : Char} (h : p c = false) (front rest : List Char) :
    trimEnd p (front ++ c :: rest) = front ++ c :: trimEnd p rest := by
  rw [trimEnd, trimEnd, List.reverse_append, List.reverse_cons, List.append_assoc,
    List.dropWhile_append]
  have hstays : ([c] ++ front.reverse).dropWhile p = [c] ++ front.reverse :=
    List.dropWhile_cons_of_neg (by simp [h])
  split
  · rename_i hempty
    rw [hstays, List.isEmpty_iff.mp hempty]
    simp
  · simp

theorem trim_append_right (h : ∀ c ∈ behind, p c = true) (cs : List Char) :
    trim p (cs ++ behind) = trim p cs := by
  rcases hdrop : cs.dropWhile p with _ | ⟨c, rest⟩
  · have hall : ∀ c ∈ cs, p c = true := List.dropWhile_eq_nil_iff.mp hdrop
    rw [trim, trim, hdrop, List.dropWhile_append_of_pos hall,
      List.dropWhile_eq_nil_iff.mpr h]
  · have hne : (cs.dropWhile p).isEmpty = false := by rw [hdrop]; rfl
    rw [trim, List.dropWhile_append, if_neg (by simp [hne]), trimEnd_append_right h, trim]

theorem trim_trimEnd (p : Char → Bool) (cs : List Char) : trim p (trimEnd p cs) = trim p cs := by
  have hbehind : ∀ c ∈ (cs.reverse.takeWhile p).reverse, p c = true :=
    fun c hc => List.mem_takeWhile_imp (List.mem_reverse.mp hc)
  have hwhole : trimEnd p cs ++ (cs.reverse.takeWhile p).reverse = cs := by
    rw [trimEnd, ← List.reverse_append, List.takeWhile_append_dropWhile, List.reverse_reverse]
  conv_rhs => rw [← hwhole, trim_append_right hbehind]

theorem Bare.trim (h : Bare p cs) : trim p cs = cs := by
  have hreverse : ∀ c, cs.reverse.head? = some c → p c = false := by
    intro c hc
    rw [List.head?_reverse] at hc
    exact h.last c hc
  rw [Text.trim, dropWhile_of_head h.first, trimEnd, dropWhile_of_head hreverse, List.reverse_reverse]

theorem trim_of_forall (h : ∀ c ∈ cs, p c = false) : trim p cs = cs :=
  (Bare.of_forall h).trim

/-- Trimming leaves what stands between the ends. -/
theorem Strips.trim_eq (h : Strips p cs middle) : trim p cs = middle := by
  obtain ⟨front, behind, rfl, hfront, hbehind⟩ := h.between
  rw [trim_append_right hbehind, trim_append_left hfront, h.bare.trim]

theorem strips_trim (p : Char → Bool) (cs : List Char) : Strips p cs (trim p cs) := by
  have hfront : ∀ c ∈ cs.takeWhile p, p c = true := fun c => List.mem_takeWhile_imp
  have hbehind : ∀ c ∈ ((cs.dropWhile p).reverse.takeWhile p).reverse, p c = true :=
    fun c hc => List.mem_takeWhile_imp (List.mem_reverse.mp hc)
  have hmiddle : trim p cs ++ ((cs.dropWhile p).reverse.takeWhile p).reverse = cs.dropWhile p := by
    rw [trim, trimEnd, ← List.reverse_append, List.takeWhile_append_dropWhile, List.reverse_reverse]
  have hwhole : cs.takeWhile p ++ trim p cs ++ ((cs.dropWhile p).reverse.takeWhile p).reverse = cs := by
    rw [List.append_assoc, hmiddle, List.takeWhile_append_dropWhile]
  refine ⟨⟨?_, ?_⟩, _, _, hwhole.symm, hfront, hbehind⟩
  · intro c hc
    -- the first character that stays is the one at which the front ended
    have hhead := List.head?_dropWhile_not p cs
    rw [← hmiddle, List.head?_append, hc] at hhead
    exact hhead
  · intro c hc
    have hlast := List.head?_dropWhile_not p (cs.dropWhile p).reverse
    rw [trim, trimEnd, List.getLast?_reverse] at hc
    rw [hc] at hlast
    exact hlast

theorem strips_iff : Strips p cs middle ↔ trim p cs = middle :=
  ⟨Strips.trim_eq, fun h => h ▸ strips_trim p cs⟩

/-! ## 3. Lines -/

/-- An end of line: one character, or a carriage return with a line feed. -/
def IsLineEnd (cs : List Char) : Prop :=
  cs = ['\r', '\n'] ∨ ∃ c, isLineEnd c = true ∧ cs = [c]

instance (cs : List Char) : Decidable (IsLineEnd cs) :=
  decidable_of_iff (cs = ['\r', '\n'] ∨ cs.length = 1 ∧ cs.all isLineEnd = true) (by
    rw [IsLineEnd]
    apply or_congr_right
    constructor
    · rintro ⟨hlength, hall⟩
      obtain ⟨c, rfl⟩ := List.length_eq_one_iff.mp hlength
      exact ⟨c, by simpa using hall, rfl⟩
    · rintro ⟨c, hc, rfl⟩
      exact ⟨rfl, by simpa using hc⟩)

/-- The characters stand on one line. -/
def OnOneLine (cs : List Char) : Prop := ∀ c ∈ cs, isLineEnd c = false

instance (cs : List Char) : Decidable (OnOneLine cs) :=
  decidable_of_iff (cs.all (fun c => !isLineEnd c) = true) (by simp [OnOneLine])

theorem linesFrom_nil (line : List Char) :
    linesFrom line [] = if line.isEmpty then [] else [line.reverse] := by
  rw [linesFrom]

theorem linesFrom_crlf (line rest : List Char) :
    linesFrom line ('\r' :: '\n' :: rest) = line.reverse :: linesFrom [] rest := by
  rw [linesFrom]

/-- Characters that end no line go on with the open one. -/
theorem linesFrom_append (line : List Char) (h : OnOneLine cs) (rest : List Char) :
    linesFrom line (cs ++ rest) = linesFrom (cs.reverse ++ line) rest := by
  induction cs generalizing line with
  | nil => rfl
  | cons c cs ih =>
    have hc := h c List.mem_cons_self
    have hreturn : c ≠ '\r' := by
      rintro rfl
      exact absurd hc (by decide)
    rw [List.cons_append, linesFrom, hc, if_neg (by simp), ih _ fun d hd => h d (List.mem_cons_of_mem _ hd),
      List.reverse_cons, List.append_assoc, List.singleton_append]
    exact fun _ hreturned _ => hreturn hreturned

theorem linesFrom_feed (line rest : List Char) :
    linesFrom line ('\n' :: rest) = line.reverse :: linesFrom [] rest := by
  rw [linesFrom]
  · exact if_pos (by decide)
  · exact fun _ hreturned _ => absurd hreturned (by decide)

/-- An end of line closes the open line.  A carriage return goes together with a line feed that
comes next, so an empty line may get lost between them; no other line does. -/
theorem filterMap_linesFrom_end {β : Type} {f : List Char → Option β} (hf : f [] = none)
    {ending : List Char} (h : IsLineEnd ending) (line rest : List Char) :
    (linesFrom line (ending ++ rest)).filterMap f =
      (f line.reverse).toList ++ (linesFrom [] rest).filterMap f := by
  have hcons : ∀ lines : List (List Char), (line.reverse :: lines).filterMap f =
      (f line.reverse).toList ++ lines.filterMap f := by
    intro lines
    cases hline : f line.reverse <;> simp [hline]
  rcases h with rfl | ⟨c, hc, rfl⟩
  · rw [List.cons_append, List.singleton_append, linesFrom_crlf, hcons]
  · rw [List.singleton_append]
    by_cases hjoined : c = '\r' ∧ ∃ rest', rest = '\n' :: rest'
    · obtain ⟨rfl, rest', rfl⟩ := hjoined
      rw [linesFrom_crlf, linesFrom_feed, hcons]
      simp [hf]
    · rw [linesFrom, if_pos hc, hcons]
      exact fun rest' hreturned hrest => hjoined ⟨hreturned, rest', hrest⟩

end ResumableStorage.Text
