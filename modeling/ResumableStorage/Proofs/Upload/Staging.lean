/-
  ResumableStorage/Proofs/Upload/Staging.lean
  ===========================================
  **What the staging slots hold** — the bytes of both slots in the order in which they go
  out.  Filling appends to them, sending takes from their front, and no slot ever holds
  more than a chunk.
-/
import Mathlib
import ResumableStorage.Upload.Staging

namespace ResumableStorage

namespace Slots

def staged (s : Slots) : Bytes := s.ready.held ++ s.pending.held

/-- No slot holds more than its capacity, and `pending` holds nothing unless `ready` is full. -/
structure Fits (s : Slots) (capacity : Nat) : Prop where
  ready_le : s.ready.held.size ≤ capacity
  pending_le : s.pending.held.size ≤ capacity
  inOrder : s.pending.held.size = 0 ∨ s.ready.held.size = capacity

variable {s : Slots} {capacity : Nat}

theorem staged_size (s : Slots) : s.staged.size = s.ready.held.size + s.pending.held.size := by
  simp [staged]

theorem isEmpty_iff : s.isEmpty = true ↔ s.staged = ByteArray.empty := by
  rw [← ByteArray.size_eq_zero_iff, staged_size, isEmpty]
  simp only [Bool.and_eq_true, decide_eq_true_eq]
  omega

theorem Fits.of_empty {r p : Slot} (hr : r.held = ByteArray.empty) (hp : p.held = ByteArray.empty) :
    (Slots.mk r p).Fits capacity := by
  refine ⟨?_, ?_, ?_⟩ <;> simp [hr, hp]

/-! ## 1. Filling -/

theorem fill_ready_size (s : Slots) (capacity : Nat) (data : Bytes) (offset : Nat) :
    (s.fill capacity data offset).1.ready.held.size =
      s.ready.held.size + min (capacity - s.ready.held.size) (data.size - offset) := by
  simp only [fill, Slot.fill, ByteArray.size_append, ByteArray.size_extract]
  omega

theorem fill_pending_size (s : Slots) (capacity : Nat) (data : Bytes) (offset : Nat) :
    (s.fill capacity data offset).1.pending.held.size =
      s.pending.held.size + min (capacity - s.pending.held.size)
        (data.size - (offset + min (capacity - s.ready.held.size) (data.size - offset))) := by
  simp only [fill, Slot.fill, ByteArray.size_append, ByteArray.size_extract]
  omega

theorem Fits.fill (h : s.Fits capacity) (data : Bytes) (offset : Nat) :
    (s.fill capacity data offset).1.Fits capacity := by
  have hready := fill_ready_size s capacity data offset
  have hpending := fill_pending_size s capacity data offset
  obtain ⟨h₁, h₂, h₃⟩ := h
  exact ⟨by omega, by omega, by omega⟩

theorem fill_count_le (s : Slots) (capacity : Nat) {data : Bytes} {offset : Nat}
    (hle : offset ≤ data.size) : offset + (s.fill capacity data offset).2 ≤ data.size := by
  rw [fill_count]
  omega

/-- A fill that leaves room has taken everything. -/
theorem fill_count_of_room {data : Bytes} {offset : Nat} (hle : offset ≤ data.size)
    (hroom : (s.fill capacity data offset).1.pending.isFull capacity = false) :
    offset + (s.fill capacity data offset).2 = data.size := by
  simp only [Slot.isFull, decide_eq_false_iff_not, fill_pending_size] at hroom
  rw [fill_count]
  omega

/-- The bytes taken in stand behind those that were staged. -/
theorem Fits.staged_fill (h : s.Fits capacity) (data : Bytes) (offset : Nat) :
    (s.fill capacity data offset).1.staged =
      s.staged ++ data.extract offset (offset + (s.fill capacity data offset).2) := by
  rw [fill_count]
  simp only [staged, Slots.fill, Slot.fill]
  generalize hn : min (capacity - s.ready.held.size) (data.size - offset) = n
  generalize hm : min (capacity - s.pending.held.size) (data.size - (offset + n)) = m
  rcases h.inOrder with hempty | hfull
  · rw [ByteArray.size_eq_zero_iff] at hempty
    rw [hempty, ByteArray.empty_append, ByteArray.append_empty, ByteArray.append_assoc,
      ByteArray.extract_append_extract]
    congr 2 <;> omega
  · have hn0 : n = 0 := by omega
    subst hn0
    simp only [Nat.add_zero, Nat.zero_add, ByteArray.extract_same, ByteArray.append_empty,
      ByteArray.append_assoc]

theorem fill_ready_of_full (hfull : s.ready.held.size = capacity) (data : Bytes) (offset : Nat) :
    (s.fill capacity data offset).1.ready.held.size = capacity := by
  have hready := fill_ready_size s capacity data offset
  omega

/-! ## 2. Sending -/

theorem Fits.pending_eq (h : s.Fits capacity) (hfull : s.pending.isFull capacity = true) :
    s.pending.held.size = capacity := by
  have hle := h.pending_le
  simp only [Slot.isFull, decide_eq_true_eq] at hfull
  omega

theorem Fits.ready_eq (h : s.Fits capacity) (hfull : s.pending.isFull capacity = true) :
    s.ready.held.size = capacity := by
  have hpending := h.pending_eq hfull
  have hle := h.ready_le
  rcases h.inOrder with hempty | hready
  · omega
  · exact hready

/-- After a shift what was in `pending` is all that is staged. -/
@[simp] theorem staged_shift (s : Slots) : s.shift.staged = s.pending.held := by
  simp [shift, staged, Slot.cleared]

@[simp] theorem staged_clear (s : Slots) : s.clear.staged = ByteArray.empty := by
  simp [clear, staged, Slot.cleared]

theorem Fits.shift (h : s.Fits capacity) : s.shift.Fits capacity :=
  ⟨h.pending_le, by simp [Slots.shift, Slot.cleared], .inl (by simp [Slots.shift, Slot.cleared])⟩

theorem fits_clear (s : Slots) (capacity : Nat) : s.clear.Fits capacity :=
  .of_empty rfl rfl

theorem Fits.afterPart (h : s.Fits capacity) (merged : Bool) :
    (s.afterPart merged).Fits capacity := by
  cases merged
  · exact h.shift
  · exact fits_clear s capacity

end Slots

end ResumableStorage
