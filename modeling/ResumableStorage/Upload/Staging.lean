/-
  ResumableStorage/Upload/Staging.lean
  ====================================
  **The two staging slots of a writer** — `ready` holds the next part and `pending` the
  one after.  Bytes go to `ready` first.  A part is cut only when `pending` is full, so
  that the last part can take a short remainder with it: every part but the last has at
  least the size of a chunk.

  A slot is a buffer lent by the pool and the bytes it holds, which are put into the
  buffer as well, from its front on.
-/
import ResumableStorage.Upload.Pool

namespace ResumableStorage

/-- A lent buffer and the bytes that were put into it. -/
structure Slot where
  buffer : BufferId
  held : Bytes

namespace Slot

/-- Puts in as many bytes of `data` from `offset` on as fit, and tells how many. -/
def fill (s : Slot) (capacity : Nat) (data : Bytes) (offset : Nat) : Slot × Nat :=
  let count := min (capacity - s.held.size) (data.size - offset)
  ({ s with held := s.held ++ data.extract offset (offset + count) }, count)

def isFull (s : Slot) (capacity : Nat) : Bool :=
  capacity ≤ s.held.size

def cleared (s : Slot) : Slot :=
  { s with held := ByteArray.empty }

end Slot

structure Slots where
  ready : Slot
  pending : Slot

namespace Slots

def isEmpty (s : Slots) : Bool :=
  s.ready.held.size = 0 && s.pending.held.size = 0

/-- Fills `ready`, then `pending`, and tells how many bytes were taken. -/
def fill (s : Slots) (capacity : Nat) (data : Bytes) (offset : Nat) : Slots × Nat :=
  let (ready, n) := s.ready.fill capacity data offset
  let (pending, m) := s.pending.fill capacity data (offset + n)
  (⟨ready, pending⟩, n + m)

def nextPart (s : Slots) (capacity : Nat) : Bytes × Bool :=
  if s.pending.isFull capacity then (s.ready.held, false)
  else (s.ready.held ++ s.pending.held, true)

/-- After `ready` was sent alone: `pending` moves up and the sent buffer becomes `pending`. -/
def shift (s : Slots) : Slots :=
  ⟨s.pending, s.ready.cleared⟩

def clear (s : Slots) : Slots :=
  ⟨s.ready.cleared, s.pending.cleared⟩

def afterPart (s : Slots) (merged : Bool) : Slots :=
  if merged then s.clear else s.shift

end Slots

namespace Pool

/-- What a slot takes in of `data` is put into its buffer, behind the bytes that it holds. -/
def put (p : Pool) (s : Slot) (capacity : Nat) (data : Bytes) (offset : Nat) : Pool :=
  p.overwrite s.buffer s.held.size
    (data.extract offset (offset + (s.fill capacity data offset).2))

def putBoth (p : Pool) (s : Slots) (capacity : Nat) (data : Bytes) (offset : Nat) : Pool :=
  (p.put s.ready capacity data offset).put s.pending capacity data
    (offset + (s.ready.fill capacity data offset).2)

end Pool

namespace Slots

/-! ## 1. Progress

A fill that takes nothing although something is left has met two full slots, and `pending` is
empty after a shift: this is what ends the loop of a write. -/

theorem fill_count (s : Slots) (capacity : Nat) (data : Bytes) (offset : Nat) :
    (s.fill capacity data offset).2 =
      min (capacity - s.ready.held.size) (data.size - offset) +
        min (capacity - s.pending.held.size)
          (data.size - (offset + min (capacity - s.ready.held.size) (data.size - offset))) := rfl

theorem pending_full_of_count_eq_zero {s : Slots} {capacity : Nat} {data : Bytes} {offset : Nat}
    (h : (s.fill capacity data offset).2 = 0) (hlt : offset < data.size) :
    s.pending.isFull capacity = true := by
  rw [fill_count] at h
  simp only [Slot.isFull, decide_eq_true_eq]
  omega

theorem pending_stays_full {s : Slots} {capacity : Nat} (data : Bytes) (offset : Nat)
    (h : s.pending.isFull capacity = true) :
    (s.fill capacity data offset).1.pending.isFull capacity = true := by
  simp only [Slot.isFull, decide_eq_true_eq] at h ⊢
  simp only [fill, Slot.fill, ByteArray.size_append]
  omega

theorem pending_shift_not_full (s : Slots) {capacity : Nat} (h : 0 < capacity) :
    s.shift.pending.isFull capacity = false := by
  have hz : (ByteArray.empty).size = 0 := rfl
  simp only [shift, Slot.cleared, Slot.isFull, hz, decide_eq_false_iff_not]
  omega

end Slots

end ResumableStorage
