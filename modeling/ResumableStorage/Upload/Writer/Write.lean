/-
  ResumableStorage/Upload/Writer/Write.lean
  =========================================
  **Writing** — the bytes of a write go into the staging slots; each time both are full
  the first is sent.  The size grows with every byte taken in, also with those of a
  write that fails later.
-/
import ResumableStorage.Upload.Writer.Repair

namespace ResumableStorage

namespace Writer

open Writing

variable {σ : Type} [Service σ]

/-- Takes in the bytes of `data` from `offset` on and tells how many are taken in then.  A round takes
in at least one byte, or it sends the full slot and the next one does: twice the bytes left, and one
more while `pending` is full, grows smaller in every round. -/
def feed (policy : Policy) (data : Bytes) (slots : Slots) (offset : Nat) : Writing σ Nat :=
  if offset < data.size then
    let filled := slots.fill policy.chunk data offset
    if filled.1.pending.isFull policy.chunk then do
      stage policy data slots offset
      sendPart filled.1.ready.held
      change fun w => { w with slots := some filled.1.shift }
      feed policy data filled.1.shift (offset + filled.2)
    else do
      stage policy data slots offset
      feed policy data filled.1 (offset + filled.2)
  else pure offset
termination_by 2 * (data.size - offset) + (slots.pending.isFull policy.chunk).toNat
decreasing_by
  · rename_i h _
    rw [Slots.pending_shift_not_full _ policy.chunk_pos]
    rcases Nat.eq_zero_or_pos (slots.fill policy.chunk data offset).2 with hz | hp
    · rw [Slots.pending_full_of_count_eq_zero hz h]
      simp only [Bool.toNat_true, Bool.toNat_false]
      omega
    · simp only [Bool.toNat_false]
      omega
  · rename_i h hfull
    rw [show (slots.fill policy.chunk data offset).1.pending.isFull policy.chunk = false from
      eq_false_of_ne_true hfull]
    have hp : 0 < (slots.fill policy.chunk data offset).2 := Nat.pos_of_ne_zero fun hz =>
      hfull (Slots.pending_stays_full data offset (Slots.pending_full_of_count_eq_zero hz h))
    simp only [Bool.toNat_false]
    omega

/-- Writes bytes and tells how many were taken in.  It is none when the upload has to be replaced
first and that fails. -/
def write (data : Bytes) : Writing σ Nat := do
  ensureActive
  if data.size = 0 then return 0
  if (← writer).repair matches .required _ then replaceSession
  let slots ← borrow
  feed (← writer).policy data slots 0

end Writer

end ResumableStorage
