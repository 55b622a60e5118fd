/-
  ResumableStorage/Upload/Policy.lean
  ===================================
  **Part sizing** — the least size that the store accepts for a part that is not the
  last, and the size at which a writer cuts its stream.  A policy carries the proofs
  that the first is positive and not above the second.
-/

namespace ResumableStorage

/-- The store's floor for a part and the size of a full part. -/
structure Policy where
  floor : Nat
  chunk : Nat
  floor_pos : 0 < floor
  floor_le_chunk : floor ≤ chunk

inductive PolicyError where
  | floorNotPositive
  | chunkBelowFloor (floor chunk : Int)
deriving DecidableEq, Repr

def PolicyError.message : PolicyError → String
  | floorNotPositive => "min_chunk_size must be positive"
  | chunkBelowFloor floor chunk =>
    "chunk_size (" ++ toString chunk ++ ") must be larger than or equal to min_chunk_size (" ++
      toString floor ++ ")"

namespace Policy

theorem chunk_pos (p : Policy) : 0 < p.chunk :=
  Nat.lt_of_lt_of_le p.floor_pos p.floor_le_chunk

def make? (floor chunk : Int) : Except PolicyError Policy :=
  if h : floor ≤ 0 then .error .floorNotPositive
  else if h' : chunk < floor then .error (.chunkBelowFloor floor chunk)
  else .ok ⟨floor.toNat, chunk.toNat, by omega, by omega⟩

end Policy

end ResumableStorage
