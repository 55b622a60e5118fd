/-
  ResumableStorage/Upload/Pool.lean
  =================================
  **A pool of part-sized buffers** — buffers of one capacity are lent to writers and
  come back zeroed; the last one returned is the first one lent again.  A buffer of
  another size, or one beyond the number that may stay idle, is dropped.

  A buffer is known by its number, and the pool keeps the contents of every buffer it
  has met, so that lending the same buffer twice would show.
-/
import ResumableStorage.Bytes
import ResumableStorage.Machine

namespace ResumableStorage

abbrev BufferId := Nat

structure Pool where
  capacity : Nat
  capacity_pos : 0 < capacity
  /-- How many buffers may stay idle; any number when absent. -/
  maxIdle : Option Int
  /-- Idle buffers, the next one to be lent first. -/
  idle : List BufferId
  contents : Array Bytes

inductive PoolError where
  | capacityNotPositive
  /-- No buffer of the capacity can be made. -/
  | unmade (e : BufferError)
deriving DecidableEq, Repr

def PoolError.message : PoolError → String
  | capacityNotPositive => "capacity must be positive"
  | unmade e => e.message

namespace Pool

/-- A pool makes one buffer at once, whose zeros later blank out the buffers that come back. -/
def make? (m : Machine) (capacity : Int) (maxIdle : Option Int) : Except PoolError Pool :=
  if h : capacity ≤ 0 then .error .capacityNotPositive
  else match m.checkBuffer capacity.toNat with
    | .error e => .error (.unmade e)
    | .ok () => .ok ⟨capacity.toNat, by omega, maxIdle, [], #[]⟩

def content (p : Pool) (id : BufferId) : Bytes :=
  p.contents[id]?.getD ByteArray.empty

def adopt (p : Pool) (data : Bytes) : BufferId × Pool :=
  (p.contents.size, { p with contents := p.contents.push data })

def acquire (p : Pool) : BufferId × Pool :=
  match p.idle with
  | id :: rest => (id, { p with idle := rest })
  | [] => p.adopt (Bytes.zeros p.capacity)

def hasRoom (p : Pool) : Bool :=
  match p.maxIdle with
  | none => true
  | some n => p.idle.length < n

def release (p : Pool) (id : BufferId) : Pool :=
  if (p.content id).size ≠ p.capacity then p
  else
    let p' := { p with contents := p.contents.setIfInBounds id (Bytes.zeros p.capacity) }
    if p.hasRoom then { p' with idle := id :: p.idle } else p'

def overwrite (p : Pool) (id : BufferId) (at_ : Nat) (data : Bytes) : Pool :=
  { p with contents := p.contents.setIfInBounds id ((p.content id).overwrite at_ data) }

theorem release_of_size_ne {p : Pool} {id : BufferId} (h : (p.content id).size ≠ p.capacity) :
    p.release id = p := by
  simp [release, h]

end Pool

end ResumableStorage
