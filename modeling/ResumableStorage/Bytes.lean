/-
  ResumableStorage/Bytes.lean
  ===========================
  **Byte strings** — object contents, part bodies and buffers.  A byte string is a
  packed array, so that parts of many megabytes can be handled; its laws are the core
  library's laws on `append` and `extract`.
-/
import ResumableStorage.Text.Quoted

namespace ResumableStorage

abbrev Bytes := ByteArray

namespace Bytes

def pad (front : Bytes) (b : UInt8) : Nat → Bytes
  | 0 => front
  | n + 1 => pad (front.push b) b n

def replicate (n : Nat) (b : UInt8) : Bytes :=
  pad ByteArray.empty b n

def zeros (n : Nat) : Bytes :=
  replicate n 0

/-- `content` with `data` written over it from position `at_` on; the content grows when the
data runs past its end. -/
def overwrite (content : Bytes) (at_ : Nat) (data : Bytes) : Bytes :=
  content.extract 0 (min at_ content.size) ++ data ++
    content.extract (min (at_ + data.size) content.size) content.size

/-- The parts of an object joined in order. -/
def concat (parts : List Bytes) : Bytes :=
  parts.foldl (· ++ ·) ByteArray.empty

/-! ## 1. Checksum

The two running sums of the Adler checksum, modulo the largest prime below 2¹⁶. -/

/-- The checksum of the `n` bytes from position `i` on, continued from the sums `a` and `b`. -/
def adlerFrom (data : Bytes) : Nat → Nat → UInt32 → UInt32 → UInt32
  | 0, _, a, b => b <<< 16 ||| a
  | n + 1, i, a, b =>
    let a := (a + (if h : i < data.size then data[i].toUInt32 else 0)) % 65521
    adlerFrom data n (i + 1) a ((b + a) % 65521)

def adler (data : Bytes) : Nat :=
  (adlerFrom data data.size 0 1 0).toNat

def hex (data : Bytes) : String :=
  String.ofList (data.toList.flatMap fun b => Text.hex 2 b.toNat)

/-! ## 2. Laws -/

theorem data_pad (front : Bytes) (b : UInt8) (n : Nat) :
    (pad front b n).data = front.data ++ Array.replicate n b := by
  induction n generalizing front with
  | zero => simp [pad]
  | succ n ih =>
    rw [pad, ih, ByteArray.data_push]
    exact Array.ext' (by simp [List.replicate_succ])

theorem data_replicate (n : Nat) (b : UInt8) : (replicate n b).data = Array.replicate n b := by
  simp [replicate, data_pad]

@[simp] theorem size_zeros (n : Nat) : (zeros n).size = n := by
  rw [zeros, ByteArray.size, data_replicate, Array.size_replicate]

theorem concat_append_singleton (parts : List Bytes) (last : Bytes) :
    concat (parts ++ [last]) = concat parts ++ last := by
  simp [concat]

@[simp] theorem concat_nil : concat [] = ByteArray.empty := rfl

theorem concat_append (front rest : List Bytes) :
    concat (front ++ rest) = concat front ++ concat rest := by
  induction rest generalizing front with
  | nil => simp
  | cons body rest ih =>
    have hmove : front ++ body :: rest = front ++ [body] ++ rest := by simp
    have hfirst : concat (body :: rest) = body ++ concat rest := by
      rw [show body :: rest = [body] ++ rest from rfl, ih]
      simp [concat]
    rw [hmove, ih, concat_append_singleton, hfirst, ByteArray.append_assoc]

@[simp] theorem concat_cons (body : Bytes) (rest : List Bytes) :
    concat (body :: rest) = body ++ concat rest := by
  rw [show body :: rest = [body] ++ rest from rfl, concat_append]
  simp [concat]

example : adler ByteArray.empty = 1 := by decide

end Bytes

end ResumableStorage
