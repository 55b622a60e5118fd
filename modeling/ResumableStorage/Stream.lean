/-
  ResumableStorage/Stream.lean
  ============================
  **Streams** — the body of an object while it is read.  A stream that came from the
  service is released when it is closed; one that stands for nothing left to read is not.
-/
import ResumableStorage.Run

namespace ResumableStorage

structure Stream where
  content : Bytes
  position : Nat := 0
  failure : Option ReadFailure := none
  isRemote : Bool := true

namespace Stream

def nothing : Stream :=
  { content := ByteArray.empty, isRemote := false }

def ofValue : Value → Except Malformed Stream
  | .stream content failure => .ok { content, failure }
  | other => .error (.noMember other.kindName "read")

/-- Reads `n` bytes, or the rest when there are fewer or `n` is negative. -/
def read (s : Stream) (n : Int) : Except ReadFailure (Bytes × Stream) :=
  match s.failure with
  | some f => .error f
  | none =>
    let stop := if n < 0 then s.content.size else min s.content.size (s.position + n.toNat)
    .ok (s.content.extract s.position stop, { s with position := stop })

def readEach (s : Stream) : List Int → Except ReadFailure (List Bytes)
  | [] => .ok []
  | n :: rest => do
    let (data, s) ← s.read n
    return data :: (← readEach s rest)

variable {σ : Type}

def close (s : Stream) : Run σ Unit :=
  if s.isRemote then Run.record .released else pure ()

/-- What `use` makes of a stream, which is closed whether or not that succeeds. -/
def consume {α : Type} (s : Stream) (use : Stream → Except ReadFailure α) : Run σ α := do
  let result := use s
  s.close
  match result with
  | .ok a => return a
  | .error f => throw (.interrupted f)

/-- The rest of a body, which is closed then. -/
def drain (body : Value) : Run σ Bytes := do
  let s ← Run.decoded (Stream.ofValue body)
  s.consume fun s => Prod.fst <$> s.read (-1)

end Stream

end ResumableStorage
