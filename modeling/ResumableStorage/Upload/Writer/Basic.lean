/-
  ResumableStorage/Upload/Writer/Basic.lean
  =========================================
  **Writers** — a writer turns a stream of writes of any size into the parts of one
  upload.  It holds two staging slots and sends a part when both are full; it is in use
  until it is closed, committed or cancelled, and cannot be used afterwards.

  A run of a writer changes the writer and the context together.  An error keeps what
  was done before it in both.
-/
import ResumableStorage.Upload.Bucket
import ResumableStorage.Upload.Staging

namespace ResumableStorage

/-- What has become of a resumed upload whose last part is below the store's floor, so that
nothing can be appended behind it. -/
inductive Repair where
  | notNeeded
  /-- The upload is to be replaced before anything is written.  `completed` says that it was
  completed by an attempt that failed after that. -/
  | required (completed : Bool)
  | done
deriving DecidableEq, Repr

def Repair.name : Repair → String
  | notNeeded => "not_needed"
  | required _ => "required"
  | done => "done"

structure Writer where
  policy : Policy
  session : Session
  /-- Parts that the store holds, in the order in which they were sent. -/
  parts : List Part
  /-- Bytes of the object so far: those of resumed parts and those that were written. -/
  size : Int
  phase : Phase := .active
  repair : Repair
  slots : Option Slots := none

namespace Writer

/-- The writer of a session that holds `parts`. -/
def ofSession (policy : Policy) (session : Session) (parts : List Part) : Writer :=
  let tooSmall := match parts.getLast? with
    | some last => decide (last.size < policy.floor)
    | none => false
  { policy, session, parts
    size := Part.totalSize parts
    repair := if tooSmall then .required false else .notNeeded }

/-- The same, when the pool lends buffers of the size of a chunk. -/
def make? (policy : Policy) (pool : Pool) (session : Session) (parts : List Part) :
    Except Error Writer :=
  if pool.capacity = policy.chunk then .ok (ofSession policy session parts)
  else .error .capacityMismatch

/-- A failed repair has completed the resumed upload: the object is whole without this writer. -/
def sourceCompleted (w : Writer) : Bool :=
  w.repair = .required true

end Writer

abbrev Writing (σ : Type) := ExceptT Error (StateM (Writer × Context σ))

namespace Writing

variable {σ : Type}

/-! ## 1. Steps -/

def ofRun {α : Type} (x : Run σ α) : Writing σ α :=
  ExceptT.mk fun (w, c) =>
    let (result, c) := x.execute c
    (result, w, c)

def writer : Writing σ Writer :=
  Prod.fst <$> get

def change (f : Writer → Writer) : Writing σ Unit :=
  modify fun (w, c) => (f w, c)

def onPool (f : Pool → Pool) : Writing σ Unit :=
  modify fun (w, c) => (w, { c with pool := f c.pool })

def attempt {α : Type} (x : Writing σ α) : Writing σ (Except Error α) :=
  tryCatch (Except.ok <$> x) fun e => pure (.error e)

def execute {α : Type} (x : Writing σ α) (w : Writer) (c : Context σ) :
    Except Error α × Writer × Context σ :=
  (ExceptT.run x).run (w, c)

end Writing

namespace Writer

open Writing

variable {σ : Type}

def ensureActive : Writing σ Unit := do
  match (← writer).phase with
  | .active => pure ()
  | phase => throw (.finished phase)

/-! ## 2. Buffers -/

/-- The slots of the writer, lent by the pool when it has none yet. -/
def borrow : Writing σ Slots := do
  match (← writer).slots with
  | some slots => return slots
  | none =>
    let (_, c) ← get
    let (ready, pool) := c.pool.acquire
    let (pending, pool) := pool.acquire
    let slots : Slots := ⟨⟨ready, ByteArray.empty⟩, ⟨pending, ByteArray.empty⟩⟩
    modify fun (w, c) => ({ w with slots := slots }, { c with pool := pool })
    return slots

/-- Puts the bytes of `data` from `offset` on into the slots, as far as they fit. -/
def stage (policy : Policy) (data : Bytes) (slots : Slots) (offset : Nat) : Writing σ Unit := do
  let filled := slots.fill policy.chunk data offset
  onPool (·.putBoth slots policy.chunk data offset)
  change fun w => { w with slots := some filled.1, size := w.size + filled.2 }

def release : Writing σ Unit :=
  modify fun (w, c) =>
    match w.slots with
    | none => (w, c)
    | some slots =>
      ({ w with slots := none },
        { c with pool := (c.pool.release slots.ready.buffer).release slots.pending.buffer })

/-! ## 3. Parts -/

variable [Service σ]

def sendPart (body : Bytes) : Writing σ Unit := do
  let w ← writer
  let part ← ofRun (Client.uploadPart w.session (w.parts.length + 1) body)
  change fun w => { w with parts := w.parts ++ [part] }
  ofRun (Run.count (·.addPart body.size))

/-- Sends what the slots hold as one part: `ready` alone when `pending` is full, else both. -/
def flush : Writing σ Unit := do
  let w ← writer
  match w.slots with
  | none => pure ()
  | some slots =>
    if slots.isEmpty then pure ()
    else
      let (body, merged) := slots.nextPart w.policy.chunk
      sendPart body
      change fun w => { w with slots := slots.afterPart merged }

/-! ## 4. Giving up an upload -/

/-- Asks for the upload to be dropped; a failure is only reported. -/
def abortQuietly (s : Session) : Run σ Unit :=
  tryCatch (Client.abortUpload s) fun e => Run.report (.abortFailed s.key s.uploadId e)

/-- The run; when it fails the upload is dropped first. -/
def orAbort {α : Type} (s : Session) (x : Run σ α) : Run σ α :=
  tryCatch x fun e => do
    abortQuietly s
    throw e

end Writer

end ResumableStorage
