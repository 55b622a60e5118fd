/-
  ResumableStorage/Upload/Writer/Finish.lean
  ==========================================
  **Finishing a writer** — closing sends what is staged and leaves the upload to be
  resumed; committing sends it and completes the upload; cancelling drops it.  A writer
  is finished before the last request is sent, whatever comes of that request.
-/
import ResumableStorage.Upload.Writer.Write

namespace ResumableStorage

namespace Writer

open Writing

variable {σ : Type}

def enter (phase : Phase) : Writing σ Unit :=
  change fun w => { w with phase := phase }

def countEnding (e : Ending) : Writing σ Unit :=
  ofRun (Run.count (·.addEnding e))

variable [Service σ]

/-- Sends what is staged; the upload stays in flight. -/
def close : Writing σ Unit := do
  ensureActive
  let w ← writer
  enter .closed
  if w.sourceCompleted then
    ofRun (Run.report (.closedAfterRepair w.session.key w.session.uploadId))
  let result ← attempt flush
  release
  countEnding .closed
  match result with
  | .ok _ => pure ()
  | .error e => throw e

/-- Completes the upload.  A failure is reported and the upload dropped. -/
def complete : Writing σ Unit := do
  let w ← writer
  let s := w.session
  match ← attempt (ofRun (Client.completeUpload s w.parts)) with
  | .ok etag =>
    countEnding .committed
    ofRun (Run.report (.committed s.key s.uploadId w.parts.length w.size (some etag)))
  | .error e =>
    ofRun (Run.report (.completeFailed s.key s.uploadId w.parts.length e))
    ofRun (abortQuietly s)
    countEnding .commitFailed
    throw e

/-- Sends what is staged and completes the upload.  An upload without parts gets an empty one,
since none can be completed without.  When a failed repair has completed the upload already there
is nothing left to do: no byte was taken in since. -/
def commit : Writing σ Unit := do
  ensureActive
  let w ← writer
  if w.sourceCompleted then
    enter .committed
    release
    countEnding .committed
    ofRun (Run.report (.committed w.session.key w.session.uploadId w.parts.length w.size none))
  else
    flush
    if (← writer).parts.isEmpty then sendPart ByteArray.empty
    enter .committed
    release
    complete

/-- Drops what is staged and the upload.  When that fails the writer stays cancelled. -/
def cancel : Writing σ Unit := do
  ensureActive
  let w ← writer
  enter .cancelled
  release
  countEnding .cancelled
  if !w.sourceCompleted then
    match ← attempt (ofRun (Client.abortUpload w.session)) with
    | .ok _ => pure ()
    | .error e =>
      ofRun (Run.report (.abortFailed w.session.key w.session.uploadId e))
      throw e

end Writer

end ResumableStorage
