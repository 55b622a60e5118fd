/-
  ResumableStorage/Upload/Writer/Repair.lean
  ==========================================
  **Repair of a resumed upload** — a store joins no part behind one that is below its
  floor.  When the last part of a resumed upload is such a part, the upload is completed,
  and the object it made becomes the head of a new upload: copied into its first part
  when it reaches the floor, else read again into the first staging slot.

  The writer changes only when every step has succeeded.  An attempt that fails drops
  the new upload; the next attempt starts over, but completes the old upload no more.
-/
import ResumableStorage.Upload.Writer.Basic

namespace ResumableStorage

namespace Writer

open Writing

variable {σ : Type} [Service σ]

/-- An object of `size` bytes below the floor is read again. -/
def repairMode (policy : Policy) (size : Int) : RepairMode :=
  if size < policy.floor then .refetch else .copy

/-- The content of the completed object, which must have `size` bytes. -/
def refetch (old : Session) (size : Int) : Run σ Bytes := do
  let content ← Stream.drain (← Client.getObject old.bucket old.key)
  if (content.size : Int) = size then return content
  else throw (.storage (.lengthChanged old.key size content.size))

/-- Carries the completed object over into the new upload: the parts that it then has, and the
bytes that are still to be sent. -/
def carryOver (old new : Session) (size : Int) : RepairMode → Run σ (List Part × Bytes)
  | .refetch => do return ([], ← refetch old size)
  | .copy => do
    let session : Session := { new with bucket := old.bucket, key := old.key }
    return ([← Client.copyPart session 1 old.key none], ByteArray.empty)

def completeSource : Writing σ Unit := do
  let w ← writer
  if !w.sourceCompleted then
    discard (ofRun (orAbort w.session (Client.completeUpload w.session w.parts)))
    change fun w => { w with repair := .required true }

def replaceSession : Writing σ Unit := do
  completeSource
  let w ← writer
  let old := w.session
  let new ← ofRun (Client.createUpload old.bucket old.key opaqueContent)
  let mode := repairMode w.policy w.size
  let (parts, content) ← ofRun (orAbort new (carryOver old new w.size mode))
  change fun w => { w with session := new, parts, repair := .done }
  if mode = .refetch then
    let slots ← borrow
    onPool (·.put slots.ready w.policy.chunk content 0)
    let (ready, _) := slots.ready.fill w.policy.chunk content 0
    change fun w => { w with slots := some { slots with ready } }
  ofRun (Run.count (·.addRepair mode))
  ofRun (Run.report (.replaced old.key old.uploadId new.uploadId mode w.size))

end Writer

end ResumableStorage
