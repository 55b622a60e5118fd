/-
  ResumableStorage/Log/Notice.lean
  ================================
  **Notices** — the events that are reported to the log, and the level, the logger, the
  message and the extra fields of each.
-/
import ResumableStorage.Error
import ResumableStorage.Meters
import ResumableStorage.Log.Record
import ResumableStorage.Upload.Session

namespace ResumableStorage

inductive Notice where
  | resumed (key uploadId : String) (parts : Nat)
  /-- A resumed upload went over into a new session. -/
  | replaced (key oldId newId : String) (mode : RepairMode) (size : Int)
  /-- A writer was closed between the completion of its upload and the repair. -/
  | closedAfterRepair (key uploadId : String)
  /-- A commit succeeded; there is no tag when the object was already complete. -/
  | committed (key uploadId : String) (parts : Nat) (size : Int) (etag : Option String)
  | completeFailed (key uploadId : String) (parts : Nat) (cause : Error)
  | abortFailed (key uploadId : String) (cause : Error)
  | staleAborted (upload : InFlight)
  | deleted (path : String) (objects : Nat)
  /-- The cleanup names an upload that it aborted, or that it would abort. -/
  | cleaned (dryRun : Bool) (upload : InFlight)

namespace Notice

def level : Notice → Level
  | closedAfterRepair .. | abortFailed .. => .warning
  | completeFailed .. => .error
  | _ => .info

def logger : Notice → String
  | cleaned .. => "storage.scripts"
  | _ => "storage"

def keyAndId (key uploadId : String) : String :=
  " key=" ++ key ++ " upload_id=" ++ uploadId

def message : Notice → String
  | resumed key id parts =>
    "multipart_session_resumed" ++ keyAndId key id ++ " parts=" ++ toString parts
  | replaced key oldId newId mode _ => "multipart_session_replaced key=" ++ key ++
      " old_upload_id=" ++ oldId ++ " upload_id=" ++ newId ++ " mode=" ++ mode.name
  | closedAfterRepair key id => "multipart_close_after_repair" ++ keyAndId key id ++
      ": object already completed, nothing left to resume"
  | committed key id parts size _ => "multipart_committed" ++ keyAndId key id ++
      " parts=" ++ toString parts ++ " size=" ++ toString size
  | completeFailed key id parts cause => "multipart_complete_failed" ++ keyAndId key id ++
      " parts=" ++ toString parts ++ " error=" ++ cause.message
  | abortFailed key id cause =>
    "multipart_abort_failed" ++ keyAndId key id ++ " error=" ++ cause.message
  | staleAborted u =>
    "multipart_stale_aborted" ++ keyAndId u.key u.uploadId ++ " initiated=" ++ u.initiated.display
  | deleted path objects => "storage_deleted path=" ++ path ++ " objects=" ++ toString objects
  | cleaned dryRun u => (if dryRun then "would abort " else "aborted ") ++ u.key ++
      " (upload_id=" ++ u.uploadId ++ ", initiated=" ++ u.initiated.display ++ ")"

def extra : Notice → Fields
  | replaced key oldId newId mode size =>
    [("object_key", .text key), ("old_upload_id", .text oldId), ("upload_id", .text newId),
      ("mode", .text mode.name), ("size", .int size)]
  | committed key id parts size (some etag) =>
    [("object_key", .text key), ("upload_id", .text id), ("parts", .int parts),
      ("size", .int size), ("etag", .text etag)]
  | _ => []

def toRecord (n : Notice) : LogRecord :=
  { level := n.level, logger := n.logger, message := n.message, extra := n.extra }

end Notice

end ResumableStorage
