/-
  ResumableStorage/Volume/Stale.lean
  ==================================
  **Stale uploads** — writers that were closed but never finished leave uploads in
  flight.  Those below a path can be dropped, all of them or those of a certain age;
  one whose age is not known is kept when an age is asked for.
-/
import ResumableStorage.Volume.Basic

namespace ResumableStorage

/-- A span of time in microseconds, not longer than a thousand million days. -/
structure Age where
  microseconds : Int
deriving DecidableEq, Repr

namespace Age

def maxDays : Int := 999999999

def ofMicroseconds? (microseconds : Int) : Except Error Age :=
  let days := microseconds.fdiv Calendar.day
  if -maxDays ≤ days && days ≤ maxDays then .ok ⟨microseconds⟩ else .error .timeOutOfRange

def ofHours? (hours : Int) : Except Error Age :=
  ofMicroseconds? (hours * 3600 * Calendar.second)

end Age

namespace Volume

/-- The last instant at which an upload of this age was started. -/
def threshold (now : Instant) : Option Age → Except Error (Option Instant)
  | none => .ok none
  | some age =>
    let t := now - age.microseconds
    if Calendar.holds t then .ok (some t) else .error .timeOutOfRange

def isOldEnough (threshold : Option Instant) (u : InFlight) : Except Error Bool :=
  match threshold, u.initiated with
  | none, _ => .ok true
  | some _, .null => .ok false
  | some t, .time started => .ok (started ≤ t)
  | some _, other => .error (.malformed (.wrongKind
      ("'<=' not supported between instances of '" ++ other.kindName ++ "' and '" ++
        (Value.time 0).kindName ++ "'")))

def isStale (front : String) (threshold : Option Instant) (u : InFlight) : Except Error Bool :=
  if Text.startsWith u.key front then isOldEnough threshold u else .ok false

variable {σ : Type} [Service σ]

def staleUploads (v : Volume) (now : Instant) (path : String) (age : Option Age) :
    Run σ (List InFlight) := do
  let front := v.key path
  match threshold now age with
  | .error e => throw e
  | .ok t => v.bucket.uploadsWhere front (isStale front t)

/-- Drops the stale uploads below a path and tells which they are; a dry run only tells. -/
def abortUploads (v : Volume) (now : Instant) (path : String) (age : Option Age) (dryRun : Bool) :
    Run σ (List InFlight) := do
  let stale ← v.staleUploads now path age
  if !dryRun then
    stale.forM fun u => do
      Client.abortUpload ⟨u.uploadId, v.bucket.name, u.key⟩
      Run.report (.staleAborted u)
  return stale

end Volume

end ResumableStorage
