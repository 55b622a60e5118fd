/-
  ResumableStorage/Service/Disturbance.lean
  =========================================
  **Disturbed services** — a service whose requests fail, or are answered with something
  else, as a plan says.  Each kind of request has its own queue of disturbances; a
  request takes the first of its queue.  A disturbance replaces the effect of the
  request, or follows it: then the request has taken effect and an error of its own
  comes first.
-/
import ResumableStorage.Service.Basic

namespace ResumableStorage

inductive RequestKind where
  | createUpload | uploadPart | copyPart | listParts | listUploads | completeUpload | abortUpload
  | getObject | putObject | headObject | deleteObject | deleteObjects | copyObject | presign
  | openListing | listObjects
deriving DecidableEq, Repr

def Request.kind : Request → RequestKind
  | createUpload .. => .createUpload
  | uploadPart .. => .uploadPart
  | copyPart .. => .copyPart
  | listParts .. => .listParts
  | listUploads .. => .listUploads
  | completeUpload .. => .completeUpload
  | abortUpload .. => .abortUpload
  | getObject .. => .getObject
  | putObject .. => .putObject
  | headObject .. => .headObject
  | deleteObject .. => .deleteObject
  | deleteObjects .. => .deleteObjects
  | copyObject .. => .copyObject
  | presign .. => .presign
  | openListing => .openListing

/-- What a disturbance puts in the place of an answer.  The pages of a listing may each fail. -/
inductive Outcome where
  | fails (f : Failure)
  | answers (v : Value)
  | lists (pages : List Page)

namespace Outcome

def toAnswer : Outcome → Except Failure Value
  | .fails f => .error f
  | .answers v => .ok v
  | .lists _ => .ok .handle

/-- What an outcome answers to a listing: the items of a value are its pages. -/
def toPages : Outcome → Except Failure (List Page)
  | .fails f => .error f
  | .lists pages => .ok pages
  | .answers v =>
    match v.items with
    | .ok vs => .ok (vs.map .ok)
    | .error e => .error (.unexpected e.message)

end Outcome

/-- A disturbance; `afterEffect` says that the request takes effect first. -/
structure Disturbance where
  afterEffect : Bool
  outcome : Outcome

/-- A service behind queues of disturbances; `none` in a queue lets one request through. -/
structure Disturbed (σ : Type) where
  service : σ
  queues : List (RequestKind × List (Option Disturbance))

namespace Disturbed

variable {σ : Type}

def calm (s : σ) : Disturbed σ := ⟨s, []⟩

def plan (d : Disturbed σ) (kind : RequestKind) (more : List (Option Disturbance)) : Disturbed σ :=
  { d with queues := match d.queues.lookup kind with
      | none => (kind, more) :: d.queues
      | some _ => d.queues.map fun q => if q.1 = kind then (kind, q.2 ++ more) else q }

/-- The next disturbance of a kind, taken off its queue. -/
def next (d : Disturbed σ) (kind : RequestKind) : Option Disturbance × Disturbed σ :=
  match d.queues.lookup kind with
  | some (head :: rest) =>
    (head, { d with queues := d.queues.map fun q => if q.1 = kind then (kind, rest) else q })
  | _ => (none, d)

def pending (d : Disturbed σ) : Nat :=
  (d.queues.flatMap Prod.snd).length

/-- Runs an effect under the next disturbance of a kind. -/
def under {α : Type} (kind : RequestKind) (effect : σ → Except Failure α × σ)
    (replace : Outcome → Except Failure α) (d : Disturbed σ) : Except Failure α × Disturbed σ :=
  match d.next kind with
  | (none, d) =>
    let (result, s) := effect d.service
    (result, { d with service := s })
  | (some x, d) =>
    if x.afterEffect then
      match effect d.service with
      | (.error f, s) => (.error f, { d with service := s })
      | (.ok _, s) => (replace x.outcome, { d with service := s })
    else (replace x.outcome, d)

end Disturbed

/-- A walk may start again after each disturbance, so the bound counts once for each. -/
instance {σ : Type} [Service σ] : Service (Disturbed σ) where
  answer r := Disturbed.under r.kind (Service.answer r) Outcome.toAnswer
  pages l := Disturbed.under .listObjects (Service.pages l) Outcome.toPages
  horizon d := (d.pending + 1) * (Service.horizon d.service + 1)

end ResumableStorage
