/-
  ResumableStorage/Upload/Bucket.lean
  ===================================
  **The uploads of a bucket** — starting an upload, and finding one again with all its
  parts.  Listings are walked page by page, each page asked for behind the markers of
  the page before.  A front of the keys is no more than a hint to the store, and it also
  fits longer keys, so an upload is recognised by its whole key.
-/
import ResumableStorage.Client
import ResumableStorage.Keyed

namespace ResumableStorage

/-- The type with which every object is stored. -/
def opaqueContent : String := "application/octet-stream"

structure Bucket where
  name : String
  partPageSize : Int := 1000

namespace Bucket

variable {σ : Type} [Service σ]

/-! ## 1. Uploads in flight -/

/-- Looks at the uploads of a page one after the other until `step` is done. -/
def walkPage {α : Type} (step : α → InFlight → Except Error (ForInStep α)) :
    α → List InFlight → Except Error (ForInStep α)
  | acc, [] => .ok (.yield acc)
  | acc, u :: rest => do
    match ← step acc u with
    | .done acc => return .done acc
    | .yield acc => walkPage step acc rest

/-- Walks the pages behind two markers; the first argument bounds their number. -/
def walkUploadsFrom {α : Type} (b : Bucket) (keyFront : String)
    (step : α → InFlight → Except Error (ForInStep α)) :
    Nat → Option Value → Option Value → α → Run σ α
  | 0, _, _, _ => throw .endlessListing
  | n + 1, keyMarker, idMarker, acc => do
    let page ← Client.listUploads b.name keyFront keyMarker idMarker
    match walkPage step acc page.uploads with
    | .error e => throw e
    | .ok (.done acc) => return acc
    | .ok (.yield acc) =>
      if !page.isTruncated then return acc
      match page.nextKeyMarker with
      | none => throw (.storage .noKeyMarker)
      | some key => walkUploadsFrom b keyFront step n (some key) page.nextIdMarker acc

/-- Walks all uploads in flight, in the order of the listing, until `step` is done. -/
def walkUploads {α : Type} (b : Bucket) (keyFront : String)
    (step : α → InFlight → Except Error (ForInStep α)) (acc : α) : Run σ α := do
  let horizon := Service.horizon (← get).service
  walkUploadsFrom b keyFront step horizon none none acc

/-- The uploads in flight that satisfy a test which may fail. -/
def uploadsWhere (b : Bucket) (keyFront : String) (test : InFlight → Except Error Bool) :
    Run σ (List InFlight) :=
  b.walkUploads keyFront (fun acc u => do
    return .yield (if ← test u then acc ++ [u] else acc)) []

/-- The first `n` uploads in flight, all of them when there are fewer.  No page is asked for that
is not needed. -/
def firstUploads (b : Bucket) (keyFront : String) (n : Nat) : Run σ (List InFlight) :=
  if n = 0 then pure []
  else b.walkUploads keyFront (fun acc u =>
    let acc := acc ++ [u]
    .ok (if n ≤ acc.length then .done acc else .yield acc)) []

/-- The first upload in flight for exactly this key. -/
def findUpload (b : Bucket) (key : String) : Run σ (Option InFlight) :=
  b.walkUploads key (fun _ u =>
    .ok (if u.key = key then .done (some u) else .yield none)) none

/-! ## 2. Parts -/

/-- The parts of a listing entered into a table by their numbers; a later entry counts. -/
def enterParts (table : Keyed Int Part) (parts : List Part) : Keyed Int Part :=
  parts.foldl (fun t p => t.insert p.number p) table

/-- Walks the pages of parts behind a marker; the first argument bounds their number. -/
def partsFrom (b : Bucket) (s : Session) : Nat → Int → Keyed Int Part → Run σ (Keyed Int Part)
  | 0, _, _ => throw .endlessListing
  | n + 1, marker, table => do
    let page ← Client.listParts s b.partPageSize marker
    let table := enterParts table page.parts
    if !page.isTruncated then return table
    match page.nextMarker.filter (· ≠ 0) with
    | none => throw (.storage .noPartMarker)
    | some marker => partsFrom b s n marker table

def parts (b : Bucket) (s : Session) : Run σ (List Part) := do
  let horizon := Service.horizon (← get).service
  return (← b.partsFrom s horizon 0 Keyed.empty).values

/-! ## 3. Sessions -/

def start (b : Bucket) (key : String) : Run σ (Session × List Part) := do
  return (← Client.createUpload b.name key opaqueContent, [])

def resume (b : Bucket) (key : String) : Run σ (Session × List Part) := do
  let (s, parts) ← Run.notFoundAs key do
    match ← b.findUpload key with
    | none => throw (.pathNotFound key)
    | some u =>
      let s : Session := ⟨u.uploadId, b.name, key⟩
      return (s, ← b.parts s)
  Run.report (.resumed key s.uploadId parts.length)
  return (s, parts)

def session (b : Bucket) (key : String) (append : Bool) : Run σ (Session × List Part) :=
  if append then b.resume key else b.start key

end Bucket

end ResumableStorage
