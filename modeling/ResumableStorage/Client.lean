/-
  ResumableStorage/Client.lean
  ============================
  **The client of an object service** — one function for each thing that can be asked
  of it.  A function sends its request, turns a failure into a storage error, and
  decodes the answer.  An empty text, or a number zero, given for something optional
  counts as absent.
-/
import ResumableStorage.Stream
import ResumableStorage.Text.Affix
import ResumableStorage.Text.Case

namespace ResumableStorage

namespace Client

variable {σ : Type} [Service σ]

/-- Keys that one request for deletion may name. -/
def deleteBatchSize : Nat := 1000

def nonEmpty (s : Option String) : Option String :=
  s.filter (· ≠ "")

/-! ## 1. Multipart uploads -/

def createUpload (bucket key : String) (contentType : Option String) : Run σ Session := do
  let answer ← Run.send .createUpload (.createUpload bucket key (nonEmpty contentType))
  let id ← Run.decoded (answer.fieldD "UploadId" .null)
  if id.isGiven then return ⟨id.display, bucket, key⟩ else throw (.storage .noUploadId)

def uploadPart (s : Session) (number : Int) (body : Bytes) : Run σ Part := do
  let answer ← Run.send .uploadPart (.uploadPart s.bucket s.key s.uploadId number body)
  let etag ← Run.decoded (answer.fieldD "ETag" .null)
  if etag.isGiven then return ⟨number, etag.display, body.size⟩
  else throw (.storage (.noPartTag number))

/-- The number of bytes that a range text `bytes=first-last` names; the text before the first
equals sign does not matter, and the last byte is read before the first. -/
def rangeLength (range : String) : Except Text.NumeralError Int := do
  let bounds := match Text.cutAt '=' range.toList with
    | (whole, none) => whole
    | (_, some bounds) => bounds
  let (first, last) := Text.cutAt '-' bounds
  let last ← Text.Numeral.read .decimal (String.ofList (last.getD []))
  let first ← Text.Numeral.read .decimal (String.ofList first)
  return last - first + 1

def headObject (bucket key : String) : Run σ ObjectHead := do
  Run.decoded (ObjectHead.decode (← Run.send .headObject (.headObject bucket key)))

/-- Makes a part of an object, or of a range of it.  The answer tells no size, so the size is that
of the range, or what the store says of the object beforehand. -/
def copyPart (s : Session) (number : Int) (source : String) (range : Option String) :
    Run σ Part := do
  let range := nonEmpty range
  let size ← match range with
    | some r =>
      match rangeLength r with
      | .ok n => pure n
      | .error e => throw (.numeral e)
    | none => do pure (← headObject s.bucket source).size
  let answer ← Run.send .copyPart (.copyPart s.bucket s.key s.uploadId number source range)
  let result ← Run.decoded (answer.fieldD "CopyPartResult" .null)
  let etag ← if result.isGiven then Run.decoded (result.fieldD "ETag" .null) else pure .null
  if etag.isGiven then return ⟨number, etag.display, size⟩
  else throw (.storage (.noCopyTag number))

/-- One page of the parts of an upload, those behind `marker`. -/
def listParts (s : Session) (maxParts marker : Int) : Run σ PartPage := do
  let answer ← Run.send .listParts (.listParts s.bucket s.key s.uploadId maxParts marker)
  Run.decoded (PartPage.decode answer)

/-- One page of the uploads in flight.  The front is a hint that the store may not follow. -/
def listUploads (bucket : String) (keyFront : String) (keyMarker idMarker : Option Value) :
    Run σ UploadPage := do
  let keyMarker := keyMarker.bind Value.given?
  let idMarker := if keyMarker.isSome then idMarker.bind Value.given? else none
  let answer ← Run.send .listUploads
    (.listUploads bucket (nonEmpty keyFront) keyMarker idMarker)
  Run.decoded (UploadPage.decode answer)

/-- Joins parts to an object, in the order of their numbers; gives its tag. -/
def completeUpload (s : Session) (parts : List Part) : Run σ String := do
  let sorted := parts.mergeSort fun a b => a.number ≤ b.number
  let answer ← Run.send .completeUpload
    (.completeUpload s.bucket s.key s.uploadId (sorted.map fun p => (p.number, p.etag)))
  let etag ← Run.decoded (answer.fieldD "ETag" .null)
  return if etag.isGiven then etag.display else ""

def abortUpload (s : Session) : Run σ Unit :=
  discard (Run.send .abortUpload (.abortUpload s.bucket s.key s.uploadId))

/-! ## 2. Objects -/

def getObject (bucket key : String) : Run σ Value := do
  let answer ← Run.send .getObject (.getObject bucket key none)
  Run.decoded (answer.field "Body")

/-- The text that asks for the bytes from `first` on, up to and including `last` when given. -/
def rangeText (first : Int) (last : Option Int) : String :=
  "bytes=" ++ toString first ++ "-" ++ match last with
    | none => ""
    | some n => toString n

def getRange (bucket key : String) (first : Int) (last : Option Int) : Run σ Value := do
  let answer ← Run.send .getRange (.getObject bucket key (rangeText first last))
  Run.decoded (answer.field "Body")

def putObject (bucket key : String) (body : Bytes) (contentType : Option String) : Run σ Unit :=
  discard (Run.send .putObject (.putObject bucket key body (nonEmpty contentType)))

def deleteObject (bucket key : String) : Run σ Unit :=
  discard (Run.send .deleteObject (.deleteObject bucket key))

/-- The first key that a batch did not delete, and how many there are. -/
def undeleted? (answer : Value) : Except Malformed (Option StorageError) := do
  let errors ← answer.fieldD "Errors" .null
  if !errors.isGiven then return none
  match errors with
  | .list (first :: rest) =>
    return some (.undeleted (rest.length + 1) (← first.fieldD "Key" .null)
      (← first.fieldD "Message" .null) (← first.fieldD "Code" .null))
  | .text _ => throw (.noMember (Value.text "").kindName "get")
  | .bytes _ => throw (.noMember (Value.int 0).kindName "get")
  | .object _ => throw (.missingItem 0)
  | other => throw (.wrongKind ("'" ++ other.kindName ++ "' object is not subscriptable"))

def batches (keys : List String) : List (List String) :=
  if keys.isEmpty then []
  else keys.take deleteBatchSize :: batches (keys.drop deleteBatchSize)
termination_by keys.length
decreasing_by
  rename_i h
  have hpos : keys.length ≠ 0 := fun hz => h (by simp [List.eq_nil_of_length_eq_zero hz])
  simp only [List.length_drop, deleteBatchSize]
  omega

/-- Deletes objects, batch after batch, until one of them leaves a key undeleted. -/
def deleteObjects (bucket : String) (keys : List String) : Run σ Unit :=
  (batches keys).forM fun batch => do
    let answer ← Run.send .deleteObjects (.deleteObjects bucket batch)
    match ← Run.decoded (undeleted? answer) with
    | none => pure ()
    | some e => throw (.storage e)

def copyObject (bucket source dest : String) : Run σ Unit :=
  discard (Run.send .copyObject (.copyObject bucket source dest))

/-- The listing with one more page; every fault of a page is a failure of the listing. -/
def addPage (so : ObjectListing) : Page → Except StorageError ObjectListing
  | .error f => .error (.failed .listObjects f)
  | .ok page => (ObjectListing.decodePage page).mapError .unreadableListing |>.map so.append

/-- All objects below a front; keys that go on behind `delimiter` are collapsed. -/
def listObjects (bucket keyFront : String) (delimiter : Option String) (maxItems : Option Int) :
    Run σ ObjectListing := do
  match ← Run.send .listObjects .openListing with
  | .handle => pure ()
  | other => throw (.storage (.unreadableListing (.noMember other.kindName "paginate")))
  let pages ← Run.listPages
    ⟨bucket, keyFront, nonEmpty delimiter, maxItems.filter (· ≠ 0)⟩
  match pages.foldlM addPage ⟨[], []⟩ with
  | .ok listing => return listing
  | .error e => throw (.storage e)

def presignOperation? : String → Option String
  | "GET" => some "get_object"
  | "HEAD" => some "head_object"
  | _ => none

/-- A link by which an object can be read without credentials for `expiresIn` seconds. -/
def presign (bucket key : String) (expiresIn : Int) (method : String) : Run σ String := do
  match presignOperation? (Text.upper method) with
  | none => throw (.storage (.unsignable method))
  | some operation =>
    let url ← Run.send .presign (.presign operation bucket key expiresIn)
    if url.isGiven then return url.display else throw (.storage .emptyUrl)

end Client

end ResumableStorage
