/-
  ResumableStorage/Store/Basic.lean
  =================================
  **A store of objects and multipart uploads** — the model that stands for the object
  service.  A bucket maps keys to objects; an upload collects numbered parts under an
  identifier until it is completed, which makes an object of them, or aborted.

  Identifiers are given in the order of creation, and uploads are never forgotten, so
  what became of each can be read off the store.
-/
import ResumableStorage.Bytes
import ResumableStorage.Calendar
import ResumableStorage.Keyed
import ResumableStorage.Text.Affix

namespace ResumableStorage

structure StoredObject where
  content : Bytes
  modified : Instant

inductive UploadStatus where
  | inFlight
  | completed
  | aborted
deriving DecidableEq, Repr

/-- An upload; a part's number may be any integer, and setting a part again replaces it. -/
structure StoredUpload where
  id : String
  key : String
  initiated : Option Instant
  status : UploadStatus
  parts : Keyed Int Bytes

/-- The store, its clock, and the habits in which services differ. -/
structure Store where
  objects : Keyed String StoredObject
  /-- In the order of creation. -/
  uploads : List StoredUpload
  clock : Instant
  /-- The least size of a part that is not the last. -/
  minPartSize : Nat
  uploadPageSize : Nat
  objectPageSize : Nat
  reverseParts : Bool
  honourFront : Bool

namespace Store

/-- The tag of a content: its length and its checksum in hexadecimal, in quotation marks. -/
def tag (content : Bytes) : String :=
  String.ofList ('"' :: Text.hex 1 content.size ++ '-' :: Text.hex 8 (Bytes.adler content) ++ ['"'])

def empty (clock : Instant) : Store :=
  ⟨Keyed.empty, [], clock, 0, 1000, 1000, false, false⟩

def putObject (s : Store) (key : String) (content : Bytes) : Store :=
  { s with objects := s.objects.insert key ⟨content, s.clock⟩ }

def eraseObject (s : Store) (key : String) : Store :=
  { s with objects := s.objects.erase key }

def nextId (s : Store) : String :=
  "u" ++ toString (s.uploads.length + 1)

/-- The store with one more upload in flight, and its identifier. -/
def addUpload (s : Store) (key : String) (initiated : Option Instant)
    (parts : Keyed Int Bytes) : String × Store :=
  (s.nextId, { s with uploads := s.uploads ++ [⟨s.nextId, key, initiated, .inFlight, parts⟩] })

def upload? (s : Store) (key id : String) : Option StoredUpload :=
  s.uploads.find? fun u => u.id = id && u.key = key && u.status = .inFlight

def modifyUpload (s : Store) (id : String) (f : StoredUpload → StoredUpload) : Store :=
  { s with uploads := s.uploads.map fun u => if u.id = id then f u else u }

/-- Uploads in flight, ascending by key and then identifier, both as texts. -/
def inFlight (s : Store) : List StoredUpload :=
  (s.uploads.filter (·.status = .inFlight)).mergeSort fun a b =>
    a.key < b.key || (a.key = b.key && a.id ≤ b.id)

/-! ## 1. Byte ranges -/

/-- The bounds of a range text `bytes=first-` or `bytes=first-last`, in ASCII digits.  A text of
another form, or with its bounds in the wrong order, is no range. -/
def readRange? (text : String) : Option (Nat × Option Nat) :=
  let digits (cs : List Char) : Option Nat :=
    if !cs.isEmpty && cs.all Char.isDigit then
      some (cs.foldl (fun n c => n * 10 + (c.toNat - '0'.toNat)) 0)
    else none
  if !Text.startsWith text "bytes=" then none
  else match Text.cutAt '-' (text.toList.drop "bytes=".length) with
    | (first, some []) => (digits first).map fun a => (a, none)
    | (first, some last) =>
      match digits first, digits last with
      | some a, some b => if b < a then none else some (a, some b)
      | _, _ => none
    | (_, none) => none

/-- The bytes that a range text selects, both bounds included; none when it begins past the end. -/
def slice? (content : Bytes) (range : Option String) : Option Bytes :=
  match range.bind readRange? with
  | none => some content
  | some (a, b) =>
    if content.size ≤ a then none
    else some (content.extract a (match b with
      | some b => min (b + 1) content.size
      | none => content.size))

/-- The bytes that a range text selects for a copy; nothing when it begins past the end. -/
def sliceOrEmpty (content : Bytes) (range : Option String) : Bytes :=
  (slice? content range).getD ByteArray.empty

end Store

end ResumableStorage
