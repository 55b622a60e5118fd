/-
  ResumableStorage/Store/Answers.lean
  ===================================
  **The store as a service** — the effect and the answer of each request.  A request
  that is refused leaves the store as it was.
-/
import ResumableStorage.Store.Listing

namespace ResumableStorage

namespace Store

def missing (operation code : String) : Failure :=
  .refused (Refusal.standard operation code 404)

def badRequest (operation code : String) : Failure :=
  .refused (Refusal.standard operation code 400)

/-- Checks the parts named in a completion, in order, and gives their contents. -/
def partsToJoin (s : Store) (u : StoredUpload) : List (Int × String) → Except Failure (List Bytes)
  | [] => .ok []
  | (number, etag) :: rest =>
    match u.parts.find? number with
    | none => .error (badRequest "CompleteMultipartUpload" "InvalidPart")
    | some content =>
      if tag content != etag then .error (badRequest "CompleteMultipartUpload" "InvalidPart")
      else if !rest.isEmpty && content.size < s.minPartSize then
        .error (badRequest "CompleteMultipartUpload" "EntityTooSmall")
      else (partsToJoin s u rest).map (content :: ·)

/-- The upload of a request, or its refusal. -/
def usable (s : Store) (operation key id : String) : Except Failure StoredUpload :=
  match s.upload? key id with
  | some u => .ok u
  | none => .error (missing operation "NoSuchUpload")

def effect (s : Store) : Request → Except Failure (Value × Store)
  | .createUpload bucket key _ =>
    let (id, s) := s.addUpload key (some s.clock) Keyed.empty
    .ok (.object [("Bucket", .text bucket), ("Key", .text key), ("UploadId", .text id)], s)
  | .uploadPart _ key id number body => do
    let u ← s.usable "UploadPart" key id
    return (.object [("ETag", .text (tag body))],
      s.modifyUpload u.id fun u => { u with parts := u.parts.insert number body })
  | .copyPart _ key id number source range => do
    let u ← s.usable "UploadPartCopy" key id
    match s.objects.find? source with
    | none => .error (missing "UploadPartCopy" "NoSuchKey")
    | some o =>
      let content := sliceOrEmpty o.content range
      return (.object [("CopyPartResult", .object [("ETag", .text (tag content))])],
        s.modifyUpload u.id fun u => { u with parts := u.parts.insert number content })
  | .listParts _ key id maxParts marker => do
    let u ← s.usable "ListParts" key id
    return (s.partPage u maxParts marker, s)
  | .listUploads _ keyFront keyMarker idMarker => do
    return (← s.uploadPage keyFront keyMarker idMarker, s)
  | .completeUpload _ key id parts => do
    let u ← s.usable "CompleteMultipartUpload" key id
    if parts.isEmpty then .error (badRequest "CompleteMultipartUpload" "MalformedXML")
    else
      let content := Bytes.concat (← s.partsToJoin u parts)
      return (.object [("ETag", .text (tag content))],
        (s.modifyUpload u.id fun u => { u with status := .completed }).putObject key content)
  | .abortUpload _ key id => do
    let u ← s.usable "AbortMultipartUpload" key id
    return (.object [], s.modifyUpload u.id fun u => { u with status := .aborted })
  | .getObject _ key range =>
    match s.objects.find? key with
    | none => .error (missing "GetObject" "NoSuchKey")
    | some o =>
      match slice? o.content range with
      | none => .error (.refused (Refusal.standard "GetObject" "InvalidRange" 416))
      | some content => .ok (.object [("Body", .stream content none)], s)
  | .putObject _ key body _ =>
    .ok (.object [("ETag", .text (tag body))], s.putObject key body)
  | .headObject _ key =>
    match s.objects.find? key with
    | none => .error (missing "HeadObject" "404")
    | some o => .ok (.object [("ContentLength", .int o.content.size),
        ("ETag", .text (tag o.content)), ("ContentType", .text "binary/octet-stream"),
        ("LastModified", .time o.modified)], s)
  | .deleteObject _ key => .ok (.object [], s.eraseObject key)
  | .deleteObjects _ keys => .ok (.object [], keys.foldl eraseObject s)
  | .copyObject _ source dest =>
    match s.objects.find? source with
    | none => .error (missing "HeadObject" "404")
    | some o => .ok (.null, s.putObject dest o.content)
  | .presign operation bucket key expiresIn =>
    .ok (.text ("https://fake/" ++ bucket ++ "/" ++ key ++ "?op=" ++ operation ++ "&exp=" ++
      toString expiresIn), s)
  | .openListing => .ok (.handle, s)

/-- Pages that a walk over the uploads, or over the parts of one of them, can fill. -/
def extent (s : Store) : Nat :=
  s.uploads.length + (s.uploads.flatMap fun u => u.parts.entries).length + 1

end Store

instance : Service Store where
  answer r s :=
    match s.effect r with
    | .ok (v, s) => (.ok v, s)
    | .error f => (.error f, s)
  pages l s := (.ok (s.objectPages l), s)
  horizon s := s.extent

end ResumableStorage
