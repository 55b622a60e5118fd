/-
  ResumableStorage/Upload/Session.lean
  ====================================
  **Multipart uploads as the client sees them** — the session that parts are sent to,
  the parts it holds, and what the listings of the store tell once they are decoded.
-/
import ResumableStorage.Value.Decode

namespace ResumableStorage

structure Session where
  uploadId : String
  bucket : String
  key : String
deriving DecidableEq, Repr

structure Part where
  number : Int
  etag : String
  size : Int
deriving DecidableEq, Repr

def Part.totalSize (parts : List Part) : Int :=
  parts.foldr (fun p total => p.size + total) 0

/-- An entry of the listing of uploads in flight. -/
structure InFlight where
  key : String
  uploadId : String
  /-- Null when the store does not tell. -/
  initiated : Value

structure PartPage where
  parts : List Part
  isTruncated : Bool
  nextMarker : Option Int

structure UploadPage where
  uploads : List InFlight
  isTruncated : Bool
  nextKeyMarker : Option Value
  nextIdMarker : Option Value

structure ObjectHead where
  size : Int
  etag : Value
  contentType : Value
  modified : Value

structure ObjectSummary where
  key : String
  size : Int
  modified : Value

/-- The objects of a listing and the fronts that others were collapsed into. -/
structure ObjectListing where
  objects : List ObjectSummary
  fronts : List String

/-! ## 1. Decoding -/

namespace Part

def decode (v : Value) : Except Malformed Part := do
  return ⟨← (← v.field "PartNumber").toInt, (← v.fieldD "ETag" (.text "")).display,
    ← (← v.fieldD "Size" (.int 0)).toInt⟩

end Part

namespace PartPage

/-- A marker that is not given, such as zero, is none. -/
def decode (v : Value) : Except Malformed PartPage := do
  let parts ← (← (← v.fieldD "Parts" (.list [])).items).mapM Part.decode
  let marker ← v.fieldD "NextPartNumberMarker" .null
  let truncated ← v.fieldD "IsTruncated" .null
  return ⟨parts, truncated.isGiven, ← marker.given?.mapM Value.toInt⟩

end PartPage

namespace InFlight

def decode (v : Value) : Except Malformed InFlight := do
  return ⟨(← v.field "Key").display, (← v.field "UploadId").display, ← v.fieldD "Initiated" .null⟩

end InFlight

namespace UploadPage

def decode (v : Value) : Except Malformed UploadPage := do
  let uploads ← (← (← v.fieldD "Uploads" (.list [])).items).mapM InFlight.decode
  let truncated ← v.fieldD "IsTruncated" .null
  return ⟨uploads, truncated.isGiven, (← v.fieldD "NextKeyMarker" .null).given?,
    (← v.fieldD "NextUploadIdMarker" .null).given?⟩

end UploadPage

namespace ObjectHead

/-- A size that is not told is zero. -/
def decode (v : Value) : Except Malformed ObjectHead := do
  let size ← match ← v.fieldD "ContentLength" .null with
    | .null => pure 0
    | size => size.toInt
  return ⟨size, ← v.fieldD "ETag" .null, ← v.fieldD "ContentType" .null,
    ← v.fieldD "LastModified" .null⟩

end ObjectHead

namespace ObjectListing

def decodeObject (v : Value) : Except Malformed ObjectSummary := do
  return ⟨(← v.field "Key").display, ← (← v.fieldD "Size" (.int 0)).toInt,
    ← v.fieldD "LastModified" .null⟩

def decodePage (v : Value) : Except Malformed ObjectListing := do
  let objects ← (← (← v.fieldD "Contents" (.list [])).items).mapM decodeObject
  let fronts ← (← (← v.fieldD "CommonPrefixes" (.list [])).items).mapM fun w => do
    return (← w.field "Prefix").display
  return ⟨objects, fronts⟩

def append (a b : ObjectListing) : ObjectListing :=
  ⟨a.objects ++ b.objects, a.fronts ++ b.fronts⟩

end ObjectListing

end ResumableStorage
