/-
  ResumableStorage/Store/Listing.lean
  ===================================
  **Listings of a store** — objects in pages, keys collapsed at a delimiter; uploads
  and parts in pages that go on behind a marker.
-/
import ResumableStorage.Service.Basic
import ResumableStorage.Store.Basic

namespace ResumableStorage

namespace Store

/-! ## 1. Objects -/

/-- An entry of an object listing: an object, or the front shared by the keys collapsed into it. -/
inductive Entry where
  | object (key : String) (o : StoredObject)
  | front (text : String)

/-- What is left of a text up to and including the first occurrence of `delimiter`. -/
def upTo? (delimiter : List Char) : List Char → Option (List Char)
  | [] => if delimiter.isEmpty then some [] else none
  | c :: rest =>
    if delimiter.isPrefixOf (c :: rest) then some delimiter
    else (upTo? delimiter rest).map (c :: ·)

/-- The entry of a key below a front: the key itself, or its common front when a delimiter
follows. -/
def entryOf (l : Listing) (key : String) (o : StoredObject) : Entry :=
  match l.delimiter with
  | none => .object key o
  | some d =>
    match upTo? d.toList (key.toList.drop l.keyFront.length) with
    | none => .object key o
    | some rest => .front (l.keyFront ++ String.ofList rest)

def withoutRepeats : List String → List Entry → List Entry
  | _, [] => []
  | seen, .front t :: rest =>
    if seen.contains t then withoutRepeats seen rest
    else .front t :: withoutRepeats (t :: seen) rest
  | seen, e :: rest => e :: withoutRepeats seen rest

def limitObjects : Nat → List Entry → List Entry
  | _, [] => []
  | n, .front t :: rest => .front t :: limitObjects n rest
  | 0, .object .. :: rest => limitObjects 0 rest
  | n + 1, e :: rest => e :: limitObjects n rest

def entries (s : Store) (l : Listing) : List Entry :=
  let below := s.objects.entries.filter fun e => Text.startsWith e.1 l.keyFront
  let all := withoutRepeats [] (below.map fun e => entryOf l e.1 e.2)
  match l.maxItems with
  | none => all
  | some n => limitObjects n.toNat all

/-- A list in pieces of `n`, at least one; the first argument bounds their number. -/
def pieces {α : Type} : Nat → Nat → List α → List (List α)
  | 0, _, l => [l]
  | bound + 1, n, l =>
    if l.length ≤ n then [l] else l.take n :: pieces bound n (l.drop n)

/-- A field that is left out when it has no items. -/
def listField (name : String) (items : List Value) : Fields :=
  if items.isEmpty then [] else [(name, .list items)]

def pageOf (es : List Entry) : Value :=
  .object (
    listField "Contents" (es.filterMap fun
      | .object key o => some (.object [("Key", .text key), ("Size", .int o.content.size),
          ("LastModified", .time o.modified)])
      | .front _ => none) ++
    listField "CommonPrefixes" (es.filterMap fun
      | .front t => some (.object [("Prefix", .text t)])
      | .object .. => none))

def objectPages (s : Store) (l : Listing) : List Page :=
  let es := s.entries l
  (pieces es.length (max 1 s.objectPageSize) es).map fun page => .ok (pageOf page)

/-! ## 2. Uploads -/

/-- The upload comes behind the markers. -/
def isBehind (keyMarker idMarker : Value) (u : StoredUpload) : Except Failure Bool :=
  let incomparable (v : Value) : Except Failure Bool :=
    .error (.unexpected ("'>' not supported between instances of 'str' and '" ++ v.kindName ++ "'"))
  match keyMarker with
  | .text k =>
    if u.key = k then
      match idMarker with
      | .text i => .ok (i < u.id)
      | other => incomparable other
    else .ok (k < u.key)
  | other => incomparable other

def uploadPage (s : Store) (keyFront : Option String) (keyMarker idMarker : Option Value) :
    Except Failure Value := do
  let all := s.inFlight.filter fun u =>
    !s.honourFront || Text.startsWith u.key (keyFront.getD "")
  let behind ← match keyMarker with
    | none => pure all
    | some k => all.filterM (isBehind k (idMarker.getD (.text "")))
  let page := behind.take s.uploadPageSize
  let truncated : Bool := page.length < behind.length
  let next := match truncated, page.getLast? with
    | true, some u => [("NextKeyMarker", Value.text u.key), ("NextUploadIdMarker", .text u.id)]
    | _, _ => []
  return .object (
    listField "Uploads" (page.map fun u => .object (
      [("Key", .text u.key), ("UploadId", .text u.id)] ++
        (u.initiated.map fun t => ("Initiated", Value.time t)).toList)) ++
    [("IsTruncated", .bool truncated)] ++ next)

/-! ## 3. Parts -/

def partPage (s : Store) (u : StoredUpload) (maxParts marker : Int) : Value :=
  let behind := u.parts.entries.filter fun p => marker < p.1
  let page := behind.take maxParts.toNat
  let truncated : Bool := page.length < behind.length
  let items := page.map fun p => Value.object
    [("PartNumber", .int p.1), ("ETag", .text (tag p.2)), ("Size", .int p.2.size)]
  let next := match truncated, page.getLast? with
    | true, some p => [("NextPartNumberMarker", Value.int p.1)]
    | _, _ => []
  .object (listField "Parts" (if s.reverseParts then items.reverse else items) ++
    [("IsTruncated", .bool truncated)] ++ next)

end Store

end ResumableStorage
