/-
  ResumableStorage/Volume/Basic.lean
  ==================================
  **Volumes** — a volume lays paths, separated by slashes, over the keys of one bucket,
  below a root that ends in a slash unless it is empty.  Slashes at the front of a path
  do not matter.  A path is a directory when some key goes on behind it and a slash;
  directories are not stored.
-/
import ResumableStorage.Upload.Writer.Finish

namespace ResumableStorage

structure Volume where
  bucket : Bucket
  policy : Policy
  root : String
  presignSeconds : Int := 1200

structure PathInfo where
  path : String
  size : Int
  modified : Value
  isDirectory : Bool

namespace Volume

def kindName : String := "s3"

/-- The root for a directory: without slashes at its ends, then with one at its end unless nothing
is left. -/
def normalizeRoot (directory : String) : String :=
  let root := Text.strip directory '/'
  if root = "" then "" else root ++ "/"

/-! ## 1. Paths and keys -/

def key (v : Volume) (path : String) : String :=
  v.root ++ Text.stripFront path '/'

/-- A key that can only be that of a directory. -/
def isDirectoryKey (key : String) : Bool :=
  key = "" || Text.endsWithChar key '/'

/-- The front of all keys below a key. -/
def below (key : String) : String :=
  if isDirectoryKey key then key else key ++ "/"

def frontOf (v : Volume) (path : String) : String :=
  below (v.key path)

def pathOf (v : Volume) (key : String) : String :=
  "/" ++ Text.dropFront key v.root.length

theorem root_prefix_key (v : Volume) (path : String) : Text.startsWith (v.key path) v.root = true :=
  Text.startsWith_iff.2 ⟨_, rfl⟩

theorem key_prefix_below (key : String) : Text.startsWith (below key) key = true := by
  unfold below
  split
  · exact Text.startsWith_self key
  · exact Text.startsWith_iff.2 ⟨_, rfl⟩

variable {σ : Type} [Service σ]

/-! ## 2. Contents -/

def content (v : Volume) (path : String) : Run σ Bytes := do
  let body ← Run.notFoundAs path (Client.getObject v.bucket.name (v.key path))
  Stream.drain body

def putContent (v : Volume) (path : String) (content : Bytes) : Run σ Unit :=
  Client.putObject v.bucket.name (v.key path) content opaqueContent

/-- The body of what a path holds from `offset` on; nothing is left at its end or behind. -/
def reader (v : Volume) (path : String) (offset : Int) : Run σ Stream := do
  if offset < 0 then throw (.invalidOffset path offset)
  match ← Run.attempt (Client.getRange v.bucket.name (v.key path) offset none) with
  | .ok body => Run.decoded (Stream.ofValue body)
  | .error (.storage e) =>
    if e.isPastEnd then return .nothing
    throw ((Error.storage e).named path)
  | .error e => throw e

/-- A writer whose content is stored at a path once it is committed.  With `append` it goes on with
the upload that a closed writer left. -/
def writer (v : Volume) (path : String) (append : Bool) : Run σ Writer := do
  let found ← Run.attempt (v.bucket.session (v.key path) append)
  match found with
  | .error (.pathNotFound _) => throw (.pathNotFound path)
  | .error e => throw e
  | .ok (s, parts) =>
    match Writer.make? v.policy (← get).pool s parts with
    | .ok w => return w
    | .error e => throw e

/-! ## 3. Paths -/

def statObject (v : Volume) (path : String) : Run σ (Option PathInfo) := do
  let key := v.key path
  if isDirectoryKey key then return none
  match ← Run.attempt (Client.headObject v.bucket.name key) with
  | .ok head => return some ⟨path, head.size, head.modified, false⟩
  | .error e =>
    match e.isNotFound with
    | .ok true => return none
    | .ok false => throw e
    | .error m => throw (.malformed m)

/-- What is at a path: an object, else a directory when there is something below it. -/
def stat (v : Volume) (path : String) : Run σ PathInfo := do
  match ← v.statObject path with
  | some info => return info
  | none =>
    let listing ← Client.listObjects v.bucket.name (v.frontOf path) none (some 1)
    if listing.objects.isEmpty then throw (.pathNotFound path)
    return ⟨path, 0, .null, true⟩

def list (v : Volume) (path : String) : Run σ (List String) := do
  let listing ← Client.listObjects v.bucket.name (v.frontOf path) (some "/") none
  return listing.objects.map (fun o => v.pathOf o.key) ++
    listing.fronts.map fun front => v.pathOf (Text.stripEnd front '/')

/-- Moves an object: it is copied, then deleted where it was. -/
def move (v : Volume) (source dest : String) : Run σ Unit := do
  let sourceKey := v.key source
  Run.notFoundAs source (Client.copyObject v.bucket.name sourceKey (v.key dest))
  Client.deleteObject v.bucket.name sourceKey

def isWithin (root key : String) : Bool :=
  key = root || Text.startsWith key (below root)

/-- Deletes what is at a path and everything below it. -/
def delete (v : Volume) (path : String) : Run σ Unit := do
  let root := v.key path
  let listing ← Client.listObjects v.bucket.name root none none
  let keys := (listing.objects.map ObjectSummary.key).filter (isWithin root)
  if keys.isEmpty then throw (.pathNotFound path)
  Client.deleteObjects v.bucket.name keys
  Run.report (.deleted path keys.length)

/-- The seconds that a link lives: what a value stands for, or as long as links of this volume do
when none is given. -/
def lifetime (v : Volume) : Value → Except Malformed Int
  | .null => .ok v.presignSeconds
  | given => given.toInt

/-- A link for reading a path without credentials; the methods are those of a read. -/
def urlFor (v : Volume) (path method : String) (expiresIn : Value) : Run σ String := do
  let method := Text.upper method
  if method != "GET" && method != "HEAD" then throw (.unsupportedMethod method)
  Client.presign v.bucket.name (v.key path) (← Run.decoded (v.lifetime expiresIn)) method

end Volume

end ResumableStorage
