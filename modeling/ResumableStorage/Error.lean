/-
  ResumableStorage/Error.lean
  ===========================
  **Errors** — by cause.  A storage error is the failure of one action of the client,
  or an answer that lacks what the protocol requires; it belongs to one of four
  families.  The others arise above the client, or come up through it unchanged.
  The wording stands in the `message` functions and nowhere else.
-/
import ResumableStorage.Service.Basic
import ResumableStorage.Settings.Basic
import ResumableStorage.Upload.Policy
import ResumableStorage.Upload.Pool

namespace ResumableStorage

/-! ## 1. Storage errors -/

/-- What the client was doing when a request failed. -/
inductive Action where
  | createUpload | uploadPart | copyPart | listParts | listUploads | completeUpload | abortUpload
  | getObject | getRange | putObject | headObject | deleteObject | deleteObjects | copyObject
  | listObjects | presign
deriving DecidableEq, Repr

def Action.describe : Action → String
  | createUpload => "create multipart upload"
  | uploadPart => "upload part"
  | copyPart => "copy part"
  | listParts => "list parts"
  | listUploads => "list multipart uploads"
  | completeUpload => "complete multipart upload"
  | abortUpload => "abort multipart upload"
  | getObject => "get object"
  | getRange => "get object range"
  | putObject => "put object"
  | headObject => "get object metadata"
  | deleteObject => "delete object"
  | deleteObjects => "delete objects"
  | copyObject => "copy object"
  | listObjects => "list objects"
  | presign => "generate download URL"

inductive StorageFamily where
  | backend
  | transport
  /-- An answer lacks what the protocol requires. -/
  | protocolViolation
  | general
deriving DecidableEq, Repr

inductive StorageError where
  | failed (action : Action) (cause : Failure)
  /-- A page of an object listing could not be decoded. -/
  | unreadableListing (cause : Malformed)
  /-- Some keys of a batch were not deleted; the first of them is described. -/
  | undeleted (count : Nat) (key message code : Value)
  | noUploadId
  | noPartTag (number : Int)
  | noCopyTag (number : Int)
  | emptyUrl
  | unsignable (method : String)
  | noKeyMarker
  | noPartMarker
  /-- An object that was read again is not as long as the parts it was made of. -/
  | lengthChanged (key : String) (expected : Int) (read : Nat)

namespace StorageError

def message : StorageError → String
  | failed action cause => "Failed to " ++ action.describe ++ ": " ++ cause.text
  | unreadableListing cause => "Failed to " ++ Action.listObjects.describe ++ ": " ++ cause.message
  | undeleted count key message _ => "Failed to delete " ++ toString count ++
      " object(s), first: " ++ key.display ++ " (" ++ message.display ++ ")"
  | noUploadId => "S3 response missing UploadId"
  | noPartTag number => "S3 response missing ETag for part " ++ toString number
  | noCopyTag number => "S3 response missing ETag for copied part " ++ toString number
  | emptyUrl => "Generated presigned URL is empty"
  | unsignable method => "Cannot presign " ++ method ++ " requests"
  | noKeyMarker => "Truncated multipart upload listing without a next key marker"
  | noPartMarker => "Truncated part listing without a next part number marker"
  | lengthChanged key expected read => "expected " ++ toString expected ++ " bytes for " ++ key ++
      ", read " ++ toString read

def family : StorageError → StorageFamily
  | failed _ (.refused _) => .backend
  | failed _ (.unreachable _) => .transport
  | failed _ (.unexpected _) | failed _ (.unreadable _) => .general
  | unreadableListing _ => .general
  | undeleted .. => .backend
  | unsignable _ => .general
  | noUploadId | noPartTag _ | noCopyTag _ | emptyUrl | noKeyMarker | noPartMarker
  | lengthChanged .. => .protocolViolation

def status : StorageError → Value
  | failed _ (.refused r) => r.status
  | _ => .null

def code : StorageError → Value
  | failed _ (.refused r) => r.code
  | undeleted _ _ _ code => code
  | _ => .null

/-- The codes by which a store says that something does not exist. -/
def notFoundCodes : List String := ["404", "NoSuchKey", "NoSuchUpload", "NotFound"]

def isNotFound (e : StorageError) : Except Malformed Bool :=
  if e.family ≠ .backend then .ok false
  else if e.status.isInt 404 then .ok true
  else match e.code with
    | .text c => .ok (notFoundCodes.contains c)
    | .list (_ :: _) | .object (_ :: _) =>
      .error (.wrongKind ("unhashable type: '" ++ e.code.kindName ++ "'"))
    | _ => .ok false

def isPastEnd (e : StorageError) : Bool :=
  e.family = .backend && (e.status.isInt 416 || match e.code with
    | .text c => c == "InvalidRange"
    | _ => false)

end StorageError

/-! ## 2. All errors -/

/-- The states of a writer: in use, or finished in one of three ways. -/
inductive Phase where
  | active
  | closed
  | committed
  | cancelled
deriving DecidableEq, Repr

def Phase.name : Phase → String
  | active => "open"
  | closed => "closed"
  | committed => "committed"
  | cancelled => "cancelled"

inductive Unconfigured where
  | bucket
  | halfOfCredentials
deriving DecidableEq, Repr

inductive VariableError where
  | zero
  | equalsSign
  | nameless
deriving DecidableEq, Repr

/-- An option of the cleanup that was given without a value. -/
inductive ValuelessOption where
  | path
  | hours
deriving DecidableEq, Repr

inductive Error where
  | storage (e : StorageError)
  | malformed (e : Malformed)
  /-- A text given by the caller is no integer. -/
  | numeral (e : Text.NumeralError)
  | interrupted (e : ReadFailure)
  | pathNotFound (path : String)
  | invalidOffset (path : String) (offset : Int)
  | unsupportedMethod (method : String)
  | finished (phase : Phase)
  | notConfigured (missing : Unconfigured)
  | policy (e : PolicyError)
  | pool (e : PoolError)
  /-- A writer's pool lends buffers of another size than its chunks. -/
  | capacityMismatch
  | settings (e : SettingsError)
  | addressingStyle (style : String)
  | unknownLogLevel
  | unsettable (e : VariableError)
  | undecodable
  | timeOutOfRange
  | valueless (option : ValuelessOption)
  /-- A listing went on beyond every bound that the service set for itself. -/
  | endlessListing

namespace Error

def message : Error → String
  | storage e => e.message
  | malformed e => e.message
  | numeral e => e.message
  | interrupted e => e.text
  | pathNotFound path => "Path not found: " ++ path
  | invalidOffset path offset => "Invalid offset " ++ toString offset ++ " for path: " ++ path
  | unsupportedMethod method => "Unsupported method: " ++ method
  | finished phase => "already " ++ phase.name
  | notConfigured .bucket => "S3_BUCKET is required"
  | notConfigured .halfOfCredentials =>
    "S3_ACCESS_KEY_ID and S3_SECRET_ACCESS_KEY must be set together"
  | policy e => e.message
  | pool e => e.message
  | capacityMismatch => "buffer pool capacity must equal the chunk size"
  | settings e => e.message
  | addressingStyle style => "S3 addressing style " ++ style ++
      " is invalid. Valid options are: 'auto', 'virtual', and 'path'"
  | unknownLogLevel => "Unable to configure logger 'storage.scripts'"
  | unsettable .zero => "embedded null byte"
  | unsettable .equalsSign => "illegal environment variable name"
  | unsettable .nameless => "the name of a variable is empty"
  | undecodable => "text is not valid UTF-8"
  | timeOutOfRange => "date value out of range"
  | valueless .path => "no path is given"
  | valueless .hours => "no number of hours is given"
  | endlessListing => "listing does not end"

def isNotFound : Error → Except Malformed Bool
  | storage e => e.isNotFound
  | _ => .ok false

def named (path : String) (e : Error) : Error :=
  match e.isNotFound with
  | .ok true => .pathNotFound path
  | .ok false => e
  | .error m => .malformed m

end Error

end ResumableStorage
