/-
  ResumableStorage/Settings/Basic.lean
  ====================================
  **Settings** — the bucket and its credentials, the shape of uploads and listings, and
  what is reported.  Three numbers are checked, in a fixed order; the first that is out
  of bounds is the error.
-/
import ResumableStorage.Text.Numeral

namespace ResumableStorage

/-- Parts other than the last have at least this size. -/
def minChunkSize : Int := 5 * 1024 * 1024

/-- The largest page of a listing. -/
def maxListPageSize : Int := 1000

structure Settings where
  bucket : Option String := none
  endpointUrl : Option String := none
  region : String := "us-east-1"
  accessKeyId : Option String := none
  secretAccessKey : Option String := none
  useSsl : Bool := true
  addressingStyle : String := "path"
  rootDirectory : String := ""
  chunkSizeBytes : Int := 2 * minChunkSize
  presignExpiresSeconds : Int := 1200
  listPageSize : Int := maxListPageSize
  poolMaxIdle : Int := 16
  logLevel : String := "INFO"
  enableMetrics : Bool := true
deriving DecidableEq

/-- Which of the checked numbers is out of bounds. -/
inductive SettingsError where
  | chunkTooSmall (got : Int)
  | pageSizeOutOfBounds
  | presignNotPositive
deriving DecidableEq, Repr

/-- A number that is too long to be written takes the place of the message it belongs to. -/
def SettingsError.message : SettingsError → String
  | chunkTooSmall got =>
    match Text.Numeral.write? got with
    | none => Text.Numeral.lengthMessage Text.Numeral.maxDigits ""
    | some digits => "STORAGE_CHUNK_SIZE_BYTES must be larger than or equal to " ++
        toString minChunkSize ++ " (got " ++ digits ++ ")."
  | pageSizeOutOfBounds =>
    "STORAGE_LIST_PAGE_SIZE must be between 1 and " ++ toString maxListPageSize ++ "."
  | presignNotPositive => "STORAGE_PRESIGN_EXPIRES_SECONDS must be positive."

def Settings.check (s : Settings) : Except SettingsError Settings :=
  if s.chunkSizeBytes < minChunkSize then .error (.chunkTooSmall s.chunkSizeBytes)
  else if s.listPageSize < 1 || maxListPageSize < s.listPageSize then .error .pageSizeOutOfBounds
  else if s.presignExpiresSeconds ≤ 0 then .error .presignNotPositive
  else .ok s

end ResumableStorage
