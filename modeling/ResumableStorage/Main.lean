/-
  ResumableStorage/Main.lean
  ==========================
  **The command line** — the cleanup command over the process's environment and the
  settings file `.env` of the working directory.  This build carries no network layer:
  every request is answered as one that does not reach its service.
-/
import ResumableStorage.Cleanup.Run
import Std.Time.DateTime.Timestamp

namespace ResumableStorage

/-- A service that no request reaches. -/
inductive Offline where
  | offline

namespace Offline

def failure : Failure := .unreachable "no connection to the service is available"

instance : Service Offline where
  answer _ s := (.error failure, s)
  pages _ s := (.error failure, s)
  horizon _ := 1

end Offline

namespace CommandLine

def settingNames : List String :=
  ["S3_BUCKET", "S3_ENDPOINT_URL", "S3_REGION", "S3_ACCESS_KEY_ID", "S3_SECRET_ACCESS_KEY",
    "S3_USE_SSL", "S3_ADDRESSING_STYLE", "S3_ROOT_DIRECTORY", "STORAGE_CHUNK_SIZE_BYTES",
    "STORAGE_PRESIGN_EXPIRES_SECONDS", "STORAGE_LIST_PAGE_SIZE", "STORAGE_POOL_MAX_IDLE",
    "LOG_LEVEL", "ENABLE_METRICS"]

def environment : IO Environment := do
  let found ← settingNames.filterMapM fun name => do
    return (← IO.getEnv name).map fun value => (name, value)
  return Keyed.ofList found

def settingsFile : IO (Option Bytes) := do
  try return some (← IO.FS.readBinFile ".env")
  catch _ => return none

/-- This build writes numbers of any length and makes what buffers it is asked for. -/
def machine : Machine := .unlimited

def help : String :=
  "usage: " ++ Cleanup.program ++ " [-h] [--prefix PREFIX] [--hours HOURS] [--dry-run]\n"

end CommandLine

end ResumableStorage

open ResumableStorage in
def main (argv : List String) : IO UInt32 := do
  let now : Instant := (← Std.Time.Timestamp.now).toNanosecondsSinceUnixEpoch.val.fdiv 1000
  let src : SettingsSource :=
    { environment := ← CommandLine.environment, file := ← CommandLine.settingsFile }
  if Cleanup.parse argv matches .ok .help then IO.print CommandLine.help
  let outcome := Cleanup.run CommandLine.machine argv src now Offline.offline
  outcome.stderr.forM fun line => IO.eprintln line
  IO.print outcome.stdout
  match outcome.result with
  | .ok status => return UInt32.ofNat status
  | .error e =>
    IO.eprintln e.message
    return 1
