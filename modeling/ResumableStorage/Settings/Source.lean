/-
  ResumableStorage/Settings/Source.lean
  =====================================
  **Where settings come from** — the environment, to which a settings file adds first.
  A text that is missing or blank stands for the default of a number; a number may be
  written in any marked base.  Settings that were once read are kept until they are
  dropped.
-/
import ResumableStorage.Settings.EnvFile
import ResumableStorage.Text.Case

namespace ResumableStorage

namespace Settings

/-- Texts that switch something on, in any case. -/
def affirmative : List String := ["1", "true", "t", "yes", "y", "on"]

def readSwitch (value : Option String) (default : Bool) : Bool :=
  match value with
  | none => default
  | some s => affirmative.contains (Text.lower s)

def readNumber (value : Option String) (default : Int) : Except Error Int :=
  match value with
  | none => .ok default
  | some s =>
    match Text.trim Text.isBlank s.toList with
    | [] => .ok default
    | cs => (Text.Numeral.read .marked (String.ofList cs)).mapError .numeral

def ofEnvironment (env : Environment) : Except Error Settings := do
  let d : Settings := {}
  let chunk ← readNumber (env.find? "STORAGE_CHUNK_SIZE_BYTES") d.chunkSizeBytes
  let presign ← readNumber (env.find? "STORAGE_PRESIGN_EXPIRES_SECONDS") d.presignExpiresSeconds
  let page ← readNumber (env.find? "STORAGE_LIST_PAGE_SIZE") d.listPageSize
  let idle ← readNumber (env.find? "STORAGE_POOL_MAX_IDLE") d.poolMaxIdle
  let s : Settings := {
    bucket := (env.find? "S3_BUCKET").filter (· ≠ "")
    endpointUrl := (env.find? "S3_ENDPOINT_URL").filter (· ≠ "")
    region := (env.find? "S3_REGION").getD d.region
    accessKeyId := env.find? "S3_ACCESS_KEY_ID"
    secretAccessKey := env.find? "S3_SECRET_ACCESS_KEY"
    useSsl := readSwitch (env.find? "S3_USE_SSL") d.useSsl
    addressingStyle := (env.find? "S3_ADDRESSING_STYLE").getD d.addressingStyle
    rootDirectory := (env.find? "S3_ROOT_DIRECTORY").getD d.rootDirectory
    chunkSizeBytes := chunk
    presignExpiresSeconds := presign
    listPageSize := page
    poolMaxIdle := idle
    logLevel := Text.upper ((env.find? "LOG_LEVEL").getD d.logLevel)
    enableMetrics := readSwitch (env.find? "ENABLE_METRICS") d.enableMetrics }
  s.check.mapError .settings

end Settings

/-- An environment, a settings file if there is one, and the settings that were read last. -/
structure SettingsSource where
  environment : Environment
  file : Option Bytes := none
  kept : Option Settings := none

namespace SettingsSource

/-- Reads the settings; the definitions of the file stay in the environment. -/
def load (src : SettingsSource) : Except Error Settings × SettingsSource :=
  let (added, env) : Except Error Unit × Environment := match src.file with
    | none => (.ok (), src.environment)
    | some file => EnvFile.load src.environment file
  (added >>= fun _ => Settings.ofEnvironment env, { src with environment := env })

def get (src : SettingsSource) : Except Error Settings × SettingsSource :=
  match src.kept with
  | some s => (.ok s, src)
  | none =>
    match src.load with
    | (.ok s, src) => (.ok s, { src with kept := some s })
    | (.error e, src) => (.error e, src)

def clear (src : SettingsSource) : SettingsSource :=
  { src with kept := none }

def setVariable (src : SettingsSource) (name : String) (value : Option String) :
    Except Error Unit × SettingsSource :=
  match value with
  | none => (.ok (), { src with environment := src.environment.erase name })
  | some v =>
    match Environment.define src.environment name v with
    | .ok env => (.ok (), { src with environment := env })
    | .error e => (.error (.unsettable e), src)

end SettingsSource

end ResumableStorage
