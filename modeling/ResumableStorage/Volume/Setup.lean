/-
  ResumableStorage/Volume/Setup.lean
  ==================================
  **A volume from settings** — checks what is configured, in a fixed order, and gives
  the connection, the volume and its pool of buffers.
-/
import ResumableStorage.Settings.Connection
import ResumableStorage.Volume.Basic

namespace ResumableStorage

namespace Volume

/-- The bucket of the settings; without one, or with half of the credentials, nothing is
configured. -/
def configuredBucket (s : Settings) : Except Error String := do
  let bucket := s.bucket.getD ""
  if bucket = "" then throw (.notConfigured .bucket)
  if (s.accessKeyId.getD "" = "") ≠ (s.secretAccessKey.getD "" = "") then
    throw (.notConfigured .halfOfCredentials)
  return bucket

/-- The volume of the settings, whatever client stands behind it. -/
def volumeOfSettings (s : Settings) : Except Error Volume := do
  let bucket ← configuredBucket s
  let policy ← (Policy.make? minChunkSize s.chunkSizeBytes).mapError .policy
  return ⟨⟨bucket, s.listPageSize⟩, policy, normalizeRoot s.rootDirectory, s.presignExpiresSeconds⟩

def ofSettings (s : Settings) : Except Error (Connection × Volume) := do
  let volume ← volumeOfSettings s
  return (← Connection.ofSettings s, volume)

def poolOfSettings (m : Machine) (s : Settings) (v : Volume) : Except Error Pool :=
  (Pool.make? m v.policy.chunk (some s.poolMaxIdle)).mapError .pool

/-- The volume and its pool for a client that is given, so that no connection is made. -/
def overClient (m : Machine) (s : Settings) : Except Error (Volume × Pool) := do
  let volume ← volumeOfSettings s
  return (volume, ← poolOfSettings m s volume)

end Volume

end ResumableStorage
