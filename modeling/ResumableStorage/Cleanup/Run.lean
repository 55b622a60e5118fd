/-
  ResumableStorage/Cleanup/Run.lean
  =================================
  **The cleanup command** — drops the stale uploads of the configured volume and tells
  how many there were.  The arguments are read first, then the settings; logging is set
  up before anything else is tried, and the service is asked last.
-/
import ResumableStorage.Cleanup.Arguments
import ResumableStorage.Log.Routing
import ResumableStorage.Settings.Source
import ResumableStorage.Volume.Setup
import ResumableStorage.Volume.Stale

namespace ResumableStorage

namespace Volume

/-- Drops the stale uploads below a path, names each of them, and tells how many there were. -/
def cleanUp {σ : Type} [Service σ] (v : Volume) (now : Instant) (path : String) (age : Option Age)
    (dryRun : Bool) : Run σ Nat := do
  let stale ← v.abortUploads now path age dryRun
  stale.forM fun u => Run.report (.cleaned dryRun u)
  return stale.length

end Volume

namespace Cleanup

structure Outcome (σ : Type) where
  /-- The exit status, or the error that ended the run. -/
  result : Except Error Nat
  stdout : String := ""
  stderr : List String := []
  /-- How the service was to be reached, once that was settled. -/
  connection : Option Connection := none
  trace : List Event := []
  service : σ

def program : String := "abort_stale_uploads.py"

/-- The last line of the report of a wrong use. -/
def usageLine (e : UsageError) : String :=
  ((Text.lines (program ++ ": error: " ++ e.message ++ "\n")).getLast?).getD ""

def summary (dryRun : Bool) (count : Nat) : String :=
  if dryRun then "[DRY-RUN] " ++ toString count ++ " uploads would be aborted\n"
  else "Aborted " ++ toString count ++ " uploads\n"

/-- What is settled before the service is asked for anything. -/
structure Plan where
  routing : Routing
  age : Option Age
  connection : Connection
  volume : Volume

def Given.get {α : Type} (g : Given α) (option : ValuelessOption) : Except Error α :=
  match g with
  | .value a => .ok a
  | .nothing => .error (.valueless option)

/-- Settles the plan of a run; the first step that fails is the error. -/
def plan (s : Settings) (o : Options) : Except Error Plan := do
  let routing ← Routing.setup s.logLevel
  let age ← o.hours.mapM fun hours => do Age.ofHours? (← hours.get .hours)
  let (connection, volume) ← Volume.ofSettings s
  return ⟨routing, age, connection, volume⟩

/-- The pool of a run and the path below which it looks. -/
def stage (m : Machine) (s : Settings) (p : Plan) (o : Options) : Except Error (Pool × String) := do
  let pool ← Volume.poolOfSettings m s p.volume
  return (pool, ← o.path.get .path)

variable {σ : Type} [Service σ]

def runOptions (m : Machine) (o : Options) (src : SettingsSource) (now : Instant) (s : σ) :
    Outcome σ :=
  match src.get.1 with
  | .error e => { result := .error e, service := s }
  | .ok settings =>
    match plan settings o with
    | .error e => { result := .error e, service := s }
    | .ok p =>
      match stage m settings p o with
      | .error e => { result := .error e, connection := p.connection, service := s }
      | .ok (pool, path) =>
        let (result, c) := (p.volume.cleanUp now path p.age o.dryRun).execute
          { service := s, pool := pool }
        { result := result.map fun _ => 0
          stdout := match result with
            | .ok count => summary o.dryRun count
            | .error _ => ""
          stderr := p.routing.lines m (c.notices.map Notice.toRecord)
          connection := p.connection
          trace := c.trace
          service := c.service }

def run (m : Machine) (argv : List String) (src : SettingsSource) (now : Instant) (s : σ) :
    Outcome σ :=
  match parse argv with
  | .error e => { result := .ok 2, stderr := [usageLine e], service := s }
  | .ok .help => { result := .ok 0, service := s }
  | .ok (.run o) => runOptions m o src now s

end Cleanup

end ResumableStorage
