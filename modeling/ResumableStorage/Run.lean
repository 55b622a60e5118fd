/-
  ResumableStorage/Run.lean
  =========================
  **Runs against a service** — what every operation works on and how it proceeds.  A
  context holds the service, the pool of buffers, and three records that only grow: what
  was done to the service, what was reported, and the counters.

  A run ends in a value or in an error, and leaves a context in both cases: what was
  done before the error stays done.
-/
import ResumableStorage.Error
import ResumableStorage.Log.Notice
import ResumableStorage.Meters

namespace ResumableStorage

structure Context (σ : Type) where
  service : σ
  pool : Pool
  trace : List Event := []
  notices : List Notice := []
  meters : Meters := {}

abbrev Run (σ : Type) := ExceptT Error (StateM (Context σ))

namespace Run

variable {σ : Type}

/-! ## 1. Records -/

def record (e : Event) : Run σ Unit :=
  modify fun c => { c with trace := c.trace ++ [e] }

def report (n : Notice) : Run σ Unit :=
  modify fun c => { c with notices := c.notices ++ [n] }

def count (f : Meters → Meters) : Run σ Unit :=
  modify fun c => { c with meters := f c.meters }

/-! ## 2. Requests -/

/-- Sends a request; its failure becomes the error of `action`. -/
def send [Service σ] (action : Action) (r : Request) : Run σ Value := do
  record (.sent r)
  let c ← get
  let (answer, service) := Service.answer r c.service
  set { c with service := service }
  match answer with
  | .ok v => return v
  | .error f => throw (.storage (.failed action f))

def listPages [Service σ] (l : Listing) : Run σ (List Page) := do
  record (.listed l)
  let c ← get
  let (answer, service) := Service.pages l c.service
  set { c with service := service }
  match answer with
  | .ok pages => return pages
  | .error f => throw (.storage (.failed .listObjects f))

/-! ## 3. Errors -/

def decoded {α : Type} : Except Malformed α → Run σ α
  | .ok a => return a
  | .error e => throw (.malformed e)

/-- The run, in which a store's word that something does not exist names `path`. -/
def notFoundAs {α : Type} (path : String) (x : Run σ α) : Run σ α :=
  tryCatch x fun e => throw (e.named path)

def attempt {α : Type} (x : Run σ α) : Run σ (Except Error α) :=
  tryCatch (Except.ok <$> x) fun e => pure (.error e)

def execute {α : Type} (x : Run σ α) (c : Context σ) : Except Error α × Context σ :=
  (ExceptT.run x).run c

end Run

end ResumableStorage
