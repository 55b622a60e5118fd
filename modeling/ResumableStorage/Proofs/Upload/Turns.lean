/-
  ResumableStorage/Proofs/Upload/Turns.lean
  =========================================
  **Runs of a writer, with all that was asked** — a history is made of turns, one for
  each call, and of what others do elsewhere between two calls.  From a turn one can tell
  what was asked of the store in it; a history says nothing else about a call than that it
  was made.

  What a run keeps is proved from what one call keeps, and that from the ways in which a
  call can end.
-/
import ResumableStorage.Proofs.Service.Plans
import ResumableStorage.Proofs.Upload.Steps

namespace ResumableStorage

/-! ## 1. Turns -/

/-- A call: the operation, and the writer and the context that it met. -/
structure Turn (σ : Type) where
  operation : Operation
  writer : Writer
  context : Context σ

namespace Turn

variable {σ : Type} [Service σ]

def outcome (turn : Turn σ) : Except Error Unit × Writer × Context σ :=
  turn.operation.run.execute turn.writer turn.context

def result (turn : Turn σ) : Except Error Unit := turn.outcome.1

def writerAfter (turn : Turn σ) : Writer := turn.outcome.2.1

def contextAfter (turn : Turn σ) : Context σ := turn.outcome.2.2

/-- What was asked in the call, each request with the service that it met. -/
def exchanges (turn : Turn σ) : List (Exchange σ) :=
  turn.context.exchanges turn.contextAfter

variable {turn : Turn σ}

/-- The inversion of a turn of a writer in use. -/
theorem step (hphase : turn.writer.phase = .active) :
    turn.context.Asks turn.contextAfter turn.exchanges ∧
      turn.writer.Step turn.context turn.contextAfter turn.operation turn.result turn.writerAfter
        turn.exchanges := by
  have hrun : turn.operation.run.execute turn.writer turn.context =
      (turn.result, turn.writerAfter, turn.contextAfter) := rfl
  obtain ⟨xs, hasks, hstep⟩ := Writer.step_of_run hphase turn.operation hrun
  rw [exchanges, hasks.exchanges_eq]
  exact ⟨hasks, hstep⟩

/-- A finished writer asks nothing and stays as it is. -/
theorem of_finished (hphase : turn.writer.phase ≠ .active) :
    turn.writerAfter = turn.writer ∧ turn.contextAfter = turn.context ∧ turn.exchanges = [] := by
  have hrun : turn.outcome = (.error (.finished turn.writer.phase), turn.writer, turn.context) :=
    Writer.run_of_finished hphase turn.operation
  have hcontext : turn.contextAfter = turn.context := by rw [contextAfter, hrun]
  refine ⟨by rw [writerAfter, hrun], hcontext, ?_⟩
  rw [exchanges, hcontext]
  exact (Context.Asks.refl _).exchanges_eq

theorem asks (turn : Turn σ) : turn.context.Asks turn.contextAfter turn.exchanges := by
  by_cases hphase : turn.writer.phase = .active
  · exact (step hphase).1
  · obtain ⟨-, hcontext, hnothing⟩ := of_finished hphase
    rw [hcontext, hnothing]
    exact .refl _

end Turn

/-! ## 2. Histories -/

namespace Writer

variable {sort : RequestKind → Disturbance → Prop} {w₀ w : Writer}
  {c₀ c : Context (Disturbed Store)} {turns : List (Turn (Disturbed Store))}

/-- The writer and the context that turns lead to, when disturbances are all of one sort. -/
inductive History (sort : RequestKind → Disturbance → Prop) (w₀ : Writer)
    (c₀ : Context (Disturbed Store)) :
    List (Turn (Disturbed Store)) → Writer → Context (Disturbed Store) → Prop
  | start : History sort w₀ c₀ [] w₀ c₀
  | call {turns : List (Turn (Disturbed Store))} (turn : Turn (Disturbed Store))
      (h : History sort w₀ c₀ turns turn.writer turn.context) :
      History sort w₀ c₀ (turns ++ [turn]) turn.writerAfter turn.contextAfter
  | elsewhere {turns : List (Turn (Disturbed Store))} {w : Writer}
      {c c' : Context (Disturbed Store)} (h : History sort w₀ c₀ turns w c)
      (hc : c.Elsewhere w.session.key c') (hplan : c'.service.Within sort) :
      History sort w₀ c₀ turns w c'

theorem History.within (hplan : c₀.service.Within sort) (h : History sort w₀ c₀ turns w c) :
    c.service.Within sort := by
  induction h with
  | start => exact hplan
  | @call turns turn h ih => exact (turn.asks.chain.within ih).2
  | elsewhere h hc hplan' ih => exact hplan'

/-- Every turn was called in a state that a history leads to. -/
theorem History.turn_reached (h : History sort w₀ c₀ turns w c) {turn : Turn (Disturbed Store)}
    (hturn : turn ∈ turns) : ∃ earlier, History sort w₀ c₀ earlier turn.writer turn.context := by
  induction h with
  | start => cases hturn
  | call turn h ih =>
    rcases List.mem_append.mp hturn with hturn | hturn
    · exact ih hturn
    · rw [List.mem_singleton.mp hturn]
      exact ⟨_, h⟩
  | elsewhere h hc hplan ih => exact ih hturn

/-- What one call in use keeps and others leave alone elsewhere is kept by every history, together
with all that was asked. -/
theorem History.preserves {p : Writer → Context (Disturbed Store) →
      List (Exchange (Disturbed Store)) → Prop}
    (hplan : c₀.service.Within sort) (hstart : p w₀ c₀ [])
    (hcall : ∀ {w w' : Writer} {c c' : Context (Disturbed Store)}
      {xs ys : List (Exchange (Disturbed Store))} {op : Operation} {result : Except Error Unit},
      p w c xs → w.phase = .active → c.service.Within sort →
      op.run.execute w c = (result, w', c') → c.Asks c' ys → w.Step c c' op result w' ys →
      p w' c' (xs ++ ys))
    (helsewhere : ∀ {w : Writer} {c c' : Context (Disturbed Store)}
      {xs : List (Exchange (Disturbed Store))},
      p w c xs → c.Elsewhere w.session.key c' → p w c' xs)
    (h : History sort w₀ c₀ turns w c) : p w c (turns.flatMap Turn.exchanges) := by
  induction h with
  | start => exact hstart
  | @call turns turn h ih =>
    rw [List.flatMap_append, List.flatMap_singleton]
    by_cases hphase : turn.writer.phase = .active
    · obtain ⟨hasks, hstep⟩ := Turn.step hphase
      exact hcall ih hphase (h.within hplan) rfl hasks hstep
    · obtain ⟨hwriter, hcontext, hnothing⟩ := Turn.of_finished hphase
      rw [hwriter, hcontext, hnothing, List.append_nil]
      exact ih
  | elsewhere h hc hplan' ih => exact helsewhere ih hc

/-- No call moves the writer to another key. -/
theorem Step.key_eq {σ : Type} [Service σ] {w w' : Writer} {c c' : Context σ} {op : Operation}
    {result : Except Error Unit} {xs : List (Exchange σ)} (h : w.Step c c' op result w' xs) :
    w'.session.key = w.session.key := by
  cases h with
  | wrote hdata hrepair hsends => rw [hsends.advances.session_eq]
  | notRepaired hdata hrepair hrepairs hpool => cases hrepairs <;> rfl
  | repaired hdata hrepair hrepairs hsends =>
    rw [hsends.advances.session_eq]
    cases hrepairs with
    | replaced hclosing hx hcarried => exact hx.key_eq
  | closed hsends => exact congrArg (·.key) hsends.advances.session_eq
  | committed hsource hrest hsends hx => exact congrArg (·.key) hsends.advances.session_eq
  | notCommitted hsource hrest hsends hx hy => exact congrArg (·.key) hsends.advances.session_eq
  | _ => rfl

theorem History.key_eq (hplan : c₀.service.Within sort) (h : History sort w₀ c₀ turns w c) :
    w.session.key = w₀.session.key :=
  h.preserves (p := fun w _ _ => w.session.key = w₀.session.key) hplan rfl
    (fun hw _ _ _ _ hstep => hstep.key_eq.trans hw) fun hw _ => hw

/-- A history is a run of calls. -/
theorem History.reaches (h : History sort w₀ c₀ turns w c) :
    ∃ calls accepted, Reaches w₀ c₀ calls accepted w c := by
  induction h with
  | start => exact ⟨_, _, .start⟩
  | @call turns turn h ih =>
    obtain ⟨calls, accepted, hreaches⟩ := ih
    exact ⟨_, _, hreaches.call turn.operation rfl⟩
  | elsewhere h hc hplan ih =>
    obtain ⟨calls, accepted, hreaches⟩ := ih
    exact ⟨_, _, hreaches.elsewhere hc⟩

/-! ## 3. A resumed writer -/

namespace Sample

def shortPart : Bytes := ⟨#[120]⟩

/-- A writer that was resumed on a part below the floor, so that it has to replace its upload. -/
def resumed : Writer := ofSession policy ⟨"u1", "bucket", "a"⟩ (Part.ofTable (Part.table [shortPart]))

def resumedContext (queues : List (RequestKind × List (Option Disturbance))) :
    Context (Disturbed Store) :=
  { context queues with
    service :=
      ⟨((Store.empty 0).startUpload "a").setParts "u1" (Part.table [shortPart]), queues⟩ }

theorem resumed_opened {queues : List (RequestKind × List (Option Disturbance))}
    (hf : (resumedContext queues).service.FailsOnly) :
    resumed.Opened (resumedContext queues) (Part.table [shortPart]) := by
  have hids := Store.empty_idsInOrder 0
  exact ⟨hf, (hids.startUpload "a").setParts _ _, rfl, ⟨_, Store.upload?_setParts
    (hids.upload?_startUpload "a") _, rfl⟩⟩

/-- The object cannot be read again, when the old upload was completed and a new one created. -/
def noReading : List (RequestKind × List (Option Disturbance)) :=
  [(.getObject, [some ⟨false, .fails (.unreachable "down")⟩])]

theorem noReading_sparesAborts :
    (resumedContext noReading).service.Within Disturbance.SparesAborts := by
  intro q hq x hx
  simp only [resumedContext, noReading, List.mem_singleton] at hq
  subst hq
  simp only [List.mem_singleton, Option.some.injEq] at hx
  rw [hx]
  exact ⟨⟨.error _ _ _, rfl⟩, by decide⟩

def failedRepair : Turn (Disturbed Store) := ⟨.write data, resumed, resumedContext noReading⟩

end Sample

end Writer

end ResumableStorage
