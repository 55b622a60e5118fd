/-
  ResumableStorage/Proofs/Upload/Publication.lean
  ===============================================
  **Objects change only by a commit that returns** — parts that are sent, a close, a
  cancel and a commit that fails leave every object as it was, when failures come before
  the effect of their request.

  A commit can fail in two ways.  When a part fails the writer can be used as before;
  when the completion fails the writer is finished, and the upload was asked to be
  dropped.  In both the commit raises the failure of that request.
-/
import ResumableStorage.Proofs.Upload.Outcomes
import ResumableStorage.Proofs.Upload.Turns

namespace ResumableStorage

/-! ## 1. Commits that fail -/

namespace Turn

/-- The part that was still to be sent has failed; the writer and its buffers are as before. -/
structure FailsToSend (turn : Turn (Disturbed Store)) (e : Error) : Prop where
  writer : turn.writerAfter = turn.writer
  pool : turn.contextAfter.pool = turn.context.pool
  request : ∃ x f, turn.exchanges = [x] ∧ x.request.IsPartOf turn.writer.session ∧
    x.answer = .error f ∧ e = .storage (.failed .uploadPart f)

/-- The completion has failed: the error is its own, and the upload was asked to be dropped, whatever
came of that. -/
structure FailsToComplete (turn : Turn (Disturbed Store)) (e : Error) : Prop where
  phase : turn.writerAfter.phase = .committed
  requests : ∃ sent x y parts f, turn.exchanges = sent ++ [x, y] ∧
    x.request = turn.writer.session.completion parts ∧ x.answer = .error f ∧
    e = .storage (.failed .completeUpload f) ∧ y.request = turn.writer.session.abortion

end Turn

namespace Writer

variable {w w' w₀ : Writer} {c c' c₀ : Context (Disturbed Store)} {op : Operation}
  {result : Except Error Unit} {xs : List (Exchange (Disturbed Store))}
  {turns : List (Turn (Disturbed Store))}

/-! ## 2. One call -/

theorem Sends.not_publishes {α : Type} {answer : Except Error α} (h : Sends w answer w' xs) :
    ∀ x ∈ xs, ¬ x.request.Publishes := by
  intro x hx
  exact Request.not_publishes_of_kind (.inl (h.parts x hx).kind_eq)

/-- A writer that has nothing to repair stays so. -/
theorem Step.settled (h : w.Step c c' op result w' xs) (hrepair : ∀ b, w.repair ≠ .required b) :
    ∀ b, w'.repair ≠ .required b := by
  rcases h.stays_or_repairs with ⟨hsame, -⟩ | ⟨_, b, -, -, hrequired⟩
  · rw [hsame]
    exact hrepair
  · exact absurd hrequired (hrepair b)

/-- A call that is not a commit that returns leaves the objects alone. -/
theorem Step.objects_eq (h : w.Step c c' op result w' xs) (hrepair : ∀ b, w.repair ≠ .required b)
    (hplan : c.service.Within Disturbance.Early) (hasks : c.Asks c' xs)
    (hop : ¬ (op = .commit ∧ result = .ok ())) : c'.store.objects = c.store.objects := by
  have hchain := hasks.chain
  have habort : ∀ {y : Exchange (Disturbed Store)}, y.request = w.session.abortion →
      ¬ y.request.Publishes := by
    intro y hy
    rw [hy]
    exact Request.not_publishes_of_kind (.inr rfl)
  cases h with
  | wroteNothing hdata => exact hchain.objects_eq (by simp)
  | wrote hdata hsettled hsends => exact hchain.objects_eq hsends.not_publishes
  | notRepaired hdata hrequired h hpool => exact absurd hrequired (hrepair _)
  | repaired hdata hrequired h hsends => exact absurd hrequired (hrepair _)
  | closed hsends => exact hchain.objects_eq hsends.not_publishes
  | committedBefore hsource => exact hchain.objects_eq (by simp)
  | restNotSent hsource hx hpool =>
    obtain ⟨number, body, hr, -⟩ := hx
    have hpart := Request.not_publishes_of_kind (.inl (Request.IsPartOf.kind_eq ⟨number, body, hr⟩))
    exact hchain.objects_eq (by simpa using hpart)
  | committed hsource hrest hsends hx => exact absurd ⟨rfl, rfl⟩ hop
  | @notCommitted e w₁ c₁ sent y hsource hrest hsends hx hy =>
    obtain ⟨m, hsent, hcompleting, hservice⟩ := Exchange.chain_append.mp hchain
    obtain ⟨hmet, hlast⟩ := hservice
    have hplan₁ : (w₁.completing c₁).service.Within Disturbance.Early := by
      rw [hcompleting]
      exact (hsent.within hplan).2
    obtain ⟨f, hanswer, -⟩ := Exchange.answer_of_completion rfl hplan₁.fails_of_early hx
    have hfailed := (w₁.completing c₁).answers.store_of_error hplan₁ hanswer
    have hdropped : c'.store.objects = (w₁.completing c₁).storeAfter.objects := by
      have hobjects := y.changed.objects_eq (habort hy)
      rw [Exchange.store, hmet] at hobjects
      rw [Context.store, hlast]
      exact hobjects
    rw [hdropped, hfailed, hcompleting]
    exact hsent.objects_eq hsends.not_publishes
  | cancelledBefore hsource => exact hchain.objects_eq (by simp)
  | cancelled hsource hy => exact hchain.objects_eq (by simpa using habort hy)

/-- A commit that returns changes no object but the one at the writer's key. -/
theorem Step.find?_of_ne (h : w.Step c c' .commit (.ok ()) w' xs)
    (hplan : c.service.Within Disturbance.Early) (hasks : c.Asks c' xs) {key : String}
    (hkey : key ≠ w.session.key) : c'.store.objects.find? key = c.store.objects.find? key := by
  have hchain := hasks.chain
  cases h with
  | committedBefore hsource => rw [show c'.store.objects = _ from hchain.objects_eq (by simp)]; rfl
  | @committed w₁ c₁ sent hsource hrest hsends hx =>
    obtain ⟨m, hsent, hcompleting, hlast⟩ := Exchange.chain_append.mp hchain
    have hplan₁ : (w₁.completing c₁).service.Within Disturbance.Early := by
      rw [hcompleting]
      exact (hsent.within hplan).2
    obtain ⟨content, hstore⟩ := hx.storeAfter_eq hplan₁.fails_of_early
    have hsame : (w₁.completing c₁).store.objects = c.store.objects := by
      rw [Exchange.store, hcompleting]
      exact hsent.objects_eq hsends.not_publishes
    rw [Context.store, show c'.service = _ from hlast]
    change (w₁.completing c₁).storeAfter.objects.find? key = _
    rw [hstore, Store.complete_find?_of_ne hkey, hsame]

/-- A commit that raises has failed at a part or at the completion. -/
theorem failed_commit_cases {turn : Turn (Disturbed Store)} {e : Error}
    (hphase : turn.writer.phase = .active)
    (hplan : turn.context.service.Within Disturbance.Early) (hop : turn.operation = .commit)
    (hresult : turn.result = .error e) : turn.FailsToSend e ∨ turn.FailsToComplete e := by
  obtain ⟨hasks, hstep⟩ := Turn.step hphase
  have hwithin := (hasks.chain.within hplan).1
  rw [hop, hresult] at hstep
  generalize hw' : turn.writerAfter = w' at hstep
  generalize hxs : turn.exchanges = xs at hstep hwithin
  cases hstep with
  | @restNotSent _ x hsource hx hpool =>
    obtain ⟨f, hanswer, he⟩ := hx.answer (hwithin x (by simp)).fails_of_early
    obtain ⟨number, body, hr, -⟩ := hx
    exact .inl ⟨hw', hpool, x, f, hxs, ⟨number, body, hr⟩, hanswer, he⟩
  | @notCommitted _ w₁ c₁ sent y hsource hrest hsends hx hy =>
    obtain ⟨f, hanswer, he⟩ := Exchange.answer_of_completion rfl
      (hwithin (w₁.completing c₁) (by simp)).fails_of_early hx
    have hr : (w₁.completing c₁).request = turn.writer.session.completion w₁.parts := by
      rw [← hsends.advances.session_eq]
      rfl
    exact .inr ⟨by rw [hw'], sent, w₁.completing c₁, y, w₁.parts, f, hxs, hr, hanswer, he, hy⟩

/-! ## 3. All calls -/

theorem History.settled (hrepair : ∀ b, w₀.repair ≠ .required b)
    (hplan : c₀.service.Within Disturbance.Early) (h : History Disturbance.Early w₀ c₀ turns w c) :
    ∀ b, w.repair ≠ .required b :=
  h.preserves (p := fun w _ _ => ∀ b, w.repair ≠ .required b) hplan hrepair
    (fun hw _ _ _ _ hstep => hstep.settled hw) fun hw _ => hw

/-- In every run of a writer that has nothing to repair, whatever fails before its effect: objects
change in no call but a commit that returns, and in that only at the writer's key.  A commit that
raises leaves the writer as it was when a part has failed; when the completion has failed, it
raises that failure, the upload was asked to be dropped, and the writer is finished. -/
theorem History.objects_change_by_commit (hrepair : ∀ b, w₀.repair ≠ .required b)
    (hplan : c₀.service.Within Disturbance.Early)
    (h : History Disturbance.Early w₀ c₀ turns w c) :
    ∀ turn ∈ turns,
      (¬ (turn.operation = .commit ∧ turn.result = .ok ()) →
        turn.contextAfter.store.objects = turn.context.store.objects) ∧
      (∀ key, key ≠ turn.writer.session.key → turn.contextAfter.store.objects.find? key =
        turn.context.store.objects.find? key) ∧
      (turn.operation = .commit → turn.writer.phase = .active → ∀ e, turn.result = .error e →
        turn.FailsToSend e ∨ turn.FailsToComplete e) := by
  intro turn hturn
  obtain ⟨earlier, hreached⟩ := h.turn_reached hturn
  have hsettled := hreached.settled hrepair hplan
  have hplan' := hreached.within hplan
  have hobjects : ¬ (turn.operation = .commit ∧ turn.result = .ok ()) →
      turn.contextAfter.store.objects = turn.context.store.objects := by
    intro hop
    by_cases hphase : turn.writer.phase = .active
    · obtain ⟨hasks, hstep⟩ := Turn.step hphase
      exact hstep.objects_eq hsettled hplan' hasks hop
    · rw [(Turn.of_finished hphase).2.1]
  refine ⟨hobjects, ?_, fun hop hphase e he => failed_commit_cases hphase hplan' hop he⟩
  intro key hkey
  by_cases hop : turn.operation = .commit ∧ turn.result = .ok ()
  · by_cases hphase : turn.writer.phase = .active
    · obtain ⟨hasks, hstep⟩ := Turn.step hphase
      rw [hop.1, hop.2] at hstep
      exact hstep.find?_of_ne hplan' hasks hkey
    · rw [(Turn.of_finished hphase).2.1]
  · rw [hobjects hop]

/-! ## 4. A completion that fails -/

namespace Sample

/-- The completion fails, and then the dropping of the upload too. -/
def nothingEnds : List (RequestKind × List (Option Disturbance)) :=
  [(.completeUpload, [some ⟨false, .fails (.unreachable "down")⟩]),
    (.abortUpload, [some ⟨false, .fails (.unreachable "down")⟩])]

theorem nothingEnds_early : (context nothingEnds).service.Within Disturbance.Early := by
  intro q hq x hx
  simp only [context, nothingEnds, List.mem_cons, List.not_mem_nil, or_false] at hq
  rcases hq with rfl | rfl <;> simp only [List.mem_singleton, Option.some.injEq] at hx <;>
    rw [hx] <;> exact ⟨.error _ _ _, rfl⟩

def failedCommit : Turn (Disturbed Store) := ⟨.commit, writer, context nothingEnds⟩

end Sample

theorem objects_kept_by_failed_commit :
    (∀ b, Sample.writer.repair ≠ .required b) ∧
      (Sample.context Sample.nothingEnds).service.Within Disturbance.Early ∧
      History Disturbance.Early Sample.writer (Sample.context Sample.nothingEnds)
        [Sample.failedCommit] Sample.failedCommit.writerAfter Sample.failedCommit.contextAfter ∧
      Sample.failedCommit.contextAfter.store.objects =
        Sample.failedCommit.context.store.objects ∧
      ∃ e, Sample.failedCommit.result = .error e ∧ Sample.failedCommit.FailsToComplete e := by
  have hrepair : ∀ b, Sample.writer.repair ≠ .required b := by
    intro b hb
    cases hb
  have hhistory : History Disturbance.Early Sample.writer (Sample.context Sample.nothingEnds)
      [Sample.failedCommit] Sample.failedCommit.writerAfter Sample.failedCommit.contextAfter :=
    .call Sample.failedCommit .start
  have hraised : Sample.failedCommit.result.isOk = false := by decide +kernel
  have hlength : Sample.failedCommit.exchanges.length = 3 := by decide +kernel
  obtain ⟨hobjects, -, hfailed⟩ := History.objects_change_by_commit hrepair Sample.nothingEnds_early
    hhistory Sample.failedCommit (by simp)
  rcases hresult : Sample.failedCommit.result with e | ⟨⟩
  swap
  · rw [hresult] at hraised
    cases hraised
  refine ⟨hrepair, Sample.nothingEnds_early, hhistory, hobjects ?_, e, rfl, ?_⟩
  · rintro ⟨-, hok⟩
    rw [hresult] at hok
    cases hok
  · rcases hfailed rfl rfl e hresult with hsend | hcomplete
    · obtain ⟨x, f, hsingle, -⟩ := hsend.request
      rw [hsingle] at hlength
      cases hlength
    · exact hcomplete

end Writer

end ResumableStorage
