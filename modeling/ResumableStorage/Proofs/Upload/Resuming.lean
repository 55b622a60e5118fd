/-
  ResumableStorage/Proofs/Upload/Resuming.lean
  ============================================
  **What a repair carries over** — after any number of repairs that have failed, one that
  succeeds has carried the whole of the old upload over.  What is accepted from then on is
  stored by a commit in which nothing fails, but for the last chunk when the last write of
  at least one byte has raised.
-/
import ResumableStorage.Proofs.Upload.Retries

namespace ResumableStorage

variable {w w' w₀ : Writer} {c c' c₀ : Context (Disturbed Store)} {op : Operation}
  {result : Except Error Unit} {xs ys : List (Exchange (Disturbed Store))}
  {turns : List (Turn (Disturbed Store))} {t : Keyed Int Bytes} {completed : Bool}

/-! ## 1. Calls in which nothing fails -/

namespace Writer

theorem Sends.failed_request {e : Error} (h : Sends w (.error e : Except Error Unit) w' ys)
    (hwithin : ∀ x ∈ ys, x.service.Within Disturbance.Fails) :
    ∃ x ∈ ys, ∃ f, x.answer = .error f := by
  obtain ⟨x, hlast, hx⟩ := h.failed e rfl
  have hmem := List.mem_of_getLast? hlast
  obtain ⟨f, hanswer, -⟩ := hx.answer (hwithin x hmem)
  exact ⟨x, hmem, f, hanswer⟩

/-- A call of a writer that has nothing to repair, other than a cancel, raises only when a request
has failed. -/
theorem Step.failed_request {e : Error} (h : w.Step c c' op (.error e) w' ys)
    (hsettled : ∀ b, w.repair ≠ .required b) (hop : op ≠ .cancel)
    (hwithin : ∀ x ∈ ys, x.service.Within Disturbance.Fails) :
    ∃ x ∈ ys, ∃ f, x.answer = .error f := by
  cases h with
  | wrote hdata hrepair hsends => exact hsends.failed_request hwithin
  | notRepaired hdata hrepair hrepairs hpool => exact absurd hrepair (hsettled _)
  | repaired hdata hrepair hrepairs hsends => exact absurd hrepair (hsettled _)
  | closed hsends => exact hsends.failed_request hwithin
  | @restNotSent _ x hsource hx hpool =>
    obtain ⟨f, hanswer, -⟩ := hx.answer (hwithin x (by simp))
    exact ⟨x, by simp, f, hanswer⟩
  | @notCommitted _ w₁ c₁ sent y hsource hrest hsends hx hy =>
    have hmem : w₁.completing c₁ ∈ sent ++ [w₁.completing c₁, y] := by simp
    obtain ⟨f, hanswer, -⟩ := Exchange.answer_of_completion rfl (hwithin _ hmem) hx
    exact ⟨_, hmem, f, hanswer⟩
  | cancelled hsource hy => exact absurd rfl hop

end Writer

namespace Turn

variable {turn repairing : Turn (Disturbed Store)} {further : List (Turn (Disturbed Store))}

/-- Every request of the call was answered without an error. -/
def NothingFails (turn : Turn (Disturbed Store)) : Prop :=
  ∀ x ∈ turn.exchanges, x.answer.isOk = true

instance (turn : Turn (Disturbed Store)) : Decidable turn.NothingFails :=
  inferInstanceAs (Decidable (∀ x ∈ turn.exchanges, x.answer.isOk = true))

theorem NothingFails.returns (h : turn.NothingFails) (hphase : turn.writer.phase = .active)
    (hsettled : ∀ b, turn.writer.repair ≠ .required b) (hop : turn.operation ≠ .cancel)
    (hplan : turn.context.service.Within Disturbance.Fails) : turn.result = .ok () := by
  obtain ⟨hasks, hstep⟩ := step hphase
  rcases hresult : turn.result with e | ⟨⟩
  · rw [hresult] at hstep
    obtain ⟨x, hx, f, hanswer⟩ := hstep.failed_request hsettled hop (hasks.chain.within hplan).1
    have hok := h x hx
    rw [hanswer] at hok
    cases hok
  · rfl

def call (turn : Turn (Disturbed Store)) : Call := ⟨turn.operation, turn.result.isOk⟩

/-- A repair succeeds in a call, and those after it are writes. -/
structure RepairsBefore (repairing : Turn (Disturbed Store))
    (further : List (Turn (Disturbed Store))) : Prop where
  before : repairing.writer.repair ≠ .done
  after : repairing.writerAfter.repair = .done
  writes : ∀ turn ∈ further, turn.call.isWrite = true

/-! ## 2. The bytes that were accepted -/

/-- A write whose repair does not succeed accepts nothing, and neither does any other call. -/
theorem accepted_of_not_done (hphase : turn.writer.phase = .active)
    (hrequired : ∃ b, turn.writer.repair = .required b) (hnot : turn.writerAfter.repair ≠ .done) :
    turn.accepted = ByteArray.empty := by
  obtain ⟨b, hrepair⟩ := hrequired
  rcases hop : turn.operation with data | _ | _ | _
  · rcases hresult : turn.result with e | ⟨⟩
    · rcases failed_repair_cases hphase hrepair hop hresult with hfails | hfails
      · exact hfails.accepted
      · exact absurd hfails.repair hnot
    · have hstep := (step hphase).2
      rw [hop, hresult] at hstep
      generalize hw' : turn.writerAfter = w' at hstep hnot
      generalize turn.exchanges = xs at hstep
      cases hstep with
      | wroteNothing hdata =>
        simpa [accepted, hop, hresult, Operation.accepted, Except.isOk, Except.toBool] using
          ByteArray.size_eq_zero_iff.mp hdata
      | wrote hdata hsettled hsends => exact absurd hrepair (hsettled b)
      | @repaired _ _ _ w₁ _ asked sent hdata hrequired hrepairs hsends =>
        have hdone : w₁.repair = .done := by
          cases hrepairs
          rfl
        exact absurd (hsends.advances.repair_eq.trans hdone) hnot
  all_goals rw [accepted, hop]; rfl

theorem accepted_of_finished (hphase : turn.writer.phase ≠ .active) :
    turn.accepted = ByteArray.empty := by
  have hresult : turn.result = .error (.finished turn.writer.phase) := by
    rw [result, outcome, Writer.run_of_finished hphase]
  rw [accepted, (of_finished hphase).1, hresult]
  cases turn.operation <;> simp [Operation.accepted, Except.isOk, Except.toBool]

end Turn

/-! ## 3. After a repair -/

namespace Writer

/-- Until a repair has succeeded no byte is accepted. -/
theorem History.nothing_accepted (hopen : w₀.Opened c₀ t) (hrepair : w₀.repair = .required false)
    (hplan : c₀.service.Within Disturbance.Fails)
    (h : History Disturbance.Fails w₀ c₀ turns w c) (hnot : w.repair ≠ .done) :
    Bytes.concat (turns.map Turn.accepted) = ByteArray.empty := by
  induction h with
  | start => rfl
  | @call turns turn h ih =>
    rw [List.map_append, List.map_singleton, Bytes.concat_append_singleton]
    by_cases hphase : turn.writer.phase = .active
    · obtain ⟨hasks, hstep⟩ := Turn.step hphase
      have hbefore : turn.writer.repair ≠ .done := fun hdone => hnot (hstep.of_done hdone).1
      rcases (h.retrying hopen hrepair hplan).state hphase with hwaiting | hmoved
      · obtain ⟨completed, hstale, -⟩ := hwaiting.stale
        rw [ih hbefore, Turn.accepted_of_not_done hphase ⟨completed, hstale.repair⟩ hnot]
        rfl
      · exact absurd hmoved.repair hbefore
    · rw [Turn.accepted_of_finished hphase, ih]
      · rfl
      · rwa [(Turn.of_finished hphase).1] at hnot
  | elsewhere h hc hplan' ih => exact ih hnot

/-- A write whose repair succeeds goes on with all that the old upload held. -/
theorem Stale.write_flowing (h : w.Stale c t completed) (hphase : w.phase = .active) {data : Bytes}
    (hdata : data.size ≠ 0) (hrun : (Operation.write data).run.execute w c = (result, w', c'))
    (hdone : w'.repair = .done) :
    ∃ bodies spare, w'.Flowing c'
      (Bytes.concat t.values ++ (Operation.write data).accepted result.isOk w w')
      (!result.isOk) bodies spare := by
  simp only [Operation.run, Writing.execute_discard] at hrun
  rcases write_of_stale hphase h hdata with
    ⟨e, w₁, c₁, completed', hwrite, -, hw₁, -⟩ |
    ⟨w₁, c₁, answer, w₂, c₂, sent, taken, spare', -, hreplaced, hwrite, htook⟩
  · rw [hwrite] at hrun
    obtain ⟨-, rfl, -⟩ := hrun
    rw [hw₁] at hdone
    cases hdone
  · rw [hwrite] at hrun
    obtain ⟨rfl, rfl, rfl⟩ := hrun
    obtain ⟨slots, hw₁⟩ := hreplaced.writer
    have hsize : w₁.size = w.size := by rw [hw₁]
    have hok : (answer.map fun _ => ()).isOk = answer.isOk := by cases answer <;> rfl
    have haccepted : (Operation.write data).accepted answer.isOk w w' = data.extract 0 taken := by
      rw [← htook.accepted_eq]
      simp only [Operation.accepted, hsize]
    rw [hok, haccepted]
    exact ⟨_, spare', htook.flowing (hreplaced.holds h) (by rw [hw₁]; exact hphase)
      (by simp [hw₁]) (.inl rfl)⟩

theorem Flowing.turn {turn : Turn (Disturbed Store)} {content : Bytes} {raised : Bool}
    {bodies spare : List Bytes}
    (h : turn.writer.Flowing turn.context content raised bodies spare)
    (hwrite : turn.call.isWrite = true) :
    ∃ bodies' spare', turn.writerAfter.Flowing turn.contextAfter (content ++ turn.accepted)
      (turn.call.raisedAfter raised) bodies' spare' := by
  have hrun : turn.operation.run.execute turn.writer turn.context =
      (turn.result, turn.writerAfter, turn.contextAfter) := rfl
  rcases hop : turn.operation with data | _ | _ | _
  · rw [hop] at hrun
    rcases hwritten : (Writer.write data).execute turn.writer turn.context with ⟨answer, w₁, c₁⟩
    simp only [Operation.run, Writing.execute_discard, hwritten, Prod.mk.injEq] at hrun
    obtain ⟨hresult, rfl, rfl⟩ := hrun
    have hok : turn.result.isOk = answer.isOk := by
      rw [← hresult]
      cases answer <;> rfl
    rw [Turn.accepted, Turn.call, hop, hok]
    exact h.write data hwritten
  all_goals
    rw [Turn.call, hop] at hwrite
    cases hwrite

/-- Only a write of at least one byte repairs. -/
theorem Step.write_of_done (h : w.Step c c' op result w' ys) (hbefore : w.repair ≠ .done)
    (hafter : w'.repair = .done) : ∃ data, op = .write data ∧ data.size ≠ 0 := by
  rcases h.stays_or_repairs with ⟨hsame, -⟩ | ⟨data, _, hop, hdata, -⟩
  · exact absurd (hsame.symm.trans hafter) hbefore
  · exact ⟨data, hop, hdata⟩

/-- The call in which a repair succeeds. -/
theorem History.flowing_of_repair {turn : Turn (Disturbed Store)} (hopen : w₀.Opened c₀ t)
    (hrepair : w₀.repair = .required false) (hplan : c₀.service.Within Disturbance.Fails)
    (h : History Disturbance.Fails w₀ c₀ turns turn.writer turn.context)
    (hbefore : turn.writer.repair ≠ .done) (hafter : turn.writerAfter.repair = .done) :
    ∃ bodies spare, turn.writerAfter.Flowing turn.contextAfter
      (Bytes.concat t.values ++ Bytes.concat ((turns ++ [turn]).map Turn.accepted))
      (Call.lastRaised [turn.call]) bodies spare := by
  have hphase : turn.writer.phase = .active := by
    by_contra hfinished
    rw [(Turn.of_finished hfinished).1] at hafter
    exact hbefore hafter
  obtain ⟨data, hop, hdata⟩ := (Turn.step hphase).2.write_of_done hbefore hafter
  have hrun : (Operation.write data).run.execute turn.writer turn.context =
      (turn.result, turn.writerAfter, turn.contextAfter) := by
    rw [← hop]
    rfl
  have hraised : Call.lastRaised [turn.call] = !turn.result.isOk := by
    simp [Call.lastRaised, Call.raisedAfter, Turn.call, hop, hdata]
  rw [List.map_append, List.map_singleton, Bytes.concat_append_singleton,
    h.nothing_accepted hopen hrepair hplan hbefore, ByteArray.empty_append, Turn.accepted, hop,
    hraised]
  rcases (h.retrying hopen hrepair hplan).state hphase with hwaiting | hmoved
  · obtain ⟨completed, hstale, -⟩ := hwaiting.stale
    exact hstale.write_flowing hphase hdata hrun hafter
  · exact absurd hmoved.repair hbefore

/-- Between a repair and the commit the writer holds all that the old upload held, and all that was
accepted since.  It is stuck when the last write of at least one byte has raised. -/
theorem History.flowing_after_repair (hopen : w₀.Opened c₀ t)
    (hrepair : w₀.repair = .required false) (hplan : c₀.service.Within Disturbance.Fails)
    (h : History Disturbance.Fails w₀ c₀ turns w c) {before further : List (Turn (Disturbed Store))}
    {repairing : Turn (Disturbed Store)} (hturns : turns = before ++ repairing :: further)
    (hrepairs : repairing.RepairsBefore further) :
    (∃ bodies spare, w.Flowing c (Bytes.concat t.values ++ Bytes.concat (turns.map Turn.accepted))
        (Call.lastRaised ((repairing :: further).map Turn.call)) bodies spare) ∧
      ∀ turn ∈ further, turn.NothingFails → turn.result = .ok () := by
  induction h generalizing further with
  | start => simp at hturns
  | @call turns turn h ih =>
    rcases List.eq_nil_or_concat further with rfl | ⟨front, last, rfl⟩
    · obtain ⟨-, hlast⟩ := List.append_inj' hturns rfl
      obtain rfl := List.singleton_inj.mp hlast
      exact ⟨h.flowing_of_repair hopen hrepair hplan hrepairs.before hrepairs.after, by simp⟩
    · rw [List.concat_eq_append] at hturns hrepairs ⊢
      rw [← List.cons_append, ← List.append_assoc] at hturns
      obtain ⟨hfront, hlast⟩ := List.append_inj' hturns rfl
      obtain rfl := List.singleton_inj.mp hlast
      have hwrite : turn.call.isWrite = true := hrepairs.writes turn (by simp)
      obtain ⟨⟨bodies, spare, hflowing⟩, hreturned⟩ := ih hfront
        ⟨hrepairs.before, hrepairs.after, fun turn hturn => hrepairs.writes turn (by simp [hturn])⟩
      rw [List.map_append, List.map_singleton, Bytes.concat_append_singleton,
        ← ByteArray.append_assoc, ← List.cons_append, List.map_append, List.map_singleton,
        Call.lastRaised_append_singleton]
      refine ⟨hflowing.turn hwrite, ?_⟩
      intro later hlater hnothing
      rcases List.mem_append.mp hlater with hlater | hlater
      · exact hreturned later hlater hnothing
      · obtain rfl := List.mem_singleton.mp hlater
        apply hnothing.returns hflowing.phase hflowing.repair _ (h.within hplan)
        intro hcancel
        rw [Turn.call, hcancel] at hwrite
        cases hwrite
  | elsewhere h hc hplan' ih =>
    obtain ⟨⟨bodies, spare, hflowing⟩, hreturned⟩ := ih hturns hrepairs
    exact ⟨⟨bodies, spare, hflowing.elsewhere hc⟩, hreturned⟩

/-- A commit in which nothing fails stores what the writer holds. -/
theorem Flowing.commit_stores {content : Bytes} {raised : Bool} {bodies spare : List Bytes}
    (h : w.Flowing c content raised bodies spare) (hplan : c.service.Within Disturbance.Fails)
    (hnothing : (Turn.mk .commit w c).NothingFails) :
    (Turn.mk .commit w c).result = .ok () ∧
      ∃ o, (Turn.mk .commit w c).contextAfter.store.objects.find? w.session.key = some o ∧
        Kept w.policy.chunk raised content o.content := by
  have hreturned := hnothing.returns h.phase h.repair (by simp) hplan
  have hrun : Writer.commit.execute w c =
      (.ok (), (Turn.mk .commit w c).writerAfter, (Turn.mk .commit w c).contextAfter) := by
    rw [← hreturned]
    rfl
  exact ⟨hreturned, h.commit hrun⟩

/-! ## 4. All of it -/

/-- A repair is all or nothing, and can be tried again.

A write that has to repair first and raises has changed nothing of the writer, or the repair has
succeeded and a part has failed after it.  Once the old upload was completed it is neither
completed again nor dropped.  While it is completed and not replaced its object is there, and a
commit and a cancel return and ask for nothing.  When a repair has succeeded, whatever has failed
before it, a commit behind writes stores all that the old upload held and all that was accepted,
provided that the last write of at least one byte has returned, as every write does in which
nothing fails; when it has raised, the last chunk is missing. -/
theorem History.repair_all_or_nothing (hopen : w₀.Opened c₀ t)
    (hrepair : w₀.repair = .required false) (hplan : c₀.service.Within Disturbance.Fails)
    (h : History Disturbance.Fails w₀ c₀ turns w c) :
    (∀ (turn : Turn (Disturbed Store)) (b : Bool) (data : Bytes) (e : Error),
        turn.writer.phase = .active → turn.writer.repair = .required b →
        turn.operation = .write data → turn.result = .error e →
        turn.FailsToRepair ∨ turn.FailsAfterRepair e) ∧
      (turns.flatMap Turn.exchanges).Pairwise (fun x y =>
        x.Completes w₀.session → ¬ y.request.Ends w₀.session.uploadId) ∧
      (w.phase = .active → w.repair ≠ .done →
        (∃ x ∈ turns.flatMap Turn.exchanges, x.Completes w₀.session) →
        (∃ o, c.store.objects.find? w₀.session.key = some o ∧ o.content = Bytes.concat t.values) ∧
          ∀ op, op = .commit ∨ op = .cancel → (Turn.mk op w c).result = .ok () ∧
            (Turn.mk op w c).exchanges = [] ∧ (Turn.mk op w c).contextAfter.store = c.store) ∧
      ∀ before repairing further, turns = before ++ repairing :: further →
        repairing.RepairsBefore further →
        (∀ turn ∈ further, turn.NothingFails → turn.result = .ok ()) ∧
          ((Turn.mk .commit w c).NothingFails → (Turn.mk .commit w c).result = .ok () ∧
            ∃ o, (Turn.mk .commit w c).contextAfter.store.objects.find? w₀.session.key = some o ∧
              Kept w.policy.chunk (Call.lastRaised ((repairing :: further).map Turn.call))
                (Bytes.concat t.values ++ Bytes.concat (turns.map Turn.accepted)) o.content) := by
  have hretrying := h.retrying hopen hrepair hplan
  refine ⟨?_, hretrying.once, fun hphase hnot hcompleted =>
    hretrying.finish hphase hnot hcompleted, ?_⟩
  · intro turn b data e hphase hrequired hop hresult
    exact Turn.failed_repair_cases hphase hrequired hop hresult
  · intro before repairing further hturns hrepairs
    obtain ⟨⟨bodies, spare, hflowing⟩, hreturned⟩ :=
      h.flowing_after_repair hopen hrepair hplan hturns hrepairs
    refine ⟨hreturned, fun hnothing => ?_⟩
    rw [← h.key_eq hplan]
    exact hflowing.commit_stores (h.within hplan) hnothing

/-! ## 5. A repair that fails once -/

namespace Sample

def twoBytes : Bytes := ⟨#[121, 122]⟩

def retriedRepair : Turn (Disturbed Store) :=
  ⟨.write twoBytes, failedRepair.writerAfter, failedRepair.contextAfter⟩

def commitAfterRetry : Turn (Disturbed Store) :=
  ⟨.commit, retriedRepair.writerAfter, retriedRepair.contextAfter⟩

end Sample

theorem object_after_retried_repair :
    Sample.resumed.repair = .required false ∧ Sample.failedRepair.FailsToRepair ∧
      ∃ o, Sample.commitAfterRetry.contextAfter.store.objects.find? "a" = some o ∧
        o.content = Sample.shortPart ++ Sample.twoBytes := by
  have hplan := Sample.noReading_sparesAborts.early_of_sparesAborts.fails_of_early
  have hhistory : History Disturbance.Fails Sample.resumed (Sample.resumedContext Sample.noReading)
      [Sample.failedRepair, Sample.retriedRepair] Sample.retriedRepair.writerAfter
      Sample.retriedRepair.contextAfter :=
    .call Sample.retriedRepair (.call Sample.failedRepair .start)
  obtain ⟨hraises, -, -, hstores⟩ := History.repair_all_or_nothing (Sample.resumed_opened hplan)
    (by decide) hplan hhistory
  have hnothing : Sample.commitAfterRetry.NothingFails := by decide +kernel
  have hrepairs : Sample.retriedRepair.RepairsBefore [] :=
    ⟨by decide +kernel, by decide +kernel, by simp⟩
  have hreturned : Call.lastRaised ([Sample.retriedRepair].map Turn.call) = false := by
    decide +kernel
  have hcontent : Bytes.concat (Part.table [Sample.shortPart]).values ++
      Bytes.concat ([Sample.failedRepair, Sample.retriedRepair].map Turn.accepted) =
        Sample.shortPart ++ Sample.twoBytes := by decide +kernel
  obtain ⟨-, hcommit⟩ := hstores [Sample.failedRepair] Sample.retriedRepair [] rfl hrepairs
  obtain ⟨-, o, ho, hkept⟩ := hcommit hnothing
  refine ⟨by decide, ?_, o, ho, (hkept.exact_iff.mpr hreturned).trans hcontent⟩
  have hraised : Sample.failedRepair.result.isOk = false := by decide +kernel
  have hnot : Sample.failedRepair.writerAfter.repair ≠ .done := by decide +kernel
  rcases hresult : Sample.failedRepair.result with e | ⟨⟩
  · rcases hraises Sample.failedRepair false Sample.data e rfl rfl rfl hresult with hfails | hfails
    · exact hfails
    · exact absurd hfails.repair hnot
  · rw [hresult] at hraised
    cases hraised

/-! ## 6. A commit after a part has failed -/

namespace Sample

/-- The object cannot be read again, and once it can the first part of the new upload fails. -/
def noReadingNoPart : List (RequestKind × List (Option Disturbance)) :=
  [(.getObject, [some ⟨false, .fails (.unreachable "down")⟩]),
    (.uploadPart, [some ⟨false, .fails (.unreachable "down")⟩])]

theorem noReadingNoPart_fails :
    (resumedContext noReadingNoPart).service.Within Disturbance.Fails := by
  intro q hq x hx
  simp only [resumedContext, noReadingNoPart, List.mem_cons, List.not_mem_nil, or_false] at hq
  rcases hq with rfl | rfl <;> simp only [List.mem_singleton, Option.some.injEq] at hx <;>
    rw [hx] <;> exact .error _ _ _

def notRead : Turn (Disturbed Store) := ⟨.write data, resumed, resumedContext noReadingNoPart⟩

def partNotSent : Turn (Disturbed Store) := ⟨.write data, notRead.writerAfter, notRead.contextAfter⟩

def nothingWritten : Turn (Disturbed Store) :=
  ⟨.write ByteArray.empty, partNotSent.writerAfter, partNotSent.contextAfter⟩

def commitAfterPart : Turn (Disturbed Store) :=
  ⟨.commit, nothingWritten.writerAfter, nothingWritten.contextAfter⟩

end Sample

/-- A repair fails, and after the next one a part fails when seven bytes were accepted.  In the
write and the commit behind that nothing fails, yet the last four of these bytes are missing. -/
theorem commit_after_repair_drops_chunk :
    Sample.resumed.Opened (Sample.resumedContext Sample.noReadingNoPart)
        (Part.table [Sample.shortPart]) ∧
      History Disturbance.Fails Sample.resumed (Sample.resumedContext Sample.noReadingNoPart)
        [Sample.notRead, Sample.partNotSent, Sample.nothingWritten]
        Sample.nothingWritten.writerAfter Sample.nothingWritten.contextAfter ∧
      Sample.notRead.writerAfter.repair = .required true ∧
      Sample.partNotSent.RepairsBefore [Sample.nothingWritten] ∧
      Sample.nothingWritten.NothingFails ∧ Sample.commitAfterPart.NothingFails ∧
      Sample.commitAfterPart.result.isOk = true ∧
      Bytes.concat ([Sample.notRead, Sample.partNotSent, Sample.nothingWritten].map Turn.accepted) =
        ⟨#[97, 98, 99, 100, 101, 102, 103]⟩ ∧
      ∃ o, Sample.commitAfterPart.contextAfter.store.objects.find? "a" = some o ∧
        o.content = ⟨#[120, 97, 98, 99]⟩ ∧
        o.content ≠ Sample.shortPart ++ ⟨#[97, 98, 99, 100, 101, 102, 103]⟩ := by
  have hrepairs : Sample.partNotSent.RepairsBefore [Sample.nothingWritten] := by
    have hwrite : Sample.nothingWritten.call.isWrite = true := rfl
    exact ⟨by decide +kernel, by decide +kernel, by simpa using hwrite⟩
  have hstored : (Sample.commitAfterPart.contextAfter.store.objects.find? "a").map (·.content) =
      some ⟨#[120, 97, 98, 99]⟩ := by decide +kernel
  obtain ⟨o, ho, hcontent⟩ := Option.map_eq_some_iff.mp hstored
  refine ⟨Sample.resumed_opened Sample.noReadingNoPart_fails,
    .call Sample.nothingWritten (.call Sample.partNotSent (.call Sample.notRead .start)),
    by decide +kernel, hrepairs, by decide +kernel, by decide +kernel, by decide +kernel,
    by decide +kernel, o, ho, hcontent, ?_⟩
  rw [hcontent]
  decide

end Writer

end ResumableStorage
