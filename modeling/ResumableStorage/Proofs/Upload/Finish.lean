/-
  ResumableStorage/Proofs/Upload/Finish.lean
  ==========================================
  **What a finished writer has stored** — after any writes, each of which may have
  failed, a commit or a close that returns has stored the accepted bytes up to the last
  chunk, and that chunk too exactly when the last write of at least one byte has
  returned.

  A write that fails leaves both slots full.  The next write sends the first slot and
  goes on, but a commit and a close send one part only, and with both slots full that
  part takes the first slot alone.
-/
import ResumableStorage.Proofs.Upload.History

namespace ResumableStorage

/-! ## 1. The last write -/

namespace Call

def isWrite (call : Call) : Bool :=
  match call.operation with
  | .write _ => true
  | .close | .commit | .cancel => false

/-- Whether the last write of at least one byte has raised, once this call was made too. -/
def raisedAfter (before : Bool) (call : Call) : Bool :=
  match call.operation with
  | .write data => if data.size = 0 then before else !call.returned
  | .close | .commit | .cancel => before

/-- The last write of at least one byte has raised. -/
def lastRaised (calls : List Call) : Bool :=
  calls.foldl raisedAfter false

theorem lastRaised_append_singleton (calls : List Call) (call : Call) :
    lastRaised (calls ++ [call]) = call.raisedAfter (lastRaised calls) := by
  simp [lastRaised]

end Call

namespace Writer

variable {w w' w₀ : Writer} {c c' c₀ : Context (Disturbed Store)} {bodies spare : List Bytes}
  {content : Bytes}

/-! ## 2. Writes that may fail -/

/-- What holds between writes of a writer that has nothing to repair.  Its slots are both full
exactly when the last write has raised, and a body that it does not count can only be there
then. -/
structure Flowing (w : Writer) (c : Context (Disturbed Store)) (content : Bytes) (raised : Bool)
    (bodies spare : List Bytes) : Prop where
  holds : w.Holds c content bodies spare
  phase : w.phase = .active
  repair : ∀ b, w.repair ≠ .required b
  stuck : w.IsStuck ↔ raised = true
  spare_nil : spare = [] ∨ w.IsStuck

theorem Flowing.not_sourceCompleted {raised : Bool} (h : w.Flowing c content raised bodies spare) :
    w.sourceCompleted = false := by
  simpa only [sourceCompleted, decide_eq_false_iff_not] using h.repair true

theorem Opened.flowing (h : w.Opened c (Part.table bodies)) (hrepair : w.repair = .notNeeded) :
    w.Flowing c (Bytes.concat bodies) false bodies [] := by
  have hslots := h.slots_eq
  have hpos := w.policy.chunk_pos
  have hstuck : ¬ w.IsStuck := by
    simp only [IsStuck, pending, hslots, ByteArray.size_empty]
    omega
  exact ⟨h.holds, h.phase_eq, by simp [hrepair], by simp [hstuck], .inl rfl⟩

theorem Flowing.elsewhere {raised : Bool} (h : w.Flowing c content raised bodies spare)
    (hc : c.Elsewhere w.session.key c') : w.Flowing c' content raised bodies spare := by
  obtain ⟨hattached, hfits, hbytes, hsize⟩ := h.holds
  exact ⟨⟨hattached.elsewhere hc, hfits, hbytes, hsize⟩, h.phase, h.repair, h.stuck, h.spare_nil⟩

/-- What was taken in flows on; it is stuck exactly when the write has raised. -/
theorem Took.flowing {data : Bytes} {result : Except Error Nat} {sent spare' : List Bytes}
    {taken : Nat} (htook : Took w c bodies spare data result w' c' sent taken spare')
    (h : w.Holds c content bodies spare) (hphase : w.phase = .active)
    (hrepair : ∀ b, w.repair ≠ .required b) (hspare : spare = [] ∨ w.IsStuck) :
    w'.Flowing c' (content ++ data.extract 0 taken) (!result.isOk) (bodies ++ sent) spare' := by
  obtain ⟨slots, hw'⟩ := htook.writer
  refine ⟨htook.holds h, by rw [hw']; exact hphase, by rw [hw']; exact hrepair, ?_, ?_⟩
  · rcases htook.outcome with ⟨rfl, -, hroom, -⟩ | ⟨e, rfl, -, hstuck⟩
    · simpa [Except.isOk, Except.toBool] using hroom
    · simpa [Except.isOk, Except.toBool] using hstuck
  · rcases htook.outcome with ⟨-, -, hroom, hspare'⟩ | ⟨e, -, -, hstuck⟩
    · left
      rw [hspare']
      split
      · rename_i hsent
        subst hsent
        rcases hspare with hnil | hstuck
        · exact hnil
        · exact absurd (htook.stuck_of_sent_nil h.fits hstuck) hroom
      · rfl
    · exact .inr hstuck

theorem Flowing.write {raised : Bool} (h : w.Flowing c content raised bodies spare) (data : Bytes)
    {result : Except Error Nat} (hrun : (Writer.write data).execute w c = (result, w', c')) :
    ∃ bodies' spare', w'.Flowing c' (content ++ (Operation.write data).accepted result.isOk w w')
      (Call.raisedAfter raised ⟨.write data, result.isOk⟩) bodies' spare' := by
  by_cases hempty : data.size = 0
  · rw [write_of_empty h.phase hempty] at hrun
    obtain ⟨rfl, rfl, rfl⟩ := hrun
    have hdata : data = ByteArray.empty := ByteArray.size_eq_zero_iff.mp hempty
    have hnothing : (Operation.write data).accepted true w w = ByteArray.empty := hdata
    refine ⟨bodies, spare, ?_⟩
    simpa only [Except.isOk, Except.toBool, hnothing, ByteArray.append_empty, Call.raisedAfter,
      hempty, if_true] using h
  · obtain ⟨_, _, _, sent, taken, spare', hwrite, htook⟩ :=
      write_of_attached h.phase h.repair h.holds.attached h.holds.fits hempty
    rw [hrun] at hwrite
    obtain ⟨rfl, rfl, rfl⟩ := hwrite
    have hraised : Call.raisedAfter raised ⟨.write data, result.isOk⟩ = !result.isOk := by
      simp only [Call.raisedAfter, hempty, if_false]
    rw [htook.accepted_eq, hraised]
    exact ⟨_, spare', htook.flowing h.holds h.phase h.repair h.spare_nil⟩

theorem Reaches.flowing (hopen : w₀.Opened c₀ (Part.table bodies))
    (hrepair : w₀.repair = .notNeeded) {calls : List Call} {accepted : Bytes}
    (h : Reaches w₀ c₀ calls accepted w c)
    (hwrites : ∀ call ∈ calls, call.isWrite = true) :
    ∃ bodies' spare, w.Flowing c (Bytes.concat bodies ++ accepted) (Call.lastRaised calls) bodies'
      spare := by
  induction h with
  | start => exact ⟨bodies, [], by simpa [Call.lastRaised] using hopen.flowing hrepair⟩
  | @call calls accepted w w' c c' result h op hrun ih =>
    obtain ⟨bodies', spare, hflowing⟩ := ih fun call hcall => hwrites call (by simp [hcall])
    have hop := hwrites ⟨op, result.isOk⟩ (by simp)
    cases op with
    | write data =>
      rcases hwrite : (Writer.write data).execute w c with ⟨answer, w₁, c₁⟩
      simp only [Operation.run, Writing.execute_discard, hwrite, Prod.mk.injEq] at hrun
      obtain ⟨rfl, rfl, rfl⟩ := hrun
      have hok : (answer.map fun _ => ()).isOk = answer.isOk := by cases answer <;> rfl
      rw [Call.lastRaised_append_singleton, ← ByteArray.append_assoc, hok]
      exact hflowing.write data hwrite
    | close => cases hop
    | commit => cases hop
    | cancel => cases hop
  | elsewhere h hc ih =>
    obtain ⟨bodies', spare, hflowing⟩ := ih hwrites
    exact ⟨bodies', spare, hflowing.elsewhere hc⟩

/-! ## 3. What is stored -/

/-- What is held of `all`: everything unless the last write has raised, and then all but the last
chunk. -/
structure Kept (chunk : Nat) (raised : Bool) (all held : Bytes) : Prop where
  exact_iff : held = all ↔ raised = false
  missing : ∃ lost, held ++ lost = all ∧ lost.size = if raised then chunk else 0

/-- The parts that a finish sends leave out the second slot when both are full. -/
theorem Flowing.kept {raised : Bool} (h : w.Flowing c content raised bodies spare) :
    Kept w.policy.chunk raised content (Bytes.concat (bodies ++ w.flushed)) := by
  have hpos := w.policy.chunk_pos
  have hlost : Bytes.concat (bodies ++ w.flushed) ++
      (if w.IsStuck then w.pending else ByteArray.empty) = content := by
    rw [Bytes.concat_append, ByteArray.append_assoc, concat_flushed, h.holds.bytes]
  have hsize : (if w.IsStuck then w.pending else ByteArray.empty).size =
      if raised then w.policy.chunk else 0 := by
    by_cases hstuck : w.IsStuck
    · rw [if_pos hstuck, if_pos (h.stuck.mp hstuck)]
      exact hstuck
    · rw [if_neg hstuck, if_neg (mt h.stuck.mpr hstuck), ByteArray.size_empty]
  refine ⟨?_, _, hlost, hsize⟩
  have htotal := congrArg ByteArray.size hlost
  rw [ByteArray.size_append, hsize] at htotal
  constructor
  · intro heq
    rw [heq] at htotal
    cases raised
    · rfl
    · simp only [if_true] at htotal
      omega
  · rintro rfl
    rw [if_neg (mt h.stuck.mp (by decide)), ByteArray.append_empty] at hlost
    exact hlost

/-- A commit that returns has stored an object with what the parts hold. -/
theorem Flowing.commit {raised : Bool} (h : w.Flowing c content raised bodies spare)
    (hrun : Writer.commit.execute w c = (.ok (), w', c')) :
    ∃ o, c'.store.objects.find? w.session.key = some o ∧
      Kept w.policy.chunk raised content o.content := by
  obtain ⟨_, _, _, hcommit, -, hcases⟩ :=
    commit_of_attached h.phase h.not_sourceCompleted h.holds.attached h.holds.fits
  rw [hrun] at hcommit
  obtain ⟨rfl, rfl, rfl⟩ := hcommit
  rcases hcases with ⟨e, spare', he, -⟩ | ⟨-, ⟨-, hstore⟩ | ⟨e, he, -⟩⟩
  · cases he
  · refine ⟨_, by rw [hstore]; exact Store.complete_find? _ _ _ _, ?_⟩
    have hkept := h.kept
    rwa [Bytes.concat_append, ← concat_committedBodies, ← Bytes.concat_append] at hkept
  · cases he

/-- A close that returns has left an upload in flight with what the parts hold. -/
theorem Flowing.close {raised : Bool} (h : w.Flowing c content raised bodies spare)
    (hrun : Writer.close.execute w c = (.ok (), w', c')) :
    ∃ u, c'.store.upload? w.session.key w.session.uploadId = some u ∧
      Kept w.policy.chunk raised content (Bytes.concat u.parts.values) := by
  obtain ⟨_, _, _, hclose, -, hcases⟩ := close_of_attached h.phase h.holds.attached h.holds.fits
  rw [hrun] at hclose
  obtain ⟨rfl, rfl, rfl⟩ := hclose
  rcases hcases with ⟨-, -, hstore⟩ | ⟨e, he, -⟩
  · obtain ⟨u, hu, -⟩ := h.holds.attached.upload
    refine ⟨_, by rw [hstore]; exact Store.upload?_setParts hu _, ?_⟩
    have hnone : (if w.flushed = [] then spare else []) = [] := by
      split
      · rename_i hflushed
        rcases h.spare_nil with hnil | hstuck
        · exact hnil
        · exact absurd (flushed_eq_nil_iff.mp hflushed) (staged_ne_empty_of_stuck hstuck)
      · rfl
    simp only [hnone, List.append_nil, Part.values_table]
    exact h.kept
  · cases he

/-- Whatever writes have failed, a commit that returns has stored an object, and a close that
returns has left an upload in flight, with exactly the bytes that were there and those that were
accepted, provided that the last write of at least one byte has returned; when it has raised, the
last chunk of them is missing. -/
theorem Reaches.finish_keeps (hopen : w₀.Opened c₀ (Part.table bodies))
    (hrepair : w₀.repair = .notNeeded) {calls : List Call} {accepted : Bytes}
    (h : Reaches w₀ c₀ calls accepted w c)
    (hwrites : ∀ call ∈ calls, call.isWrite = true) :
    w.size = (Bytes.concat bodies ++ accepted).size ∧
      (∀ w' c', commit.execute w c = (.ok (), w', c') →
        ∃ o, c'.store.objects.find? w.session.key = some o ∧
          Kept w.policy.chunk (Call.lastRaised calls) (Bytes.concat bodies ++ accepted)
            o.content) ∧
      (∀ w' c', close.execute w c = (.ok (), w', c') →
        ∃ u, c'.store.upload? w.session.key w.session.uploadId = some u ∧
          Kept w.policy.chunk (Call.lastRaised calls) (Bytes.concat bodies ++ accepted)
            (Bytes.concat u.parts.values)) := by
  obtain ⟨bodies', spare, hflowing⟩ := h.flowing hopen hrepair hwrites
  exact ⟨hflowing.holds.size, fun _ _ => hflowing.commit, fun _ _ => hflowing.close⟩

/-! ## 4. A commit after a failed write -/

namespace Sample

theorem failedWrite_flowing : ∃ spare, failedWrite.2.1.Flowing failedWrite.2.2 data true [] spare := by
  obtain ⟨bodies, spare, h⟩ := failedWrite_reached.flowing (opened onePartFails_failsOnly)
    (by decide) (by decide)
  have hnone : failedWrite.2.1.parts = [] := by cbv
  have hbodies : bodies = [] := by
    rwa [h.holds.attached.parts, Part.ofBodies_eq_nil_iff] at hnone
  have hraised : Call.lastRaised [⟨.write data, false⟩] = true := by cbv
  rw [hbodies, hraised, Bytes.concat_nil, ByteArray.empty_append] at h
  exact ⟨spare, h⟩

theorem commit_after_failedWrite :
    ∃ w' c', commit.execute failedWrite.2.1 failedWrite.2.2 = (.ok (), w', c') := by
  obtain ⟨spare, h⟩ := failedWrite_flowing
  have hqueues : failedWrite.2.2.service.queues = [(.uploadPart, [])] := by cbv
  have hcalm : failedWrite.2.2.service.IsCalm := by
    intro q hq x hx
    rw [hqueues, List.mem_singleton] at hq
    subst hq
    cases hx
  have hsingle : failedWrite.2.1.committedBodies.dropLast = [] := by
    unfold committedBodies flushed
    split
    · rfl
    · split <;> rfl
  obtain ⟨w', c', hrun, -⟩ := commit_returns h.phase (by cbv) h.holds.attached h.holds.fits hcalm
    (by rw [List.nil_append, hsingle]; simp)
  exact ⟨w', c', hrun⟩

end Sample

theorem finish_keeps_after_failed_write :
    ∃ w' c' o, commit.execute Sample.failedWrite.2.1 Sample.failedWrite.2.2 = (.ok (), w', c') ∧
      c'.store.objects.find? Sample.failedWrite.2.1.session.key = some o ∧
      Kept Sample.failedWrite.2.1.policy.chunk true (Bytes.concat [] ++ Sample.data) o.content := by
  obtain ⟨w', c', hrun⟩ := Sample.commit_after_failedWrite
  obtain ⟨-, hcommit, -⟩ := Reaches.finish_keeps (Sample.opened Sample.onePartFails_failsOnly)
    (by decide) Sample.failedWrite_reached (by decide)
  obtain ⟨o, ho, hkept⟩ := hcommit w' c' hrun
  have hraised : Call.lastRaised [⟨.write Sample.data, false⟩] = true := by cbv
  rw [hraised] at hkept
  exact ⟨w', c', o, hrun, ho, hkept⟩

/-- After eight bytes were accepted by a write that has raised, a commit returns and stores the
first four. -/
theorem commit_drops_chunk :
    Reaches Sample.writer (Sample.context Sample.onePartFails) [⟨.write Sample.data, false⟩]
        Sample.data Sample.failedWrite.2.1 Sample.failedWrite.2.2 ∧
      ∃ w' c' o, commit.execute Sample.failedWrite.2.1 Sample.failedWrite.2.2 = (.ok (), w', c') ∧
        c'.store.objects.find? "a" = some o ∧ o.content = ⟨#[97, 98, 99, 100]⟩ ∧
        o.content ≠ Sample.data := by
  obtain ⟨w', c', hrun⟩ := Sample.commit_after_failedWrite
  obtain ⟨spare, h⟩ := Sample.failedWrite_flowing
  have hkey : Sample.failedWrite.2.1.session.key = "a" := by cbv
  have hchunk : Sample.failedWrite.2.1.policy.chunk = 4 := by cbv
  obtain ⟨o, ho, hkept⟩ := h.commit hrun
  rw [hkey] at ho
  obtain ⟨lost, hlost, hsize⟩ := hkept.missing
  have hdata : Sample.data = ⟨#[97, 98, 99, 100]⟩ ++ ⟨#[101, 102, 103, 104]⟩ := by cbv
  refine ⟨Sample.failedWrite_reached, w', c', o, hrun, ho, ?_, ?_⟩
  · have htotal := congrArg ByteArray.size hlost
    rw [ByteArray.size_append, hsize, hchunk] at htotal
    have hfour : o.content.size = 4 := Nat.add_right_cancel htotal
    rw [hdata] at hlost
    exact ByteArray.append_inj_left hlost hfour
  · intro heq
    cases hkept.exact_iff.mp heq

end Writer

end ResumableStorage
