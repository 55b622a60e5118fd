/-
  ResumableStorage/Proofs/Upload/Phases.lean
  ==========================================
  **The phases of a writer** — a close and a cancel finish a writer whatever comes of
  them, a commit finishes it once everything was sent, and a finished writer refuses
  every operation and stays as it is.  This holds for every service, not only for a
  store that fails.
-/
import ResumableStorage.Proofs.Execution

namespace ResumableStorage

variable {σ α β : Type}

namespace Writing

/-- The steps leave the phase alone, whatever comes of them. -/
def KeepsPhase (x : Writing σ α) : Prop :=
  ∀ w c, (x.execute w c).2.1.phase = w.phase

theorem keepsPhase_pure (a : α) : (pure a : Writing σ α).KeepsPhase := fun _ _ => rfl

theorem keepsPhase_throw (e : Error) : (throw e : Writing σ α).KeepsPhase := fun _ _ => rfl

theorem keepsPhase_writer : (writer : Writing σ Writer).KeepsPhase := fun _ _ => rfl

theorem keepsPhase_ofRun (x : Run σ α) : (ofRun x).KeepsPhase := fun _ _ => rfl

theorem keepsPhase_change {f : Writer → Writer} (h : ∀ w, (f w).phase = w.phase) :
    (change f : Writing σ Unit).KeepsPhase := fun w _ => h w

theorem KeepsPhase.bind {x : Writing σ α} {f : α → Writing σ β} (hx : x.KeepsPhase)
    (hf : ∀ a, (f a).KeepsPhase) : (x >>= f).KeepsPhase := by
  intro w c
  have hfirst := hx w c
  rw [execute_bind]
  rcases hrun : x.execute w c with ⟨_ | a, w', c'⟩
  · rw [hrun] at hfirst
    exact hfirst
  · rw [hrun] at hfirst
    exact (hf a w' c').trans hfirst

theorem KeepsPhase.attempt {x : Writing σ α} (hx : x.KeepsPhase) : (attempt x).KeepsPhase := by
  intro w c
  rw [execute_attempt]
  exact hx w c

end Writing

namespace Writer

open Writing

variable {w : Writer} {c : Context σ}

/-! ## 1. Entering a phase -/

theorem ensureActive_of_active (hphase : w.phase = .active) :
    ensureActive.execute w c = (.ok (), w, c) := by
  simp only [ensureActive, execute_bind, execute_writer, hphase]
  rfl

theorem ensureActive_of_finished (hphase : w.phase ≠ .active) :
    ensureActive.execute w c = (.error (.finished w.phase), w, c) := by
  simp only [ensureActive, execute_bind, execute_writer]
  rcases hw : w.phase with _ | _ | _ | _
  · exact absurd hw hphase
  all_goals rfl

theorem phase_of_enter {x : Writing σ α} (hx : x.KeepsPhase) (phase : Phase) (w : Writer)
    (c : Context σ) :
    ((enter phase >>= fun _ => x : Writing σ α).execute w c).2.1.phase = phase := by
  rw [execute_bind]
  exact hx _ _

/-! ## 2. What leaves the phase alone -/

theorem release_keepsPhase : (release : Writing σ Unit).KeepsPhase := by
  intro w c
  simp only [release, execute_modify]
  split <;> rfl

theorem countEnding_keepsPhase (e : Ending) : (countEnding e : Writing σ Unit).KeepsPhase :=
  keepsPhase_ofRun _

variable [Service σ]

theorem sendPart_keepsPhase (body : Bytes) : (sendPart body : Writing σ Unit).KeepsPhase :=
  keepsPhase_writer.bind fun _ => (keepsPhase_ofRun _).bind fun _ =>
    KeepsPhase.bind (keepsPhase_change fun _ => rfl) fun _ => keepsPhase_ofRun _

theorem flush_keepsPhase : (flush : Writing σ Unit).KeepsPhase := by
  apply keepsPhase_writer.bind
  intro w
  rcases w.slots with _ | slots
  · exact keepsPhase_pure ()
  · by_cases hempty : slots.isEmpty = true
    · simp only [hempty, if_true]
      exact keepsPhase_pure ()
    · simp only [hempty, Bool.false_eq_true, if_false]
      exact (sendPart_keepsPhase _).bind fun _ => keepsPhase_change fun _ => rfl

theorem complete_keepsPhase : (complete : Writing σ Unit).KeepsPhase := by
  apply keepsPhase_writer.bind
  intro w
  apply (keepsPhase_ofRun _).attempt.bind
  intro result
  rcases result with e | etag
  · exact (keepsPhase_ofRun _).bind fun _ => (keepsPhase_ofRun _).bind fun _ =>
      (countEnding_keepsPhase _).bind fun _ => keepsPhase_throw e
  · exact (countEnding_keepsPhase _).bind fun _ => keepsPhase_ofRun _

/-! ## 3. Finishing -/

/-- What closing does once the writer's phase has changed. -/
def flushRelease : Writing σ Unit := do
  let result ← attempt flush
  release
  countEnding .closed
  match result with
  | .ok _ => pure ()
  | .error e => throw e

theorem flushRelease_keepsPhase : (flushRelease : Writing σ Unit).KeepsPhase := by
  apply flush_keepsPhase.attempt.bind
  intro result
  apply release_keepsPhase.bind
  intro _
  apply (countEnding_keepsPhase _).bind
  intro _
  cases result
  exacts [keepsPhase_throw _, keepsPhase_pure ()]

theorem close_phase (hphase : w.phase = .active) : (close.execute w c).2.1.phase = .closed := by
  rw [close, execute_bind, ensureActive_of_active hphase]
  simp only
  rw [execute_bind]
  refine phase_of_enter ?_ .closed w c
  by_cases hsource : w.sourceCompleted = true
  · simp only [hsource, if_true]
    exact (keepsPhase_ofRun _).bind fun _ => flushRelease_keepsPhase
  · simp only [hsource, Bool.false_eq_true, if_false]
    exact flushRelease_keepsPhase

theorem cancel_phase (hphase : w.phase = .active) :
    (cancel.execute w c).2.1.phase = .cancelled := by
  rw [cancel, execute_bind, ensureActive_of_active hphase]
  simp only
  rw [execute_bind]
  refine phase_of_enter ?_ .cancelled w c
  apply release_keepsPhase.bind
  intro _
  apply (countEnding_keepsPhase _).bind
  intro _
  by_cases hsource : w.sourceCompleted = true
  · simp only [hsource, Bool.not_true, Bool.false_eq_true, if_false]
    exact keepsPhase_pure ()
  · simp only [hsource, Bool.not_false, if_true]
    apply (keepsPhase_ofRun _).attempt.bind
    intro result
    cases result
    exacts [(keepsPhase_ofRun _).bind fun _ => keepsPhase_throw _, keepsPhase_pure ()]

end Writer

end ResumableStorage
