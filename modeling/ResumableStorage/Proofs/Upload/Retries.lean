/-
  ResumableStorage/Proofs/Upload/Retries.lean
  ===========================================
  **A repair is done or can be tried again** — a write whose repair fails changes nothing
  of the writer but whether the old upload is completed, and an upload that was created
  in its place is asked to be dropped.  It may be tried any number of times.

  Once the old upload was completed nothing more is asked of it: a commit or a cancel
  leaves the object as it is, and a later repair carries it over.
-/
import ResumableStorage.Proofs.Upload.Finish
import ResumableStorage.Proofs.Upload.Outcomes
import ResumableStorage.Proofs.Upload.Turns

namespace ResumableStorage

/-! ## 1. Repairs that fail -/

section Any

variable {σ : Type}

theorem Writer.kind_of_closing {w : Writer} {c : Context σ} {z : Exchange σ}
    (hz : z ∈ w.closing c) : z.request.kind = .completeUpload := by
  rw [closing] at hz
  split at hz
  · cases hz
  · rw [List.mem_singleton.mp hz]
    simp [completing, Context.exchange]

variable [Service σ]

theorem Exchange.Starts.kind_eq {x : Exchange σ} {s new : Session} (h : x.Starts s new) :
    x.request.kind = .createUpload :=
  h.1.kind_eq

/-- The answer to a creation starts one session only. -/
theorem Exchange.Starts.unique {x : Exchange σ} {s new new' : Session} (h : x.Starts s new)
    (h' : x.Starts s new') : new' = new := by
  have hsame := h'.2
  rw [h.2, Except.ok.injEq] at hsame
  exact hsame.symm

namespace Writer

variable {w w' : Writer} {c : Context σ} {xs : List (Exchange σ)} {e : Error} {b : Bool}

theorem Repairs.writer_eq (h : Repairs w c (.error e) w' xs) (hrepair : w.repair = .required b) :
    ∃ b, w' = { w with repair := .required b } := by
  cases h with
  | notCompleted hsource hx hy => exact ⟨b, by rw [← hrepair]⟩
  | notStarted hclosing hx hnew => exact ⟨true, rfl⟩
  | notCarried hclosing hx hcarried hy => exact ⟨true, rfl⟩

/-- The upload that was created in the place of the old one is dropped last. -/
theorem Repairs.dropped (h : Repairs w c (.error e) w' xs) {x : Exchange σ} (hx : x ∈ xs)
    {new : Session} (hnew : x.Starts w.session new) :
    ∃ y, xs.getLast? = some y ∧ y.request = new.abortion := by
  have hkind := hnew.kind_eq
  cases h with
  | notCompleted hsource hfailed hy =>
    simp only [List.mem_cons, List.not_mem_nil, or_false] at hx
    rcases hx with rfl | rfl
    · simp [completing, Context.exchange] at hkind
    · simp [hy] at hkind
  | notStarted hclosing hcreate hfailed =>
    simp only [List.mem_append, List.mem_singleton] at hx
    rcases hx with hx | rfl
    · simp [kind_of_closing hx] at hkind
    · rw [hnew.2] at hfailed
      cases hfailed
  | @notCarried _ new' x' y carried hclosing hstarts hcarried hy =>
    refine ⟨y, by rw [← List.cons_append, ← List.append_assoc, List.getLast?_concat], ?_⟩
    simp only [List.mem_append, List.mem_cons, List.not_mem_nil, or_false] at hx
    rcases hx with hx | rfl | hx | rfl
    · simp [kind_of_closing hx] at hkind
    · rw [hstarts.unique hnew]
      exact hy
    · rcases hcarried x hx with hkind' | hkind' | hkind' <;> simp [hkind'] at hkind
    · simp [hy] at hkind

end Writer

namespace Turn

/-- The bytes that the call has accepted. -/
def accepted (turn : Turn σ) : Bytes :=
  turn.operation.accepted turn.result.isOk turn.writer turn.writerAfter

/-- Nothing has come of a repair: the writer is as it was, but for whether the old upload is
completed, no buffer was lent and no byte was accepted.  When an upload was created in the place of
the old one, the last request was to drop it. -/
structure FailsToRepair (turn : Turn σ) : Prop where
  writer : ∃ b, turn.writerAfter = { turn.writer with repair := .required b }
  pool : turn.contextAfter.pool = turn.context.pool
  accepted : turn.accepted = ByteArray.empty
  dropped : ∀ x ∈ turn.exchanges, ∀ new, x.Starts turn.writer.session new →
    ∃ y, turn.exchanges.getLast? = some y ∧ y.request = new.abortion

/-- The repair has succeeded, and then a part of the new upload has failed. -/
structure FailsAfterRepair (turn : Turn σ) (e : Error) : Prop where
  repair : turn.writerAfter.repair = .done
  request : ∃ x, turn.exchanges.getLast? = some x ∧ x.IsFailedPart turn.writerAfter.session e

variable {turn : Turn σ} {data : Bytes} {b : Bool} {e : Error}

/-- A write that has to repair first and raises, of any service. -/
theorem failed_repair_cases (hphase : turn.writer.phase = .active)
    (hrepair : turn.writer.repair = .required b) (hop : turn.operation = .write data)
    (hresult : turn.result = .error e) : turn.FailsToRepair ∨ turn.FailsAfterRepair e := by
  have hstep := (step hphase).2
  rw [hop, hresult] at hstep
  generalize hw' : turn.writerAfter = w' at hstep
  generalize hxs : turn.exchanges = xs at hstep
  cases hstep with
  | wrote hdata hsettled hsends => exact absurd hrepair (hsettled b)
  | notRepaired hdata hrequired hrepairs hpool =>
    obtain ⟨b', hw⟩ := hrepairs.writer_eq hrepair
    refine .inl ⟨⟨b', by rw [hw', hw]⟩, hpool, ?_, ?_⟩
    · simp [accepted, hop, hresult, hw', hw, Operation.accepted, Except.isOk, Except.toBool]
    · rw [hxs]
      intro x hx new hnew
      exact hrepairs.dropped hx hnew
  | @repaired _ _ _ w₁ _ asked sent hdata hrequired hrepairs hsends =>
    have hdone : w₁.repair = .done := by
      cases hrepairs
      rfl
    obtain ⟨x, hlast, hx⟩ := hsends.failed e rfl
    refine .inr ⟨by rw [hw', hsends.advances.repair_eq, hdone], x, ?_, ?_⟩
    · rw [hxs, List.getLast?_append, hlast, Option.some_or]
    · rw [hw', hsends.advances.session_eq]
      exact hx

end Turn

end Any

/-! ## 2. Nothing more is asked of a completed upload -/

/-- The request completes or drops the upload with an identifier. -/
def Request.Ends (r : Request) (id : String) : Prop :=
  (∃ bucket key parts, r = .completeUpload bucket key id parts) ∨
    ∃ bucket key, r = .abortUpload bucket key id

namespace Request

variable {r : Request} {s : Session} {id : String}

theorem Ends.kind_cases (h : r.Ends id) : r.kind = .completeUpload ∨ r.kind = .abortUpload := by
  rcases h with ⟨bucket, key, parts, rfl⟩ | ⟨bucket, key, rfl⟩
  · exact .inl rfl
  · exact .inr rfl

theorem ends_completion_iff {parts : List Part} : (s.completion parts).Ends id ↔ s.uploadId = id := by
  simp [Ends, Session.completion]

theorem ends_abortion_iff : s.abortion.Ends id ↔ s.uploadId = id := by
  simp [Ends, Session.abortion]

theorem IsPartOf.not_ends (h : r.IsPartOf s) : ¬ r.Ends id := by
  intro hends
  rcases hends.kind_cases with hkind | hkind <;> simp [h.kind_eq] at hkind

theorem Creates.not_ends (h : r.Creates s) : ¬ r.Ends id := by
  intro hends
  rcases hends.kind_cases with hkind | hkind <;> simp [h.kind_eq] at hkind

theorem Carries.not_ends (h : r.Carries) : ¬ r.Ends id := by
  intro hends
  rcases hends.kind_cases with hkind | hkind <;> rcases h with h | h | h <;> simp [h] at hkind

theorem IsAbout.eq_of_ends (h : r.IsAbout s) (hends : r.Ends id) : s.uploadId = id := by
  rcases h with hpart | ⟨parts, rfl⟩ | rfl
  · exact absurd hends hpart.not_ends
  · exact ends_completion_iff.mp hends
  · exact ends_abortion_iff.mp hends

end Request

variable {s : Session} {x : Exchange (Disturbed Store)} {xs ys : List (Exchange (Disturbed Store))}

theorem Exchange.Completes.ends (h : x.Completes s) : x.request.Ends s.uploadId := by
  obtain ⟨⟨parts, hr⟩, -⟩ := h
  rw [hr]
  exact Request.ends_completion_iff.mpr rfl

/-- Behind a completion of the session's upload that has returned, the upload is neither completed
nor dropped. -/
def CompletedOnce (s : Session) (xs : List (Exchange (Disturbed Store))) : Prop :=
  xs.Pairwise fun x y => x.Completes s → ¬ y.request.Ends s.uploadId

namespace CompletedOnce

theorem of_none (h : ∀ x ∈ xs, ¬ x.Completes s) : CompletedOnce s xs :=
  List.pairwise_of_forall_mem_list fun x hx _ _ hcompletes => absurd hcompletes (h x hx)

theorem append_of_not_ends (h : CompletedOnce s xs) (hys : ∀ y ∈ ys, ¬ y.request.Ends s.uploadId) :
    CompletedOnce s (xs ++ ys) := by
  refine List.pairwise_append.mpr ⟨h, ?_, fun _ _ y hy _ => hys y hy⟩
  exact List.pairwise_of_forall_mem_list fun _ _ y hy _ => hys y hy

theorem concat_of_none (h : ∀ x ∈ xs, ¬ x.Completes s) (y : Exchange (Disturbed Store)) :
    CompletedOnce s (xs ++ [y]) := by
  refine List.pairwise_append.mpr ⟨of_none h, List.pairwise_singleton _ _, ?_⟩
  intro x hx _ _ hcompletes
  exact absurd hcompletes (h x hx)

end CompletedOnce

/-! ## 3. One call of a writer that was to be repaired -/

theorem Exchange.Starts.uploadId_ne {new : Session} {id key : String} (h : x.Starts s new)
    (hplan : x.service.Within Disturbance.Fails) (hids : x.store.IdsInOrder)
    (hknows : x.store.Knows id key) : new.uploadId ≠ id := by
  obtain ⟨rfl, -⟩ := h.eq hplan
  obtain ⟨u, hu, rfl, -⟩ := hknows
  exact (hids.ne_nextId hu).symm

namespace Writer

variable {w w' w₀ w₁ : Writer} {c c' c₀ : Context (Disturbed Store)} {op : Operation}
  {result : Except Error Unit} {turns : List (Turn (Disturbed Store))} {t : Keyed Int Bytes}
  {completed : Bool} {old : Session}

theorem Stale.of_service (h : w.Stale c t completed) (hservice : c'.service = c.service) :
    w.Stale c' t completed := by
  have hstore : c'.store = c.store := congrArg (·.service) hservice
  exact ⟨hservice ▸ h.failsOnly, hstore ▸ h.ids, h.parts, hstore ▸ h.record, h.repair, h.nonempty,
    h.slots, h.size, hstore ▸ h.object⟩

/-- The writer is still to be repaired.  Unless it knows its upload to be completed, no completion
of it has returned. -/
structure Waiting (w : Writer) (c : Context (Disturbed Store)) (t : Keyed Int Bytes) (old : Session)
    (xs : List (Exchange (Disturbed Store))) : Prop where
  session : w.session = old
  stale : ∃ completed, w.Stale c t completed ∧ (completed = false → ∀ x ∈ xs, ¬ x.Completes old)

/-- The writer was repaired, and has another upload since. -/
structure Moved (w : Writer) (old : Session) : Prop where
  repair : w.repair = .done
  session : w.session.uploadId ≠ old.uploadId

/-- What holds after any calls of a writer that was opened with an upload to be replaced. -/
structure Retrying (w : Writer) (c : Context (Disturbed Store)) (t : Keyed Int Bytes) (old : Session)
    (xs : List (Exchange (Disturbed Store))) : Prop where
  once : CompletedOnce old xs
  state : w.phase = .active → w.Waiting c t old xs ∨ w.Moved old

/-- An upload that a repair creates is not the old one. -/
theorem Stale.ne_of_starts {d' : Disturbed Store} {new : Session} (h : w.Stale c t completed)
    (hplan : c.service.Within Disturbance.Fails) (hchain : Exchange.Chain c.service xs d')
    (hmem : x ∈ xs) (hx : x.Starts w.session new) : new.uploadId ≠ w.session.uploadId := by
  have hplan' := (hchain.within hplan).1 x hmem
  obtain ⟨front, rest, rfl⟩ := List.append_of_mem hmem
  obtain ⟨m, hfront, rfl, -⟩ := Exchange.chain_append.mp hchain
  have hgrows := hfront.grows
  obtain ⟨u, hu, hid, hkey, -⟩ := h.record
  exact hx.uploadId_ne hplan' (hgrows.ids h.ids) (hgrows.knows _ _ ⟨u, hu, hid, hkey⟩)

theorem Exchange.not_completes_of_error {e : Error}
    (h : x.decoded .completeUpload Client.completionTag = .error e) : ¬ x.Completes s := by
  rintro ⟨-, etag, htag⟩
  rw [htag] at h
  cases h

theorem Exchange.not_completes_of_kind (h : x.request.kind ≠ .completeUpload) : ¬ x.Completes s := by
  rintro ⟨⟨parts, hr⟩, -⟩
  rw [hr] at h
  exact h rfl

/-- A repair that leaves it open whether the old upload is completed has failed at that. -/
theorem Repairs.not_completed (h : Repairs w c result w' ys) (hrepair : w'.repair = .required false) :
    w.sourceCompleted = false ∧ ∀ x ∈ ys, ¬ x.Completes w.session := by
  cases h with
  | notCompleted hsource hfailed hy =>
    refine ⟨hsource, ?_⟩
    intro x hx
    simp only [List.mem_cons, List.not_mem_nil, or_false] at hx
    rcases hx with rfl | rfl
    · exact Exchange.not_completes_of_error hfailed
    · exact Exchange.not_completes_of_kind (by simp [hy])
  | notStarted hclosing hx hnew => cases hrepair
  | notCarried hclosing hx hcarried hy => cases hrepair
  | replaced hclosing hx hcarried => cases hrepair

theorem Waiting.none_before (h : w.Waiting c t old xs) (hsource : w.sourceCompleted = false) :
    ∀ x ∈ xs, ¬ x.Completes old := by
  obtain ⟨-, completed, hstale, hnone⟩ := h
  rw [sourceCompleted_iff hstale.repair] at hsource
  exact hnone hsource

/-- A repair completes the old upload only when no completion of it has returned, and asks nothing
more of it then. -/
theorem Waiting.completedOnce (h : w.Waiting c t old xs) (honce : CompletedOnce old xs)
    (hplan : c.service.Within Disturbance.Fails) {d' : Disturbed Store}
    {sent : List (Exchange (Disturbed Store))}
    (hchain : Exchange.Chain c.service (ys ++ sent) d') (hrepairs : Repairs w c result w' ys)
    (hsent : ∀ x ∈ sent, ¬ x.request.Ends old.uploadId) : CompletedOnce old (xs ++ (ys ++ sent)) := by
  have hnone := h.none_before
  obtain ⟨rfl, completed, hstale, -⟩ := h
  have hclosed : ∀ rest : List (Exchange (Disturbed Store)),
      (∀ y ∈ rest, ¬ y.request.Ends w.session.uploadId) →
      CompletedOnce w.session (xs ++ (w.closing c ++ rest)) := by
    intro rest hrest
    rw [← List.append_assoc]
    refine CompletedOnce.append_of_not_ends ?_ hrest
    rw [closing]
    split
    · rwa [List.append_nil]
    · rename_i hsource
      rw [Bool.not_eq_true] at hsource
      exact .concat_of_none (hnone hsource) _
  cases hrepairs with
  | @notCompleted e y hsource hfailed hy =>
    rw [← List.append_assoc]
    refine CompletedOnce.append_of_not_ends (.of_none ?_) hsent
    intro z hz
    simp only [List.mem_append, List.mem_cons, List.not_mem_nil, or_false] at hz
    rcases hz with hz | rfl | rfl
    · exact hnone hsource z hz
    · exact Exchange.not_completes_of_error hfailed
    · exact Exchange.not_completes_of_kind (by simp [hy])
  | @notStarted e x hcompletes hcreate hfailed =>
    rw [List.append_assoc]
    apply hclosed
    intro y hy
    rcases List.mem_cons.mp hy with rfl | hy
    · exact hcreate.not_ends
    · exact hsent y hy
  | @notCarried e new x y carried hcompletes hstarts hcarried hy =>
    rw [List.append_assoc, List.cons_append, List.append_assoc] at hchain ⊢
    have hne := hstale.ne_of_starts hplan hchain (by simp) hstarts
    apply hclosed
    intro z hz
    simp only [List.mem_cons, List.mem_append, List.not_mem_nil, or_false] at hz
    rcases hz with rfl | hz | rfl | hz
    · exact hstarts.1.not_ends
    · exact (hcarried z hz).not_ends
    · rw [hy, Request.ends_abortion_iff]
      exact hne
    · exact hsent z hz
  | @replaced new x carried parts slots hcompletes hstarts hcarried =>
    rw [List.append_assoc, List.cons_append]
    apply hclosed
    intro z hz
    simp only [List.mem_cons, List.mem_append] at hz
    rcases hz with rfl | hz | hz
    · exact hstarts.1.not_ends
    · exact (hcarried z hz).not_ends
    · exact hsent z hz

/-- A write of such a writer leaves it as it was, still to be repaired, or has repaired it. -/
theorem Waiting.write (h : w.Waiting c t old xs) (hphase : w.phase = .active) {data : Bytes}
    (hdata : data.size ≠ 0) (hrun : (Operation.write data).run.execute w c = (result, w', c')) :
    (∃ completed, w' = { w with repair := .required completed } ∧ w'.Stale c' t completed) ∨
      w'.repair = .done := by
  obtain ⟨-, completed, hstale, -⟩ := h
  simp only [Operation.run, Writing.execute_discard] at hrun
  rcases write_of_stale hphase hstale hdata with
    ⟨e, w₁, c₁, completed', hwrite, -, hw₁, hstale', -⟩ |
    ⟨w₁, c₁, _, w₂, c₂, sent, taken, spare', -, hreplaced, hwrite, htook⟩
  · rw [hwrite] at hrun
    obtain ⟨-, rfl, rfl⟩ := hrun
    exact .inl ⟨completed', hw₁, hstale'⟩
  · rw [hwrite] at hrun
    obtain ⟨-, rfl, rfl⟩ := hrun
    obtain ⟨slots, hw₁⟩ := hreplaced.writer
    obtain ⟨slots', hw₂⟩ := htook.writer
    exact .inr (by rw [hw₂, hw₁])

/-- A repair that fails leaves the writer to be repaired, and tells it of a completion. -/
theorem Waiting.notRepaired {e : Error} {data : Bytes} {b : Bool} (h : w.Waiting c t old xs)
    (honce : CompletedOnce old xs) (hphase : w.phase = .active)
    (hplan : c.service.Within Disturbance.Fails) (hdata : data.size ≠ 0)
    (hrepair : w.repair = .required b)
    (hrun : (Operation.write data).run.execute w c = (.error e, w', c')) (hasks : c.Asks c' ys)
    (hrepairs : Repairs w c (.error e) w' ys) :
    CompletedOnce old (xs ++ ys) ∧ w'.Waiting c' t old (xs ++ ys) := by
  have hchain : Exchange.Chain c.service (ys ++ []) c'.service := by
    rw [List.append_nil]
    exact hasks.chain
  have honce' := h.completedOnce honce hplan hchain hrepairs (by simp)
  rw [List.append_nil] at honce'
  refine ⟨honce', ?_⟩
  rcases h.write hphase hdata hrun with ⟨completed, hw', hstale'⟩ | hdone
  · refine ⟨by rw [hw', h.session], completed, hstale', ?_⟩
    rintro rfl
    obtain ⟨hsource, hys⟩ := hrepairs.not_completed hstale'.repair
    rw [h.session] at hys
    intro x hx
    exact (List.mem_append.mp hx).elim (h.none_before hsource x) (hys x)
  · obtain ⟨b', hw'⟩ := hrepairs.writer_eq hrepair
    rw [hw'] at hdone
    cases hdone

/-- A repair that succeeds moves the writer to another upload. -/
theorem Waiting.repaired {sent : List (Exchange (Disturbed Store))} (h : w.Waiting c t old xs)
    (honce : CompletedOnce old xs) (hplan : c.service.Within Disturbance.Fails)
    (hasks : c.Asks c' (ys ++ sent)) (hrepairs : Repairs w c (.ok ()) w₁ ys)
    (hsends : Sends w₁ result w' sent) :
    CompletedOnce old (xs ++ (ys ++ sent)) ∧ w'.Moved old := by
  have hsent : ∀ x ∈ sent, ¬ x.request.Ends old.uploadId :=
    fun x hx => (hsends.parts x hx).not_ends
  refine ⟨h.completedOnce honce hplan hasks.chain hrepairs hsent, ?_⟩
  obtain ⟨hsession, completed, hstale, -⟩ := h
  cases hrepairs with
  | replaced hcompletes hstarts hcarried =>
    rw [List.append_assoc, List.cons_append] at hasks
    refine ⟨hsends.advances.repair_eq, ?_⟩
    rw [hsends.advances.session_eq, ← hsession]
    exact hstale.ne_of_starts hplan hasks.chain (by simp) hstarts

/-- A close, a commit and a cancel finish such a writer.  They complete the upload at most once, and
only when no completion of it has returned. -/
theorem Waiting.finished (h : w.Waiting c t old xs) (honce : CompletedOnce old xs)
    (hphase : w.phase = .active) (hop : ∀ data, op ≠ .write data)
    (hrun : op.run.execute w c = (result, w', c')) (hstep : w.Step c c' op result w' ys) :
    CompletedOnce old (xs ++ ys) ∧ w'.phase ≠ .active := by
  have hparts : ∀ {sent : List (Exchange (Disturbed Store))} {s : Session},
      (∀ x ∈ sent, x.request.IsPartOf s) → ∀ x ∈ sent, ¬ x.request.Ends old.uploadId :=
    fun hsent x hx => (hsent x hx).not_ends
  cases hstep with
  | @closed _ w₁ _ hsends =>
    have hclosed : w₁.phase = .closed := hsends.advances.phase_eq
    exact ⟨honce.append_of_not_ends (hparts hsends.parts), by rw [hclosed]; decide⟩
  | committedBefore hsource =>
    rw [List.append_nil]
    exact ⟨honce, by simp⟩
  | restNotSent hsource hx hpool =>
    -- such a writer has parts and nothing staged, so its commit finishes it
    obtain ⟨-, completed, hstale, -⟩ := h
    have hcommitted := commit_phase_of_staged_empty (c := c) hphase (staged_of_none hstale.slots)
      hstale.parts_ne_nil
    simp only [Operation.run] at hrun
    rw [hrun, hphase] at hcommitted
    cases hcommitted
  | committed hsource hrest hsends hx =>
    refine ⟨?_, by simp⟩
    rw [← List.append_assoc]
    apply CompletedOnce.concat_of_none
    intro x hx
    rcases List.mem_append.mp hx with hx | hx
    · exact h.none_before hsource x hx
    · exact fun hcompletes => hparts hsends.parts x hx hcompletes.ends
  | notCommitted hsource hrest hsends hfailed hy =>
    refine ⟨.of_none ?_, by simp⟩
    intro x hx
    simp only [List.mem_append, List.mem_cons, List.not_mem_nil, or_false] at hx
    rcases hx with hx | hx | rfl | rfl
    · exact h.none_before hsource x hx
    · exact fun hcompletes => hparts hsends.parts x hx hcompletes.ends
    · exact Exchange.not_completes_of_error hfailed
    · exact Exchange.not_completes_of_kind (by simp [hy])
  | cancelledBefore hsource =>
    rw [List.append_nil]
    exact ⟨honce, by simp⟩
  | cancelled hsource hy =>
    refine ⟨.of_none ?_, by simp⟩
    intro x hx
    simp only [List.mem_append, List.mem_singleton] at hx
    rcases hx with hx | rfl
    · exact h.none_before hsource x hx
    · exact Exchange.not_completes_of_kind (by simp [hy])
  | _ => exact absurd rfl (hop _)

theorem Waiting.step (h : w.Waiting c t old xs) (honce : CompletedOnce old xs)
    (hphase : w.phase = .active) (hplan : c.service.Within Disturbance.Fails)
    (hrun : op.run.execute w c = (result, w', c')) (hasks : c.Asks c' ys)
    (hstep : w.Step c c' op result w' ys) : w'.Retrying c' t old (xs ++ ys) := by
  by_cases hop : ∃ data, op = .write data
  · obtain ⟨data, rfl⟩ := hop
    cases hstep with
    | wroteNothing hdata =>
      obtain ⟨hsession, completed, hstale, hnone⟩ := h
      rw [List.append_nil]
      exact ⟨honce, fun _ => .inl ⟨hsession, completed, hstale.of_service hasks.chain, hnone⟩⟩
    | wrote hdata hsettled hsends =>
      obtain ⟨-, completed, hstale, -⟩ := h
      exact absurd hstale.repair (hsettled _)
    | notRepaired hdata hrepair hrepairs hpool =>
      obtain ⟨honce', hwaiting⟩ :=
        h.notRepaired honce hphase hplan hdata hrepair hrun hasks hrepairs
      exact ⟨honce', fun _ => .inl hwaiting⟩
    | repaired hdata hrepair hrepairs hsends =>
      obtain ⟨honce', hmoved⟩ := h.repaired honce hplan hasks hrepairs hsends
      exact ⟨honce', fun _ => .inr hmoved⟩
  · rw [not_exists] at hop
    obtain ⟨honce', hfinished⟩ := h.finished honce hphase hop hrun hstep
    exact ⟨honce', fun hactive => absurd hactive hfinished⟩

/-- A writer that was repaired stays so, keeps its upload and ends no other. -/
theorem Step.of_done (h : w.Step c c' op result w' ys) (hdone : w.repair = .done) :
    w'.repair = .done ∧ w'.session = w.session ∧
      ∀ x ∈ ys, ∀ id, x.request.Ends id → w.session.uploadId = id := by
  rcases h.stays_or_repairs with ⟨hsame, hsession, habout⟩ | ⟨_, b, -, -, hrequired⟩
  · exact ⟨hsame.trans hdone, hsession, fun x hx _ hends => (habout x hx).eq_of_ends hends⟩
  · rw [hdone] at hrequired
    cases hrequired

/-! ## 4. All calls -/

theorem Retrying.step (h : w.Retrying c t old xs) (hphase : w.phase = .active)
    (hplan : c.service.Within Disturbance.Fails) (hrun : op.run.execute w c = (result, w', c'))
    (hasks : c.Asks c' ys) (hstep : w.Step c c' op result w' ys) :
    w'.Retrying c' t old (xs ++ ys) := by
  rcases h.state hphase with hwaiting | hmoved
  · exact hwaiting.step h.once hphase hplan hrun hasks hstep
  · obtain ⟨hdone, hsession, hends⟩ := hstep.of_done hmoved.repair
    refine ⟨h.once.append_of_not_ends ?_, fun _ => .inr ⟨hdone, by rw [hsession]; exact hmoved.session⟩⟩
    intro y hy hold
    exact hmoved.session (hends y hy _ hold)

theorem Retrying.elsewhere (h : w.Retrying c t old xs) (hc : c.Elsewhere w.session.key c') :
    w.Retrying c' t old xs := by
  refine ⟨h.once, fun hphase => ?_⟩
  rcases h.state hphase with ⟨hsession, completed, hstale, hnone⟩ | hmoved
  · exact .inl ⟨hsession, completed, hstale.elsewhere hc, hnone⟩
  · exact .inr hmoved

theorem History.retrying (hopen : w₀.Opened c₀ t) (hrepair : w₀.repair = .required false)
    (hplan : c₀.service.Within Disturbance.Fails)
    (h : History Disturbance.Fails w₀ c₀ turns w c) :
    w.Retrying c t w₀.session (turns.flatMap Turn.exchanges) := by
  refine h.preserves (p := fun w c xs => w.Retrying c t w₀.session xs) hplan ?_
    (fun hw hphase hplan' hrun hasks hstep => hw.step hphase hplan' hrun hasks hstep)
    fun hw hc => hw.elsewhere hc
  exact ⟨List.Pairwise.nil, fun _ => .inl ⟨rfl, false, hopen.stale hrepair, by simp⟩⟩

/-- Once a repair has completed the upload and not replaced it, a commit and a cancel have nothing to
ask for. -/
theorem Step.of_sourceCompleted {σ : Type} [Service σ] {c c' : Context σ} {xs : List (Exchange σ)}
    (h : w.Step c c' op result w' xs) (hop : op = .commit ∨ op = .cancel)
    (hsource : w.sourceCompleted = true) : result = .ok () ∧ xs = [] := by
  have hopen : w.sourceCompleted = false → result = .ok () ∧ xs = [] := by simp [hsource]
  cases h with
  | committedBefore => exact ⟨rfl, rfl⟩
  | restNotSent hfalse => exact hopen hfalse
  | committed hfalse => exact hopen hfalse
  | notCommitted hfalse => exact hopen hfalse
  | cancelledBefore => exact ⟨rfl, rfl⟩
  | cancelled hfalse => exact hopen hfalse
  | _ => simp at hop

/-- When the old upload was completed and not replaced, its object is there, and a commit and a
cancel return without asking for anything. -/
theorem Retrying.finish (h : w.Retrying c t old xs) (hphase : w.phase = .active)
    (hrepair : w.repair ≠ .done) (hcompleted : ∃ x ∈ xs, x.Completes old) :
    (∃ o, c.store.objects.find? old.key = some o ∧ o.content = Bytes.concat t.values) ∧
      ∀ op, op = .commit ∨ op = .cancel → (Turn.mk op w c).result = .ok () ∧
        (Turn.mk op w c).exchanges = [] ∧ (Turn.mk op w c).contextAfter.store = c.store := by
  rcases h.state hphase with ⟨rfl, completed, hstale, hnone⟩ | hmoved
  · have hcompleted' : completed = true := by
      rw [← Bool.not_eq_false]
      intro hfalse
      obtain ⟨x, hx, hcompletes⟩ := hcompleted
      exact hnone hfalse x hx hcompletes
    have hsource : w.sourceCompleted = true := by
      rw [sourceCompleted_iff hstale.repair, hcompleted']
    refine ⟨hstale.object hcompleted', ?_⟩
    intro op hop
    have hactive : (Turn.mk op w c).writer.phase = .active := hphase
    obtain ⟨hasks, hstep⟩ := Turn.step hactive
    obtain ⟨hresult, hnothing⟩ := hstep.of_sourceCompleted hop hsource
    rw [hnothing] at hasks
    exact ⟨hresult, hnothing, congrArg (·.service) hasks.chain⟩
  · exact absurd hmoved.repair hrepair

end Writer

end ResumableStorage
