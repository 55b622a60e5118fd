/-
  ResumableStorage/Proofs/Upload/History.lean
  ===========================================
  **Histories of a writer** — a writer is opened on an upload and then called any number
  of times, whatever comes of each call; in between others may do anything to the store
  that does not concern the writer's key.

  The main statement is on the accounts of a writer in use: no byte that was accepted is
  missing, none is there twice, and all are in order, after every history and under every
  plan of failures.
-/
import ResumableStorage.Proofs.Upload.Operations

namespace ResumableStorage

/-! ## 1. Calls -/

inductive Operation where
  | write (data : Bytes)
  | close
  | commit
  | cancel

namespace Operation

def run {σ : Type} [Service σ] : Operation → Writing σ Unit
  | write data => discard (Writer.write data)
  | close => Writer.close
  | commit => Writer.commit
  | cancel => Writer.cancel

/-- The bytes that a call has accepted: all of a write that has returned, and of one that has
raised as many as the writer's size has grown by. -/
def accepted (op : Operation) (returned : Bool) (w w' : Writer) : Bytes :=
  match op with
  | write data => if returned then data else data.extract 0 (w'.size - w.size).toNat
  | close | commit | cancel => ByteArray.empty

end Operation

structure Call where
  operation : Operation
  returned : Bool

/-! ## 2. Histories -/

/-- Others have changed the store and the plan, but nothing at this key. -/
structure Context.Elsewhere (key : String) (c c' : Context (Disturbed Store)) : Prop where
  failsOnly : c'.service.FailsOnly
  ids : c'.store.IdsInOrder
  object : c'.store.objects.find? key = c.store.objects.find? key
  uploads : ∀ u : StoredUpload, u.key = key → (u ∈ c'.store.uploads ↔ u ∈ c.store.uploads)

namespace Writer

/-- The writer of an upload in flight that holds a table, before its first call. -/
structure Opened (w : Writer) (c : Context (Disturbed Store)) (t : Keyed Int Bytes) : Prop where
  failsOnly : c.service.FailsOnly
  ids : c.store.IdsInOrder
  writer : w = ofSession w.policy w.session (Part.ofTable t)
  upload : ∃ u, c.store.upload? w.session.key w.session.uploadId = some u ∧ u.parts = t

/-- The writer and the context that calls lead to, and the bytes that they have accepted. -/
inductive Reaches (w₀ : Writer) (c₀ : Context (Disturbed Store)) :
    List Call → Bytes → Writer → Context (Disturbed Store) → Prop
  | start : Reaches w₀ c₀ [] ByteArray.empty w₀ c₀
  | call {calls : List Call} {accepted : Bytes} {w w' : Writer}
      {c c' : Context (Disturbed Store)} {result : Except Error Unit}
      (h : Reaches w₀ c₀ calls accepted w c) (op : Operation)
      (hrun : op.run.execute w c = (result, w', c')) :
      Reaches w₀ c₀ (calls ++ [⟨op, result.isOk⟩]) (accepted ++ op.accepted result.isOk w w') w' c'
  | elsewhere {calls : List Call} {accepted : Bytes} {w : Writer}
      {c c' : Context (Disturbed Store)} (h : Reaches w₀ c₀ calls accepted w c)
      (hc : c.Elsewhere w.session.key c') : Reaches w₀ c₀ calls accepted w c'

end Writer

/-! ## 3. Accounts -/

/-- The body that an upload was given under a number. -/
def Store.body? (s : Store) (session : Session) (number : Int) : Option Bytes :=
  (s.uploads.find? fun u => u.id = session.uploadId && u.key = session.key).bind
    (·.parts.find? number)

theorem Store.IdsInOrder.body?_eq {s : Store} {session : Session} {u : StoredUpload}
    (h : s.IdsInOrder) (hu : u ∈ s.uploads) (hid : u.id = session.uploadId)
    (hkey : u.key = session.key) (number : Int) :
    s.body? session number = u.parts.find? number := by
  have hfind : (s.uploads.find? fun v => v.id = session.uploadId && v.key = session.key) =
      some u := by
    rcases hfound : s.uploads.find? fun v => v.id = session.uploadId && v.key = session.key with _ | v
    · have hnone := List.find?_eq_none.mp hfound u hu
      simp [hid, hkey] at hnone
    · have hp := List.find?_some hfound
      simp only [Bool.and_eq_true, decide_eq_true_eq] at hp
      rw [hfound, h.unique (List.mem_of_find?_eq_some hfound) hu (hp.1.trans hid.symm)]
  rw [Store.body?, hfind, Option.bind_some]

namespace Writer

/-- The accounts of a writer are right: `content` is what its parts and its slots hold. -/
structure Accounts (w : Writer) (s : Store) (content : Bytes) : Prop where
  bytes : ∃ bodies, w.parts.mapM (fun p => s.body? w.session p.number) = some bodies ∧
    Bytes.concat bodies ++ w.ready ++ w.pending = content
  size : w.size = content.size
  numbers : w.parts.map (·.number) = (List.range w.parts.length).map fun i : Nat => (i : Int) + 1
  inOrder : w.pending = ByteArray.empty ∨ w.ready.size = w.policy.chunk
  ready_le : w.ready.size ≤ w.policy.chunk
  pending_le : w.pending.size ≤ w.policy.chunk

variable {w w' w₀ : Writer} {c c' c₀ : Context (Disturbed Store)} {bodies spare : List Bytes}
  {t : Keyed Int Bytes} {completed : Bool} {content : Bytes}

theorem Recorded.bodies_eq (h : w.Recorded c bodies spare) :
    w.parts.mapM (fun p => c.store.body? w.session p.number) = some bodies := by
  obtain ⟨u, hu, hid, hkey, hparts⟩ := h.record
  have hbody : ∀ e ∈ Part.numberedFrom 1 bodies,
      c.store.body? w.session (Part.ofEntry e).number = some e.2 := by
    intro e he
    rw [h.ids.body?_eq hu hid hkey, hparts]
    exact Part.find?_table_append he spare
  have hall : ∀ l : List (Int × Bytes),
      (∀ e ∈ l, c.store.body? w.session (Part.ofEntry e).number = some e.2) →
      (l.map Part.ofEntry).mapM (fun p => c.store.body? w.session p.number) =
        some (l.map Prod.snd) := by
    intro l hl
    induction l with
    | nil => rfl
    | cons e l ih =>
      rw [List.map_cons, List.mapM_cons, hl e (by simp), ih fun e he => hl e (by simp [he])]
      rfl
  rw [h.parts, Part.ofBodies, hall _ hbody, Part.map_snd_numberedFrom]

/-- What holds of a writer in use: its upload is in flight and takes what is sent, or the upload is
still to be replaced and nothing is staged. -/
inductive InUse (w : Writer) (c : Context (Disturbed Store)) (content : Bytes) : Prop
  | flowing {bodies spare : List Bytes} (h : w.Holds c content bodies spare)
      (hrepair : ∀ b, w.repair ≠ .required b)
  | stale {bodies : List Bytes} {completed : Bool} (h : w.Stale c (Part.table bodies) completed)
      (hbytes : Bytes.concat bodies = content)

theorem Recorded.numbers (h : w.Recorded c bodies spare) :
    w.parts.map (·.number) = (List.range w.parts.length).map fun i : Nat => (i : Int) + 1 := by
  rw [h.parts, Part.map_number_ofBodies, Part.length_ofBodies]

theorem InUse.accounts (h : w.InUse c content) : w.Accounts c.store content := by
  cases h with
  | flowing h hrepair =>
    refine ⟨⟨_, h.attached.recorded.bodies_eq, ?_⟩, h.size, h.attached.recorded.numbers, ?_,
      h.fits.ready_le, h.fits.pending_le⟩
    · rw [ByteArray.append_assoc]
      exact h.bytes
    · exact h.fits.inOrder.imp_left ByteArray.size_eq_zero_iff.mp
  | stale h hbytes =>
    have hready : w.ready = ByteArray.empty := by rw [ready, h.slots]
    have hpending : w.pending = ByteArray.empty := by rw [pending, h.slots]
    refine ⟨⟨_, h.recorded.bodies_eq, ?_⟩, ?_, h.recorded.numbers, .inl hpending, ?_, ?_⟩
    · rw [hready, hpending, hbytes]
      simp
    · rw [h.size, Part.values_table, hbytes]
    · simp [hready]
    · simp [hpending]

/-! ## 4. One call -/

theorem Attached.elsewhere (h : w.Attached c bodies spare) (hc : c.Elsewhere w.session.key c') :
    w.Attached c' bodies spare := by
  obtain ⟨u, hu, hparts⟩ := h.upload
  obtain ⟨hmem, hid, hkey, hstatus⟩ := h.ids.upload?_eq_some_iff.mp hu
  exact ⟨hc.failsOnly, hc.ids, h.parts, ⟨u, hc.ids.upload?_eq_some_iff.mpr
    ⟨(hc.uploads u hkey).mpr hmem, hid, hkey, hstatus⟩, hparts⟩, h.spare⟩

theorem Stale.elsewhere (h : w.Stale c t completed) (hc : c.Elsewhere w.session.key c') :
    w.Stale c' t completed := by
  obtain ⟨u, hmem, hid, hkey, hparts⟩ := h.record
  refine ⟨hc.failsOnly, hc.ids, h.parts, ⟨u, (hc.uploads u hkey).mpr hmem, hid, hkey, hparts⟩,
    h.repair, h.nonempty, h.slots, h.size, ?_⟩
  rw [hc.object]
  exact h.object

theorem InUse.elsewhere (h : w.InUse c content) (hc : c.Elsewhere w.session.key c') :
    w.InUse c' content := by
  cases h with
  | flowing h hrepair =>
    exact .flowing ⟨h.attached.elsewhere hc, h.fits, h.bytes, h.size⟩ hrepair
  | stale h hbytes => exact .stale (h.elsewhere hc) hbytes

theorem Took.accepted_eq {data : Bytes} {result : Except Error Nat} {sent spare' : List Bytes}
    {taken : Nat} (h : Took w c bodies spare data result w' c' sent taken spare') :
    (Operation.write data).accepted result.isOk w w' = data.extract 0 taken := by
  obtain ⟨slots, hw'⟩ := h.writer
  rcases h.outcome with ⟨rfl, rfl, -⟩ | ⟨e, rfl, -⟩
  · exact ByteArray.extract_zero_size.symm
  · have hgrown : (w'.size - w.size).toNat = taken := by
      rw [hw']
      simp only
      omega
    simp only [Operation.accepted, Except.isOk, Except.toBool, Bool.false_eq_true, if_false,
      hgrown]

theorem InUse.write (h : w.InUse c content) (hphase : w.phase = .active) (data : Bytes)
    {result : Except Error Nat} (hrun : (Writer.write data).execute w c = (result, w', c')) :
    w'.InUse c' (content ++ (Operation.write data).accepted result.isOk w w') := by
  by_cases hempty : data.size = 0
  · rw [write_of_empty hphase hempty] at hrun
    obtain ⟨rfl, rfl, rfl⟩ := hrun
    have hdata : data = ByteArray.empty := ByteArray.size_eq_zero_iff.mp hempty
    have hnothing : (Operation.write data).accepted true w w = ByteArray.empty := hdata
    simpa only [Except.isOk, Except.toBool, hnothing, ByteArray.append_empty] using h
  · cases h with
    | flowing h hrepair =>
      obtain ⟨_, _, _, sent, taken, spare', hwrite, htook⟩ :=
        write_of_attached hphase hrepair h.attached h.fits hempty
      rw [hrun] at hwrite
      obtain ⟨rfl, rfl, rfl⟩ := hwrite
      obtain ⟨slots, hw'⟩ := htook.writer
      rw [htook.accepted_eq]
      exact .flowing (htook.holds h) (by rw [hw']; exact hrepair)
    | stale h hbytes =>
      rcases write_of_stale hphase h hempty with
        ⟨e, w₁, c₁, completed', hwrite, -, rfl, hstale, -⟩ |
        ⟨w₁, c₁, _, _, _, sent, taken, spare', -, hreplaced, hwrite, htook⟩
      · rw [hrun] at hwrite
        obtain ⟨rfl, rfl, rfl⟩ := hwrite
        apply InUse.stale hstale
        simp [Operation.accepted, Except.isOk, Except.toBool, hbytes]
      · rw [hrun] at hwrite
        obtain ⟨rfl, rfl, rfl⟩ := hwrite
        obtain ⟨slots, hw₁⟩ := hreplaced.writer
        obtain ⟨slots', hw'⟩ := htook.writer
        have hsize : w₁.size = w.size := by rw [hw₁]
        have haccepted : (Operation.write data).accepted result.isOk w w' =
            (Operation.write data).accepted result.isOk w₁ w' := by
          simp only [Operation.accepted, hsize]
        have hholds := htook.holds (hreplaced.holds h)
        rw [haccepted, htook.accepted_eq, ← hbytes]
        rw [Part.values_table] at hholds
        apply InUse.flowing hholds
        simp [hw', hw₁]

/-- A commit of a writer that has parts and nothing staged finishes it. -/
theorem commit_phase_of_staged_empty (hphase : w.phase = .active)
    (hstaged : w.staged = ByteArray.empty) (hparts : w.parts ≠ []) :
    (commit.execute w c).2.1.phase = .committed := by
  have hnonempty : w.parts.isEmpty = false := List.isEmpty_eq_false_iff.mpr hparts
  rw [commit, Writing.execute_bind, ensureActive_of_active hphase]
  simp only
  rw [Writing.execute_bind]
  simp only [Writing.execute_writer]
  by_cases hsource : w.sourceCompleted = true
  · simp only [hsource, if_true]
    exact phase_of_enter (release_keepsPhase.bind fun _ => (countEnding_keepsPhase _).bind fun _ =>
      Writing.keepsPhase_ofRun _) .committed w c
  · simp only [hsource, Bool.false_eq_true, if_false]
    rw [Writing.execute_bind, flush_of_staged_empty hstaged]
    simp only
    rw [Writing.execute_bind]
    simp only [Writing.execute_writer, hnonempty, Bool.false_eq_true, if_false]
    exact phase_of_enter (release_keepsPhase.bind fun _ => complete_keepsPhase) .committed w c

theorem InUse.commit (h : w.InUse c content) (hphase : w.phase = .active)
    {result : Except Error Unit} (hrun : Writer.commit.execute w c = (result, w', c')) :
    w'.phase = .committed ∨ w'.InUse c' content := by
  cases h with
  | flowing h hrepair =>
    have hsource : w.sourceCompleted = false := by
      simpa only [sourceCompleted, decide_eq_false_iff_not] using hrepair true
    obtain ⟨_, _, _, hcommit, hleads, hcases⟩ :=
      commit_of_attached hphase hsource h.attached h.fits
    rw [hrun] at hcommit
    obtain ⟨rfl, rfl, rfl⟩ := hcommit
    rcases hcases with ⟨e, spare', -, rfl, -, hspare, hstore⟩ | ⟨rfl, -⟩
    · exact .inr (.flowing ⟨h.attached.next hleads hstore rfl h.attached.parts hspare, h.fits,
        h.bytes, h.size⟩ hrepair)
    · exact .inl rfl
  | stale h hbytes =>
    have hcommitted := commit_phase_of_staged_empty (c := c) hphase (staged_of_none h.slots)
      h.parts_ne_nil
    rw [hrun] at hcommitted
    exact .inl hcommitted

theorem run_of_finished {σ : Type} [Service σ] {c : Context σ} (hphase : w.phase ≠ .active)
    (op : Operation) : op.run.execute w c = (.error (.finished w.phase), w, c) := by
  have hrefused := ensureActive_of_finished (c := c) hphase
  cases op with
  | write data =>
    simp only [Operation.run, Writer.write, Writing.execute_discard, Writing.execute_bind, hrefused]
    rfl
  | close => simp only [Operation.run, close, Writing.execute_bind, hrefused]
  | commit => simp only [Operation.run, Writer.commit, Writing.execute_bind, hrefused]
  | cancel => simp only [Operation.run, cancel, Writing.execute_bind, hrefused]

/-- One call of a writer in use: it is in use afterwards, with the content that it has accepted, or
it is finished. -/
theorem InUse.call (h : w.InUse c content) (hphase : w.phase = .active) (op : Operation)
    {result : Except Error Unit} (hrun : op.run.execute w c = (result, w', c'))
    (hactive : w'.phase = .active) :
    w'.InUse c' (content ++ op.accepted result.isOk w w') := by
  cases op with
  | write data =>
    rcases hwrite : (Writer.write data).execute w c with ⟨answer, w₁, c₁⟩
    simp only [Operation.run, Writing.execute_discard, hwrite, Prod.mk.injEq] at hrun
    obtain ⟨rfl, rfl, rfl⟩ := hrun
    have hin := h.write hphase data hwrite
    have hok : (answer.map fun _ => ()).isOk = answer.isOk := by cases answer <;> rfl
    rwa [hok]
  | close =>
    have hclosed := close_phase (c := c) hphase
    simp only [Operation.run] at hrun
    rw [hrun, hactive] at hclosed
    cases hclosed
  | commit =>
    rcases h.commit hphase hrun with hcommitted | hin
    · rw [hactive] at hcommitted
      cases hcommitted
    · simpa only [Operation.accepted, ByteArray.append_empty] using hin
  | cancel =>
    have hcancelled := cancel_phase (c := c) hphase
    simp only [Operation.run] at hrun
    rw [hrun, hactive] at hcancelled
    cases hcancelled

/-! ## 5. All calls -/

/-- A resumed upload has to be replaced exactly when its last body is below the floor. -/
theorem Opened.repair_eq (h : w.Opened c t) : w.repair =
    if t.values.getLast?.any (fun b => decide (b.size < w.policy.floor)) then .required false
    else .notNeeded := by
  have hlast := Part.getLast?_ofTable t
  rw [h.writer]
  simp only [ofSession]
  rcases hvalues : t.values.getLast? with _ | b
  · have hnone : (Part.ofTable t).getLast? = none := by simpa [hvalues] using hlast
    simp [hnone]
  · obtain ⟨p, hp, hsize⟩ : ∃ p, (Part.ofTable t).getLast? = some p ∧ p.size = b.size := by
      simpa [hvalues] using hlast
    simp only [hp, hsize, Option.any_some, Int.ofNat_lt]
    rfl

theorem Opened.parts_eq (h : w.Opened c t) : w.parts = Part.ofTable t := by
  rw [h.writer]
  rfl

theorem Opened.phase_eq (h : w.Opened c t) : w.phase = .active := by
  rw [h.writer]
  rfl

theorem Opened.slots_eq (h : w.Opened c t) : w.slots = none := by
  rw [h.writer]
  rfl

theorem Opened.size_eq (h : w.Opened c t) : w.size = (Bytes.concat t.values).size := by
  rw [h.writer]
  exact Part.totalSize_ofTable t

theorem Opened.attached (h : w.Opened c (Part.table bodies)) : w.Attached c bodies [] := by
  refine ⟨h.failsOnly, h.ids, h.parts_eq, ?_, by simp⟩
  rw [List.append_nil]
  exact h.upload

theorem Opened.holds (h : w.Opened c (Part.table bodies)) :
    w.Holds c (Bytes.concat bodies) bodies [] := by
  have hslots := h.slots_eq
  have hsize := h.size_eq
  rw [Part.values_table] at hsize
  refine ⟨h.attached, .of_empty ?_ ?_, ?_, hsize⟩
  · simp [ready, hslots]
  · simp [pending, hslots]
  · simp [staged_of_none hslots]

/-- A writer that was just opened has to replace its upload first when the last part is below the
floor. -/
theorem Opened.stale (h : w.Opened c t) (hrepair : w.repair = .required false) :
    w.Stale c t false := by
  obtain ⟨u, hu, hparts⟩ := h.upload
  obtain ⟨hmem, hid, hkey, -⟩ := h.ids.upload?_eq_some_iff.mp hu
  refine ⟨h.failsOnly, h.ids, h.parts_eq, ⟨u, hmem, hid, hkey, hparts⟩, hrepair, ?_, h.slots_eq,
    h.size_eq, nofun⟩
  intro hnil
  rw [h.repair_eq, Keyed.values, hnil] at hrepair
  cases hrepair

theorem Opened.inUse (h : w.Opened c (Part.table bodies)) : w.InUse c (Bytes.concat bodies) := by
  have hrepair := h.repair_eq
  split at hrepair
  · exact .stale (h.stale hrepair) rfl
  · exact .flowing h.holds (by simp [hrepair])

/-- After every history, a writer in use is in use with what it was opened on and has accepted. -/
theorem Reaches.inUse (hopen : w₀.Opened c₀ (Part.table bodies)) {calls : List Call} {accepted : Bytes}
    (h : Reaches w₀ c₀ calls accepted w c) (hactive : w.phase = .active) :
    w.InUse c (Bytes.concat bodies ++ accepted) := by
  induction h with
  | start => simpa using hopen.inUse
  | @call calls accepted w w' c c' result h op hrun ih =>
    by_cases hbefore : w.phase = .active
    · rw [← ByteArray.append_assoc]
      exact (ih hbefore).call hbefore op hrun hactive
    · rw [run_of_finished hbefore op] at hrun
      obtain ⟨-, rfl, -⟩ := hrun
      exact absurd hactive hbefore
  | elsewhere h hc ih => exact (ih hactive).elsewhere hc

/-- No byte is lost, repeated or moved: whatever was called and whatever has failed, the parts and
the slots of a writer in use hold exactly what its upload held and what was accepted since. -/
theorem Reaches.accounts_balance (hopen : w₀.Opened c₀ (Part.table bodies)) {calls : List Call}
    {accepted : Bytes} (h : Reaches w₀ c₀ calls accepted w c) (hactive : w.phase = .active) :
    w.Accounts c.store (Bytes.concat bodies ++ accepted) :=
  (h.inUse hopen hactive).accounts

/-! ## 6. A sample -/

namespace Sample

def policy : Policy := ⟨2, 4, by decide, by decide⟩

def writer : Writer := ofSession policy ⟨"u1", "bucket", "a"⟩ []

/-- A store with one upload in flight, the one of the writer, behind a plan. -/
def context (queues : List (RequestKind × List (Option Disturbance))) :
    Context (Disturbed Store) :=
  { service := ⟨(Store.empty 0).startUpload "a", queues⟩
    pool := ⟨4, by decide, none, [], #[]⟩ }

def onePartFails : List (RequestKind × List (Option Disturbance)) :=
  [(.uploadPart, [some ⟨false, .fails (.unreachable "down")⟩])]

theorem onePartFails_failsOnly : (context onePartFails).service.FailsOnly := by
  intro q hq x hx
  simp only [context, onePartFails, List.mem_singleton] at hq
  subst hq
  simp only [List.mem_singleton, Option.some.injEq] at hx
  rw [hx]
  exact .error _ _ _

theorem opened {queues : List (RequestKind × List (Option Disturbance))}
    (hf : (context queues).service.FailsOnly) : writer.Opened (context queues) (Part.table []) := by
  have hids := Store.empty_idsInOrder 0
  exact ⟨hf, hids.startUpload "a", rfl, ⟨_, hids.upload?_startUpload "a", rfl⟩⟩

def data : Bytes := ⟨#[97, 98, 99, 100, 101, 102, 103, 104]⟩

def failedWrite : Except Error Unit × Writer × Context (Disturbed Store) :=
  (Operation.write data).run.execute writer (context onePartFails)

theorem failedWrite_reached : Reaches writer (context onePartFails) [⟨.write data, false⟩] data
    failedWrite.2.1 failedWrite.2.2 := by
  have hraised : failedWrite.1.isOk = false := by cbv
  have haccepted : (Operation.write data).accepted false writer failedWrite.2.1 = data := by cbv
  have h : Reaches writer (context onePartFails) [⟨.write data, failedWrite.1.isOk⟩]
      (ByteArray.empty ++
        (Operation.write data).accepted failedWrite.1.isOk writer failedWrite.2.1)
      failedWrite.2.1 failedWrite.2.2 :=
    .call .start (.write data) rfl
  rwa [hraised, haccepted, ByteArray.empty_append] at h

end Sample

theorem accounts_balance_after_failed_write :
    Sample.failedWrite.1.isOk = false ∧ Sample.failedWrite.2.1.phase = .active ∧
      Sample.failedWrite.2.1.Accounts Sample.failedWrite.2.2.store
        (Bytes.concat [] ++ Sample.data) := by
  have hactive : Sample.failedWrite.2.1.phase = .active := by cbv
  exact ⟨by cbv, hactive, Reaches.accounts_balance (Sample.opened Sample.onePartFails_failsOnly)
    Sample.failedWrite_reached hactive⟩

end Writer

end ResumableStorage
