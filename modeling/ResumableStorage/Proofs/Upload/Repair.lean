/-
  ResumableStorage/Proofs/Upload/Repair.lean
  ==========================================
  **Repair of a resumed upload** — a repair that succeeds leaves the writer with a new
  upload that holds the same bytes, in one part or in the first slot.  A repair that
  fails leaves the writer as it was but for one fact: whether the old upload is completed
  by now.  What the old upload held is kept in either case.
-/
import ResumableStorage.Proofs.Upload.Sending

namespace ResumableStorage

namespace Writer

variable {w w' : Writer} {c c' : Context (Disturbed Store)} {bodies spare : List Bytes}
  {t : Keyed Int Bytes} {completed : Bool}

/-! ## 1. A writer before its repair -/

/-- The upload of a writer was given `bodies`, those of the writer's parts, and behind them at most
one that the writer does not count; it may no longer be in flight. -/
structure Recorded (w : Writer) (c : Context (Disturbed Store)) (bodies spare : List Bytes) :
    Prop where
  failsOnly : c.service.FailsOnly
  ids : c.store.IdsInOrder
  parts : w.parts = Part.ofBodies bodies
  record : c.store.Records w.session.uploadId w.session.key (Part.table (bodies ++ spare))
  spare : spare.length ≤ 1

theorem Attached.recorded (h : w.Attached c bodies spare) : w.Recorded c bodies spare := by
  obtain ⟨u, hu, hparts⟩ := h.upload
  obtain ⟨hmem, hid, hkey, -⟩ := h.ids.upload?_eq_some_iff.mp hu
  exact ⟨h.failsOnly, h.ids, h.parts, ⟨u, hmem, hid, hkey, hparts⟩, h.spare⟩

/-- The writer has to replace its upload, which was given a table, with gaps or without.  Once that
is completed its object holds the bodies of the table. -/
structure Stale (w : Writer) (c : Context (Disturbed Store)) (t : Keyed Int Bytes)
    (completed : Bool) : Prop where
  failsOnly : c.service.FailsOnly
  ids : c.store.IdsInOrder
  parts : w.parts = Part.ofTable t
  record : c.store.Records w.session.uploadId w.session.key t
  repair : w.repair = .required completed
  nonempty : t.entries ≠ []
  slots : w.slots = none
  size : w.size = (Bytes.concat t.values).size
  object : completed = true →
    ∃ o, c.store.objects.find? w.session.key = some o ∧ o.content = Bytes.concat t.values

theorem Stale.recorded (h : w.Stale c (Part.table bodies) completed) : w.Recorded c bodies [] :=
  ⟨h.failsOnly, h.ids, h.parts, by rw [List.append_nil]; exact h.record, by simp⟩

theorem Stale.parts_ne_nil (h : w.Stale c t completed) : w.parts ≠ [] := by
  rw [h.parts]
  exact mt List.map_eq_nil_iff.mp h.nonempty

def completedStore (w : Writer) (c : Context (Disturbed Store)) (bodies : List Bytes) : Store :=
  c.store.complete w.session.uploadId w.session.key (Bytes.concat bodies)

/-- A completion that is granted is to be expected: the upload is in flight, and no part but the
last is below the store's floor. -/
def Completable (w : Writer) (c : Context (Disturbed Store)) (bodies : List Bytes) : Prop :=
  (∃ u, c.store.upload? w.session.key w.session.uploadId = some u) ∧
    ∀ b ∈ bodies.dropLast, c.store.minPartSize ≤ b.size

/-! ## 2. Giving up an upload -/

theorem abortQuietly_cases (hf : c.service.FailsOnly) (s : Session) :
    ∃ c', (abortQuietly s).execute c = (.ok (), c') ∧ c.Leads c' ∧
      (c'.store = c.store ∨ c'.store = c.store.abort s.uploadId) := by
  obtain ⟨result, c', hrun, hleads, hstore⟩ := Client.abortUpload_cases hf s
  simp only [abortQuietly, Run.execute_tryCatch, hrun]
  rcases result with e | ⟨⟩
  · exact ⟨_, rfl, ⟨hleads.failsOnly, hleads.calm, hleads.capacity⟩, hstore⟩
  · exact ⟨_, rfl, hleads, hstore⟩

theorem orAbort_of_ok {σ α : Type} [Service σ] {x : Run σ α} {a : α} {c c' : Context σ}
    (hrun : x.execute c = (.ok a, c')) (s : Session) : (orAbort s x).execute c = (.ok a, c') := by
  simp only [orAbort, Run.execute_tryCatch, hrun]

theorem orAbort_of_error {α : Type} {x : Run (Disturbed Store) α} {e : Error}
    (hrun : x.execute c = (.error e, c')) (hf : c'.service.FailsOnly) (s : Session) :
    ∃ c'', (orAbort s x).execute c = (.error e, c'') ∧ c'.Leads c'' ∧
      (c''.store = c'.store ∨ c''.store = c'.store.abort s.uploadId) := by
  obtain ⟨c'', habort, hleads, hstore⟩ := abortQuietly_cases hf s
  exact ⟨c'', by simp only [orAbort, Run.execute_tryCatch, hrun, Run.execute_bind, habort,
    Run.execute_throw], hleads, hstore⟩

/-! ## 3. The old upload -/

theorem sourceCompleted_iff (h : w.repair = .required completed) :
    w.sourceCompleted = completed := by
  cases completed <;> simp [sourceCompleted, h]

/-- A writer whose record is kept, and whose object is there once it is known to be completed, is
still stale. -/
theorem Stale.keep (h : w.Stale c t completed) (hleads : c.Leads c')
    (hids : c'.store.IdsInOrder) (hrecord : c'.store.Records w.session.uploadId w.session.key t)
    {completed' : Bool} (hobject : completed' = true →
      ∃ o, c'.store.objects.find? w.session.key = some o ∧ o.content = Bytes.concat t.values) :
    Stale { w with repair := .required completed' } c' t completed' :=
  ⟨hleads.failsOnly, hids, h.parts, hrecord, rfl, h.nonempty, h.slots, h.size, hobject⟩

/-- The old upload is completed, unless it was before, or the writer stays as it is. -/
theorem completeSource_cases (h : w.Stale c t completed) :
    ∃ result w' c', completeSource.execute w c = (result, w', c') ∧ c.Leads c' ∧
      (result = .ok () ∧ w' = { w with repair := .required true } ∧ w'.Stale c' t true ∧
          c'.store = (if completed then c.store else w.completedStore c t.values) ∨
        ∃ e, result = .error e ∧ w' = w ∧ w.Stale c' t completed ∧
          (c.service.IsCalm → completed = false ∧ ¬ w.Completable c t.values)) := by
  have hself : { w with repair := .required completed } = w := by rw [← h.repair]
  simp only [completeSource, Writing.execute_bind, Writing.execute_writer,
    sourceCompleted_iff h.repair]
  cases completed with
  | true =>
    have hleads : c.Leads c := .refl h.failsOnly
    simp only [Bool.not_true, Bool.false_eq_true, if_false, if_true]
    exact ⟨_, _, _, rfl, hleads, .inl ⟨rfl, hself.symm, h, rfl⟩⟩
  | false =>
    have hids := h.ids
    have hrecord := h.record
    have hfind : ∀ u, c.store.upload? w.session.key w.session.uploadId = some u →
        ∀ e ∈ t.entries, u.parts.find? e.1 = some e.2 := by
      intro u hu e he
      rw [hrecord.parts_eq hids hu]
      exact Part.find?_of_mem he
    obtain ⟨result, c₁, hrun, hleads, hcases⟩ :=
      Client.completeUpload_cases h.failsOnly w.session h.nonempty hfind
    rw [← h.parts] at hrun
    have hkeep₁ : (c₁.store = c.store ∨ c₁.store = w.completedStore c t.values) →
        c₁.store.IdsInOrder ∧ c₁.store.Records w.session.uploadId w.session.key t := by
      rintro (hstore | hstore) <;> rw [hstore]
      · exact ⟨hids, hrecord⟩
      · exact ⟨hids.complete _ _ _, hrecord.complete _ _ _⟩
    simp only [Bool.not_false, if_true, Writing.execute_bind, Writing.execute_discard,
      Writing.execute_ofRun]
    rcases hcases with ⟨etag, u, rfl, hu, hstore⟩ | ⟨e, rfl, hstore, hwhy⟩
    · rw [orAbort_of_ok hrun]
      obtain ⟨hids, hrecord⟩ := hkeep₁ (.inr hstore)
      refine ⟨_, _, _, rfl, hleads, .inl ⟨rfl, rfl, h.keep hleads hids hrecord ?_, hstore⟩⟩
      intro _
      rw [hstore]
      exact ⟨_, Store.complete_find? _ _ _ _, rfl⟩
    · obtain ⟨c', habort, hleads', hstore'⟩ := orAbort_of_error hrun hleads.failsOnly w.session
      have hkept := hkeep₁ (hstore.imp_right fun ⟨_, _, hs⟩ => hs)
      have hkept' : c'.store.IdsInOrder ∧ c'.store.Records w.session.uploadId w.session.key t := by
        rcases hstore' with hstore' | hstore' <;> rw [hstore']
        · exact hkept
        · exact ⟨hkept.1.abort _, hkept.2.abort _⟩
      have hstale : w.Stale c' t false := by
        have hkeep : Stale { w with repair := .required false } c' t false :=
          h.keep (hleads.trans hleads') hkept'.1 hkept'.2 nofun
        rwa [hself] at hkeep
      rw [habort]
      refine ⟨_, _, _, rfl, hleads.trans hleads', .inr ⟨e, rfl, rfl, hstale, fun hcalm =>
        ⟨trivial, ?_⟩⟩⟩
      rintro ⟨⟨u, hu⟩, hsize⟩
      have hnone := hwhy hcalm hsize
      rw [hu] at hnone
      cases hnone

/-! ## 4. The new upload -/

/-- The bodies that the new upload gets of the content that is carried over. -/
def carried (mode : RepairMode) (content : Bytes) : List Bytes :=
  match mode with
  | .refetch => []
  | .copy => [content]

/-- The bytes of it that are still to be sent. -/
def leftOver (mode : RepairMode) (content : Bytes) : Bytes :=
  match mode with
  | .refetch => content
  | .copy => ByteArray.empty

theorem carried_append_leftOver (mode : RepairMode) (content : Bytes) :
    Bytes.concat (carried mode content) ++ leftOver mode content = content := by
  cases mode <;> simp [carried, leftOver]

theorem leftOver_size_lt (policy : Policy) (content : Bytes) :
    (leftOver (repairMode policy content.size) content).size < policy.floor := by
  have hpos := policy.floor_pos
  unfold repairMode
  split
  · simp only [leftOver]
    omega
  · simpa [leftOver] using hpos

theorem drain_stream {σ : Type} {c : Context σ} (content : Bytes) :
    (Stream.drain (.stream content none)).execute c =
      (.ok content, { c with trace := c.trace ++ [.released] }) := by
  have hall : content.extract 0 content.size = content := ByteArray.extract_zero_size
  simp [Stream.drain, Run.execute_bind, Run.execute_decoded, Stream.ofValue, Except.mapError,
    Stream.consume, Stream.close, Stream.read, hall, Run.execute_map, Except.map]

theorem drain_broken {σ : Type} {c : Context σ} (content : Bytes) (f : ReadFailure) :
    (Stream.drain (.stream content (some f))).execute c =
      (.error (.interrupted f), { c with trace := c.trace ++ [.released] }) := by
  simp [Stream.drain, Run.execute_bind, Run.execute_decoded, Stream.ofValue, Except.mapError,
    Stream.consume, Stream.close, Stream.read]

theorem refetch_cases (hf : c.service.FailsOnly) (old : Session) {o : StoredObject}
    (ho : c.store.objects.find? old.key = some o) :
    ∃ result c', (refetch old o.content.size).execute c = (result, c') ∧ c.Leads c' ∧
      c'.store = c.store ∧
      (result = .ok o.content ∨ ∃ e, result = .error e ∧ ¬ c.service.IsCalm) := by
  obtain ⟨result, c', hrun, hleads, hstore, hcases⟩ := Client.getObject_cases hf old.bucket old.key
  simp only [refetch, Run.execute_bind, hrun]
  rcases hcases with ⟨o', ho', rfl⟩ | ⟨content, f, rfl, hcalm⟩ | ⟨e, rfl, hwhy⟩
  · rw [ho, Option.some.injEq] at ho'
    subst ho'
    simp only [drain_stream, if_true]
    exact ⟨_, _, rfl, ⟨hleads.failsOnly, hleads.calm, hleads.capacity⟩, hstore, .inl rfl⟩
  · simp only [drain_broken]
    exact ⟨_, _, rfl, ⟨hleads.failsOnly, hleads.calm, hleads.capacity⟩, hstore,
      .inr ⟨_, rfl, hcalm⟩⟩
  · refine ⟨_, _, rfl, hleads, hstore, .inr ⟨e, rfl, ?_⟩⟩
    intro hcalm
    have hnone := hwhy hcalm
    rw [ho] at hnone
    cases hnone

/-- The object is carried over into an upload that was just started, or the run fails and that
upload holds the object or nothing. -/
theorem carryOver_cases (hf : c.service.FailsOnly) {s : Store} (hids : s.IdsInOrder)
    {old new : Session} (hstore : c.store = s.startUpload old.key) (hnew : new.uploadId = s.nextId)
    {o : StoredObject} (ho : s.objects.find? old.key = some o) (mode : RepairMode) :
    ∃ result c', (carryOver old new o.content.size mode).execute c = (result, c') ∧ c.Leads c' ∧
      (result = .ok (Part.ofBodies (carried mode o.content), leftOver mode o.content) ∧
          c'.store = (s.startUpload old.key).setParts s.nextId
            (Part.table (carried mode o.content)) ∨
        ∃ e, result = .error e ∧ ¬ c.service.IsCalm ∧
          (c'.store = c.store ∨ c'.store = c.store.insertPart s.nextId 1 o.content)) := by
  have ho' : c.store.objects.find? old.key = some o := by rw [hstore]; exact ho
  cases mode with
  | refetch =>
    obtain ⟨result, c', hrun, hleads, hsame, hcases⟩ := refetch_cases hf old ho'
    simp only [carryOver, Run.execute_bind, hrun]
    rcases hcases with rfl | ⟨e, rfl, hcalm⟩
    · exact ⟨_, _, rfl, hleads, .inl ⟨rfl, by
        rw [hsame, hstore]; exact (hids.startUpload_setParts old.key).symm⟩⟩
    · exact ⟨_, _, rfl, hleads, .inr ⟨e, rfl, hcalm, .inl hsame⟩⟩
  | copy =>
    have hu := hids.upload?_startUpload old.key
    rw [← hstore, ← hnew] at hu
    obtain ⟨result, c', hrun, hleads, hcases⟩ := Client.copyPart_cases hf
      (s := ⟨new.uploadId, old.bucket, old.key⟩) hu 1 old.key
    simp only [carryOver, Run.execute_bind, hrun]
    rw [hnew] at hcases
    rcases hcases with ⟨o₁, ho₁, rfl, hset⟩ | ⟨e, rfl, hset, hwhy⟩
    · rw [ho', Option.some.injEq] at ho₁
      subst ho₁
      refine ⟨_, _, rfl, hleads, .inl ⟨rfl, ?_⟩⟩
      rw [hset, hstore, hids.startUpload_insertPart]
      rfl
    · refine ⟨_, _, rfl, hleads, .inr ⟨e, rfl, ?_, hset.imp_right ?_⟩⟩
      · intro hcalm
        have hnone := hwhy hcalm
        rw [ho'] at hnone
        cases hnone
      · rintro ⟨o₁, ho₁, hset⟩
        rw [ho', Option.some.injEq] at ho₁
        rw [hset, ho₁]

/-- A new upload is started at the key of a stale writer, or the request fails; the writer is still
stale in either case. -/
theorem Stale.createUpload_cases (h : w.Stale c t true) :
    ∃ result c', (Client.createUpload w.session.bucket w.session.key opaqueContent).execute c =
        (result, c') ∧ c.Leads c' ∧ w.Stale c' t true ∧
      (result = .ok ⟨c.store.nextId, w.session.bucket, w.session.key⟩ ∧
          c'.store = c.store.startUpload w.session.key ∨
        ∃ e, result = .error e ∧ ¬ c.service.IsCalm) := by
  have hself : { w with repair := .required true } = w := by rw [← h.repair]
  obtain ⟨o, ho, hcontent⟩ := h.object rfl
  obtain ⟨result, c', hrun, hleads, hcases⟩ := Client.createUpload_cases h.failsOnly
    w.session.bucket w.session.key opaqueContent
  have hkeep : c'.store = c.store ∨ c'.store = c.store.startUpload w.session.key →
      w.Stale c' t true := by
    rw [← hself]
    rintro (hstore | hstore)
    · refine h.keep hleads ?_ ?_ fun _ => ⟨o, ?_, hcontent⟩ <;> rw [hstore]
      exacts [h.ids, h.record, ho]
    · refine h.keep hleads ?_ ?_ fun _ => ⟨o, ?_, hcontent⟩ <;> rw [hstore]
      exacts [h.ids.startUpload _, h.record.startUpload _, ho]
  rcases hcases with ⟨rfl, hstore⟩ | ⟨e, rfl, hcalm, hstore⟩
  · exact ⟨_, _, hrun, hleads, hkeep (.inr hstore), .inl ⟨rfl, hstore⟩⟩
  · exact ⟨_, _, hrun, hleads, hkeep hstore, .inr ⟨e, rfl, hcalm⟩⟩

/-- The object of a stale writer is carried over into an upload that was just started.  When that
fails the writer is still stale. -/
theorem orAbort_carryOver_cases (h : w.Stale c t true) {s : Store} (hids : s.IdsInOrder)
    (hstore : c.store = s.startUpload w.session.key)
    (hrecord : s.Records w.session.uploadId w.session.key t)
    (new : Session) (hnew : new.uploadId = s.nextId) (mode : RepairMode) :
    ∃ result c', (orAbort new (carryOver w.session new w.size mode)).execute c = (result, c') ∧
      c.Leads c' ∧
      (result = .ok (Part.ofBodies (carried mode (Bytes.concat t.values)),
            leftOver mode (Bytes.concat t.values)) ∧
          c'.store = (s.startUpload w.session.key).setParts s.nextId
            (Part.table (carried mode (Bytes.concat t.values))) ∨
        ∃ e, result = .error e ∧ ¬ c.service.IsCalm ∧ w.Stale c' t true) := by
  obtain ⟨o, ho, hcontent⟩ := h.object rfl
  have hself : { w with repair := .required true } = w := by rw [← h.repair]
  have hne : s.nextId ≠ w.session.uploadId := hrecord.ne_nextId hids
  have ho' : s.objects.find? w.session.key = some o := by rwa [hstore] at ho
  obtain ⟨result, c₁, hrun, hleads, hcases⟩ :=
    carryOver_cases h.failsOnly hids hstore hnew ho' mode
  rw [h.size, ← hcontent]
  rcases hcases with ⟨rfl, hset⟩ | ⟨e, rfl, hcalm, hset⟩
  · exact ⟨_, _, orAbort_of_ok hrun new, hleads, .inl ⟨rfl, hset⟩⟩
  · obtain ⟨c', habort, hleads', hstore'⟩ := orAbort_of_error hrun hleads.failsOnly new
    refine ⟨_, _, habort, hleads.trans hleads', .inr ⟨e, rfl, hcalm, ?_⟩⟩
    have hkept : c₁.store.IdsInOrder ∧ c₁.store.objects = c.store.objects ∧
        c₁.store.Records w.session.uploadId w.session.key t := by
      rcases hset with hset | hset <;> rw [hset]
      · exact ⟨h.ids, rfl, h.record⟩
      · exact ⟨h.ids.insertPart _ _ _, rfl, h.record.insertPart hne _ _⟩
    have hkept' : c'.store.IdsInOrder ∧ c'.store.objects = c.store.objects ∧
        c'.store.Records w.session.uploadId w.session.key t := by
      rcases hstore' with hstore' | hstore' <;> rw [hstore']
      · exact hkept
      · exact ⟨hkept.1.abort _, hkept.2.1, hkept.2.2.abort _⟩
    have hkeep : Stale { w with repair := .required true } c' t true :=
      h.keep (hleads.trans hleads') hkept'.1 hkept'.2.2 fun _ =>
        ⟨o, by rw [hkept'.2.1]; exact ho, hcontent⟩
    rwa [hself] at hkeep

/-! ## 5. The whole repair -/

/-- The store in which the new upload is started: the old one is completed there. -/
def repairBase (w : Writer) (c : Context (Disturbed Store)) (bodies : List Bytes) : Store :=
  if w.sourceCompleted then c.store else w.completedStore c bodies

def repairBodies (w : Writer) (bodies : List Bytes) : List Bytes :=
  carried (repairMode w.policy w.size) (Bytes.concat bodies)

/-- What a repair that succeeds has made of a writer that held `bodies`. -/
structure Replaced (w : Writer) (c : Context (Disturbed Store)) (bodies : List Bytes) (w' : Writer)
    (c' : Context (Disturbed Store)) : Prop where
  store : c'.store = ((w.repairBase c bodies).startUpload w.session.key).setParts
    (w.repairBase c bodies).nextId (Part.table (w.repairBodies bodies))
  writer : ∃ slots, w' = { w with
    session := ⟨(w.repairBase c bodies).nextId, w.session.bucket, w.session.key⟩
    parts := Part.ofBodies (w.repairBodies bodies)
    repair := .done
    slots := slots }
  attached : w'.Attached c' (w.repairBodies bodies) []
  ready : w'.ready = leftOver (repairMode w.policy w.size) (Bytes.concat bodies)
  pending : w'.pending = ByteArray.empty

theorem repairBase_idsInOrder (h : w.Stale c t completed) :
    (w.repairBase c t.values).IdsInOrder := by
  unfold repairBase
  split
  · exact h.ids
  · exact h.ids.complete _ _ _

theorem attached_of_started {s : Store} (hids : s.IdsInOrder) (hf : c'.service.FailsOnly)
    {key bucket : String} {bodies' : List Bytes}
    (hstore : c'.store = (s.startUpload key).setParts s.nextId (Part.table bodies'))
    (hsession : w'.session = ⟨s.nextId, bucket, key⟩) (hparts : w'.parts = Part.ofBodies bodies') :
    w'.Attached c' bodies' [] := by
  refine ⟨hf, ?_, hparts, ?_, by simp⟩
  · rw [hstore]
    exact (hids.startUpload key).setParts _ _
  · rw [hsession, hstore, List.append_nil]
    exact ⟨_, Store.upload?_setParts (hids.upload?_startUpload key) _, rfl⟩

theorem Replaced.of_started (hids : (w.repairBase c bodies).IdsInOrder)
    (hf : c'.service.FailsOnly)
    (hstore : c'.store = ((w.repairBase c bodies).startUpload w.session.key).setParts
      (w.repairBase c bodies).nextId (Part.table (w.repairBodies bodies)))
    (hwriter : ∃ slots, w' = { w with
      session := ⟨(w.repairBase c bodies).nextId, w.session.bucket, w.session.key⟩
      parts := Part.ofBodies (w.repairBodies bodies)
      repair := .done
      slots := slots })
    (hready : w'.ready = leftOver (repairMode w.policy w.size) (Bytes.concat bodies))
    (hpending : w'.pending = ByteArray.empty) : w.Replaced c bodies w' c' := by
  obtain ⟨slots, rfl⟩ := hwriter
  exact ⟨hstore, ⟨slots, rfl⟩, attached_of_started hids hf hstore rfl rfl, hready, hpending⟩

theorem held_fill_of_refetch {policy : Policy} {content : Bytes}
    (hmode : repairMode policy content.size = .refetch) {slot : Slot}
    (hempty : slot.held = ByteArray.empty) :
    (slot.fill policy.chunk content 0).1.held = content := by
  have hlt := leftOver_size_lt policy content
  simp only [hmode, leftOver] at hlt
  have hle := policy.floor_le_chunk
  simp only [Slot.fill, hempty, ByteArray.empty_append, ByteArray.size_empty, Nat.sub_zero,
    Nat.zero_add]
  rw [Nat.min_eq_right (by omega), ByteArray.extract_zero_size]

/-- A repair replaces the upload, or leaves the writer stale; then the old upload may be completed
now. -/
theorem replaceSession_cases (h : w.Stale c t completed) :
    ∃ result w' c', replaceSession.execute w c = (result, w', c') ∧ c.Leads c' ∧
      (result = .ok () ∧ w.Replaced c t.values w' c' ∨
        ∃ e completed', result = .error e ∧ w' = { w with repair := .required completed' } ∧
          w'.Stale c' t completed' ∧
          (c.service.IsCalm → completed = false ∧ ¬ w.Completable c t.values)) := by
  obtain ⟨result, w₁, c₁, hcomplete, hleads₁, hcases⟩ := completeSource_cases h
  simp only [replaceSession, Writing.execute_bind, hcomplete]
  rcases hcases with ⟨rfl, rfl, hstale₁, hstore₁⟩ | ⟨e, rfl, rfl, hstale₁, hwhy⟩
  swap
  · exact ⟨_, _, _, rfl, hleads₁, .inr ⟨e, completed, rfl, by rw [← h.repair], hstale₁, hwhy⟩⟩
  have hbase : c₁.store = w.repairBase c t.values := by
    rw [hstore₁, repairBase, sourceCompleted_iff h.repair]
  have hids := repairBase_idsInOrder h
  have hrecord := hstale₁.record
  rw [hbase] at hrecord
  -- the new upload is started
  obtain ⟨result, c₂, hcreate, hleads₂, hstale₂, hcases₂⟩ := hstale₁.createUpload_cases
  rw [hbase] at hcases₂
  simp only [Writing.execute_writer, Writing.execute_ofRun, hcreate]
  rcases hcases₂ with ⟨rfl, hstore₂⟩ | ⟨e, rfl, hcalm₂⟩
  swap
  · exact ⟨_, _, _, rfl, hleads₁.trans hleads₂, .inr ⟨e, true, rfl, rfl, hstale₂,
      fun hc => absurd (hleads₁.calm hc) hcalm₂⟩⟩
  -- the object is carried over
  obtain ⟨result, c₃, hcarry, hleads₃, hcases₃⟩ := orAbort_carryOver_cases hstale₂
    hids hstore₂ hrecord ⟨(w.repairBase c t.values).nextId, w.session.bucket, w.session.key⟩ rfl
    (repairMode w.policy w.size)
  have hleads := (hleads₁.trans hleads₂).trans hleads₃
  rcases hcases₃ with ⟨rfl, hstore₃⟩ | ⟨e, rfl, hcalm₃, hstale₃⟩
  swap
  · simp only [hcarry]
    exact ⟨_, _, _, rfl, hleads, .inr ⟨e, true, rfl, rfl, hstale₃,
      fun hc => absurd (hleads₂.calm (hleads₁.calm hc)) hcalm₃⟩⟩
  simp only [hcarry, Writing.execute_change]
  have hslots := h.slots
  rcases hmode : repairMode w.policy w.size with _ | _
  · -- what was read again is staged
    obtain ⟨slots, c₄, hborrow, hleads₄, hstore₄, hready, hpending⟩ := borrow_cases
      (w := { w with
        session := ⟨(w.repairBase c t.values).nextId, w.session.bucket, w.session.key⟩
        parts := Part.ofBodies (carried .refetch (Bytes.concat t.values))
        repair := .done }) hleads.failsOnly
    simp only [ready, pending, hslots] at hready hpending
    simp only [if_true, Writing.execute_bind, hborrow, Writing.execute_change,
      Writing.execute_ofRun, Run.execute_count, Run.execute_report]
    rw [h.size] at hmode
    have hheld := held_fill_of_refetch hmode hready
    refine ⟨_, _, _, rfl, ⟨hleads₄.failsOnly, fun hc => hleads₄.calm (hleads.calm hc),
      hleads₄.capacity.trans hleads.capacity⟩, .inl ⟨rfl, .of_started hids hleads₄.failsOnly
        (hstore₄.trans hstore₃) ?_ ?_ hpending⟩⟩
    · rw [repairBodies, h.size, hmode]
      exact ⟨_, rfl⟩
    · rw [h.size, hmode]
      exact hheld
  · simp only [reduceCtorEq, if_false, Writing.execute_bind, Writing.execute_ofRun,
      Run.execute_count, Run.execute_report]
    refine ⟨_, _, _, rfl, ⟨hleads.failsOnly, hleads.calm, hleads.capacity⟩, .inl ⟨rfl,
      .of_started hids hleads.failsOnly hstore₃ ?_ ?_ ?_⟩⟩
    · rw [repairBodies, hmode]
      exact ⟨_, rfl⟩
    · rw [hmode]
      simp [ready, hslots, leftOver]
    · simp [pending, hslots]

end Writer

end ResumableStorage
