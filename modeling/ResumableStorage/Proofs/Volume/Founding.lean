/-
  ResumableStorage/Proofs/Volume/Founding.lean
  ============================================
  **A volume from settings that were loaded** — settings that pass their own check pass
  every later one: the floor and the size of a chunk make a policy, the chunks of the
  volume are the buffers of its pool, and the pages of parts are such as a service takes.
  So no error of the setup is met at the desk of the volume, whatever is asked of it and
  whatever the service answers.

  One bound is not checked with the settings: the machine has to make a buffer of the size
  of a chunk.
-/
import ResumableStorage.Proofs.Settings.Numbers
import ResumableStorage.Proofs.Upload.Borrowing
import ResumableStorage.Proofs.Upload.Steady
import ResumableStorage.Proofs.Volume.Desk
import ResumableStorage.Volume.Setup

namespace ResumableStorage

variable {σ : Type} [Service σ] {n : Nat}

/-! ## 1. What a volume does -/

/-- The volume works with chunks of `n` bytes, and with pages of parts that a service takes. -/
structure Volume.FitsPool (v : Volume) (n : Nat) : Prop where
  chunk : v.policy.chunk = n
  page : v.bucket.FitsPage

namespace Volume

open Run

theorem content_steady (v : Volume) (path : String) : (v.content path : Run σ Bytes).Steady n := by
  apply ((Client.getObject_steady v.bucket.name (v.key path)).notFoundAs path).bind
  intro body
  exact Stream.drain_steady body

theorem putContent_steady (v : Volume) (path : String) (content : Bytes) :
    (v.putContent path content : Run σ Unit).Steady n :=
  Client.putObject_steady v.bucket.name (v.key path) content _

theorem reader_steady (v : Volume) (path : String) (offset : Int) :
    (v.reader path offset : Run σ Stream).Steady n := by
  unfold reader
  dsimp only
  split
  · exact steady_throw not_false
  · apply (Client.getRange_steady v.bucket.name (v.key path) offset none).attempt_bind
    intro result hresult
    split
    · exact steady_decoded _
    · split
      · exact steady_pure _
      · rename_i e _
        exact steady_throw (Error.named_not_isSetup (hresult _ rfl) path)
    · rename_i e _
      exact steady_throw (hresult e rfl)

/-- The pool of a context lends buffers for the chunks of the volume, so a writer is made. -/
theorem writer_steady {v : Volume} (h : v.FitsPool n) (path : String) (append : Bool) :
    (v.writer path append : Run σ Writer).Steady n := by
  apply (Bucket.session_steady h.page (v.key path) append).attempt_bind
  intro result hresult
  split
  · exact steady_throw not_false
  · rename_i e _
    exact steady_throw (hresult e rfl)
  · apply steady_get_bind
    intro c hc
    rw [Writer.make?, if_pos (hc.trans h.chunk.symm)]
    exact steady_pure _

theorem statObject_steady (v : Volume) (path : String) :
    (v.statObject path : Run σ (Option PathInfo)).Steady n := by
  unfold statObject
  dsimp only
  split
  · exact steady_pure _
  · apply (Client.headObject_steady v.bucket.name (v.key path)).attempt_bind
    intro result hresult
    split
    · exact steady_pure _
    · rename_i e
      split
      · exact steady_pure _
      · exact steady_throw (hresult e rfl)
      · exact steady_throw not_false

theorem stat_steady (v : Volume) (path : String) : (v.stat path : Run σ PathInfo).Steady n := by
  apply (v.statObject_steady path).bind
  rintro (_ | info)
  · apply (Client.listObjects_steady v.bucket.name (v.frontOf path) none (some 1)).bind
    intro listing
    dsimp only
    split
    · exact steady_throw not_false
    · exact steady_pure _
  · exact steady_pure _

theorem list_steady (v : Volume) (path : String) : (v.list path : Run σ (List String)).Steady n :=
  (Client.listObjects_steady v.bucket.name (v.frontOf path) (some "/") none).bind
    fun _ => steady_pure _

theorem move_steady (v : Volume) (source dest : String) :
    (v.move source dest : Run σ Unit).Steady n := by
  apply ((Client.copyObject_steady v.bucket.name (v.key source) (v.key dest)).notFoundAs source).bind
  intro _
  exact Client.deleteObject_steady v.bucket.name (v.key source)

theorem delete_steady (v : Volume) (path : String) : (v.delete path : Run σ Unit).Steady n := by
  apply (Client.listObjects_steady v.bucket.name (v.key path) none none).bind
  intro listing
  dsimp only
  split
  · exact steady_throw not_false
  · exact (Client.deleteObjects_steady v.bucket.name _).bind fun _ => steady_report _

theorem isStale_steady (front : String) (t : Option Instant) (u : InFlight) :
    Except.Steady (isStale front t u) := by
  unfold isStale isOldEnough
  split
  · split
    · exact .of_ok _
    · exact .of_ok _
    · exact .of_ok _
    · exact .of_error not_false
  · exact .of_ok _

theorem staleUploads_steady (v : Volume) (now : Instant) (path : String) (age : Option Age) :
    (v.staleUploads now path age : Run σ (List InFlight)).Steady n := by
  unfold staleUploads
  dsimp only
  split
  · rename_i e hage
    rcases age with _ | age
    · cases hage
    · simp only [threshold] at hage
      split at hage
      · cases hage
      · cases hage
        exact steady_throw not_false
  · exact v.bucket.uploadsWhere_steady (isStale_steady (v.key path) _) (v.key path)

theorem abortUploads_steady (v : Volume) (now : Instant) (path : String) (age : Option Age)
    (dryRun : Bool) : (v.abortUploads now path age dryRun : Run σ (List InFlight)).Steady n := by
  apply (v.staleUploads_steady now path age).bind
  intro stale
  dsimp only
  split
  · refine Steady.bind (Steady.forM fun u => ?_) fun _ => steady_pure _
    exact (Client.abortUpload_steady _).bind fun _ => steady_report _
  · exact steady_pure _

theorem urlFor_steady (v : Volume) (path method : String) (expiresIn : Value) :
    (v.urlFor path method expiresIn : Run σ String).Steady n := by
  unfold urlFor
  dsimp only
  split
  · exact steady_throw not_false
  · apply (steady_decoded _).bind
    intro seconds
    exact Client.presign_steady _ _ _ _

/-! ## 2. At a desk -/

theorem answer_steady (operation : Operation) :
    (operation.answer : Writing σ Answer).Steady n := by
  cases operation with
  | write data => exact (Writer.write_steady data).bind fun _ => Writing.steady_pure _
  | close => exact Writer.close_steady.bind fun _ => Writing.steady_pure _
  | commit => exact Writer.commit_steady.bind fun _ => Writing.steady_pure _
  | cancel => exact Writer.cancel_steady.bind fun _ => Writing.steady_pure _

variable {v : Volume} {desk : Desk σ}

omit [Service σ] in
theorem run_steady {x : Run σ Answer} (hx : x.Steady n) (hdesk : desk.context.pool.capacity = n) :
    desk.context.Steady n (desk.run x).2.context ∧ Except.Steady (desk.run x).1 :=
  hx desk.context hdesk

theorem step_steady (h : v.FitsPool n) (hdesk : desk.context.pool.capacity = n) (path : String)
    (step : WriterStep) : desk.context.Steady n (v.step desk path step).2.context ∧
      Except.Steady (v.step desk path step).1 := by
  cases step with
  | start append =>
    obtain ⟨hsteady, hresult⟩ := writer_steady h path append desk.context hdesk
    simp only [step]
    rcases hwriter : ((v.writer path append).execute desk.context).1 with e | w
    · exact ⟨hsteady, .of_error (hresult e hwriter)⟩
    · exact ⟨hsteady, .of_ok _⟩
  | call index operation =>
    simp only [step]
    rcases (desk.writers (v.key path))[index]? with _ | w
    · exact ⟨.refl hdesk, .of_ok _⟩
    · exact answer_steady operation w desk.context hdesk

theorem perform_steady (h : v.FitsPool n) (hdesk : desk.context.pool.capacity = n)
    (command : Command) : desk.context.Steady n (v.perform desk command).2.context ∧
      Except.Steady (v.perform desk command).1 := by
  cases command with
  | content path =>
    exact run_steady ((v.content_steady path).bind fun _ => steady_pure _) hdesk
  | putContent path content =>
    exact run_steady ((v.putContent_steady path content).bind fun _ => steady_pure _) hdesk
  | reader path offset =>
    exact run_steady ((v.reader_steady path offset).bind fun _ => steady_pure _) hdesk
  | writer path step => exact step_steady h hdesk path step
  | stat path => exact run_steady ((v.stat_steady path).bind fun _ => steady_pure _) hdesk
  | list path => exact run_steady ((v.list_steady path).bind fun _ => steady_pure _) hdesk
  | move source dest =>
    exact run_steady ((v.move_steady source dest).bind fun _ => steady_pure _) hdesk
  | delete path => exact run_steady ((v.delete_steady path).bind fun _ => steady_pure _) hdesk
  | abortUploads now path age dryRun =>
    exact run_steady ((v.abortUploads_steady now path age dryRun).bind fun _ => steady_pure _) hdesk

end Volume

/-- What a volume can be asked for: a command, or a link. -/
inductive Demand where
  | command (command : Command)
  | link (path method : String) (expiresIn : Value)

namespace Volume

variable {v : Volume} {desk : Desk σ}

/-- What comes of a demand; a link needs no writers. -/
def meet (v : Volume) (desk : Desk σ) : Demand → Except Error (Answer ⊕ String) × Desk σ
  | .command command => ((v.perform desk command).1.map .inl, (v.perform desk command).2)
  | .link path method expiresIn =>
    let (link, context) := (v.urlFor path method expiresIn).execute desk.context
    (link.map .inr, { desk with context })

/-- What comes of one demand after the other, and the desk then. -/
def meetAll (v : Volume) (desk : Desk σ) :
    List Demand → List (Except Error (Answer ⊕ String)) × Desk σ
  | [] => ([], desk)
  | demand :: rest =>
    let (answer, desk) := v.meet desk demand
    let (answers, desk) := v.meetAll desk rest
    (answer :: answers, desk)

theorem meet_steady (h : v.FitsPool n) (hdesk : desk.context.pool.capacity = n) (demand : Demand) :
    desk.context.Steady n (v.meet desk demand).2.context ∧
      Except.Steady (v.meet desk demand).1 := by
  cases demand with
  | command command =>
    obtain ⟨hsteady, hresult⟩ := perform_steady h hdesk command
    exact ⟨hsteady, hresult.map _⟩
  | link path method expiresIn =>
    obtain ⟨hsteady, hresult⟩ := v.urlFor_steady path method expiresIn desk.context hdesk
    simp only [meet]
    generalize (v.urlFor path method expiresIn).execute desk.context = outcome at hsteady hresult ⊢
    exact ⟨hsteady, hresult.map _⟩

/-- The invariant is the size of the buffers that the pool lends. -/
theorem meetAll_steady (h : v.FitsPool n) (hdesk : desk.context.pool.capacity = n)
    (demands : List Demand) : desk.context.Steady n (v.meetAll desk demands).2.context ∧
      ∀ answer ∈ (v.meetAll desk demands).1, Except.Steady answer := by
  induction demands generalizing desk with
  | nil => exact ⟨.refl hdesk, by simp [meetAll]⟩
  | cons demand rest ih =>
    obtain ⟨hsteady, hresult⟩ := meet_steady h hdesk demand
    obtain ⟨hsteady', hresults⟩ := ih hsteady.capacity
    refine ⟨hsteady.trans hsteady', ?_⟩
    simp only [meetAll]
    exact List.forall_mem_cons.mpr ⟨hresult, hresults⟩

end Volume

/-! ## 3. From settings -/

/-- There is a bucket, and both credentials or none of them. -/
def Settings.IsConfigured (s : Settings) : Prop :=
  s.bucket.getD "" ≠ "" ∧ (s.accessKeyId.getD "" = "" ↔ s.secretAccessKey.getD "" = "")

/-- What the settings ask for is what the volume and the pool have. -/
structure Settings.Founds (s : Settings) (v : Volume) (pool : Pool) : Prop where
  floor : (v.policy.floor : Int) = minChunkSize
  floor_le : v.policy.floor ≤ v.policy.chunk
  chunk : (v.policy.chunk : Int) = s.chunkSizeBytes
  capacity : pool.capacity = v.policy.chunk
  partPageSize : v.bucket.partPageSize = s.listPageSize

namespace Settings

variable {s : Settings}

theorem bounds_of_check (h : s.check = .ok s) :
    minChunkSize ≤ s.chunkSizeBytes ∧ 1 ≤ s.listPageSize ∧ s.listPageSize ≤ maxListPageSize := by
  unfold check at h
  split_ifs at h with hchunk hpage
  simp only [Bool.or_eq_true, decide_eq_true_eq, not_or, not_lt] at hchunk hpage
  exact ⟨hchunk, hpage⟩

theorem configuredBucket_cases (s : Settings) :
    s.IsConfigured ∧ Volume.configuredBucket s = .ok (s.bucket.getD "") ∨
      ¬ s.IsConfigured ∧ ∃ missing, Volume.configuredBucket s = .error (.notConfigured missing) := by
  unfold Volume.configuredBucket
  dsimp only
  by_cases hbucket : s.bucket.getD "" = ""
  · right
    rw [if_pos hbucket]
    exact ⟨fun h => h.1 hbucket, .bucket, rfl⟩
  · rw [if_neg hbucket]
    by_cases hcredentials : s.accessKeyId.getD "" = "" ↔ s.secretAccessKey.getD "" = ""
    · left
      rw [if_neg (not_not_intro (propext hcredentials))]
      exact ⟨⟨hbucket, hcredentials⟩, rfl⟩
    · right
      rw [if_pos fun h => hcredentials (iff_of_eq h)]
      exact ⟨fun h => hcredentials h.2, .halfOfCredentials, rfl⟩

/-- Chunks that were checked with the settings make a policy. -/
theorem exists_policy (h : minChunkSize ≤ s.chunkSizeBytes) :
    ∃ policy, Policy.make? minChunkSize s.chunkSizeBytes = .ok policy ∧
      (policy.floor : Int) = minChunkSize ∧ (policy.chunk : Int) = s.chunkSizeBytes := by
  have hpos : 0 < minChunkSize := by decide
  unfold Policy.make?
  rw [dif_neg (by omega), dif_neg (by omega)]
  refine ⟨_, rfl, ?_, ?_⟩
  · exact Int.toNat_of_nonneg hpos.le
  · exact Int.toNat_of_nonneg (hpos.le.trans h)

/-- Everything that can come of settings which pass their check. -/
theorem overClient_cases (m : Machine) (h : s.check = .ok s) :
    (¬ s.IsConfigured ∧ ∃ missing, Volume.overClient m s = .error (.notConfigured missing)) ∨
      s.IsConfigured ∧ ((∃ e, m.checkBuffer s.chunkSizeBytes.toNat = .error e ∧
          Volume.overClient m s = .error (.pool (.unmade e))) ∨
        m.checkBuffer s.chunkSizeBytes.toNat = .ok () ∧
          ∃ v pool, Volume.overClient m s = .ok (v, pool) ∧ s.Founds v pool) := by
  obtain ⟨hchunk, -⟩ := bounds_of_check h
  rcases s.configuredBucket_cases with ⟨hconfigured, hbucket⟩ | ⟨hnot, missing, hbucket⟩
  · right
    refine ⟨hconfigured, ?_⟩
    obtain ⟨policy, hpolicy, hfloor, hsize⟩ := exists_policy hchunk
    have hvolume : Volume.volumeOfSettings s = .ok ⟨⟨s.bucket.getD "", s.listPageSize⟩, policy,
        Volume.normalizeRoot s.rootDirectory, s.presignExpiresSeconds⟩ := by
      rw [Volume.volumeOfSettings, hbucket, hpolicy]
      rfl
    have hcapacity : s.chunkSizeBytes.toNat = policy.chunk := by omega
    have hpool := Pool.make?_of_pos m policy.chunk_pos (some s.poolMaxIdle)
    rw [Volume.overClient, hvolume, hcapacity]
    change (∃ e, _ ∧ (Volume.poolOfSettings m s _ >>= _) = _) ∨
      _ ∧ ∃ v pool, (Volume.poolOfSettings m s _ >>= _) = _ ∧ _
    rw [Volume.poolOfSettings, hpool]
    rcases m.checkBuffer policy.chunk with e | ⟨⟩
    · exact .inl ⟨e, rfl, rfl⟩
    · exact .inr ⟨rfl, _, _, rfl, hfloor, policy.floor_le_chunk, hsize, rfl, rfl⟩
  · left
    refine ⟨hnot, missing, ?_⟩
    rw [Volume.overClient, Volume.volumeOfSettings, hbucket]
    rfl

theorem Founds.fitsPool {v : Volume} {pool : Pool} (h : s.Founds v pool) (hcheck : s.check = .ok s) :
    v.FitsPool pool.capacity := by
  obtain ⟨-, hpage⟩ := bounds_of_check hcheck
  refine ⟨h.capacity.symm, ?_⟩
  rw [Bucket.FitsPage, h.partPageSize]
  exact hpage

end Settings

/-- Settings that were loaded make a volume over any client, unless the bucket is missing or just one
of the credentials is there, or the machine makes no buffer of the size of a chunk; that error is
raised as it is.  The chunks of the volume are the buffers of its pool and not below the floor.

At its desk no demand, in any sequence and whatever the service answers, ends in an error of the
setup, and parts are asked for in pages of one to a thousand. -/
theorem SettingsSource.load_founds_volume {src : SettingsSource} {s : Settings} (m : Machine)
    (h : src.load.1 = .ok s) :
    ((∃ missing, Volume.overClient m s = .error (.notConfigured missing)) ↔
      s.bucket.getD "" = "" ∨ ¬ (s.accessKeyId.getD "" = "" ↔ s.secretAccessKey.getD "" = "")) ∧
    (s.IsConfigured → ¬ m.MakesBuffer s.chunkSizeBytes.toNat →
      ∃ e, m.checkBuffer s.chunkSizeBytes.toNat = .error e ∧
        Volume.overClient m s = .error (.pool (.unmade e))) ∧
    (s.IsConfigured → m.MakesBuffer s.chunkSizeBytes.toNat →
      ∃ v pool, Volume.overClient m s = .ok (v, pool) ∧ s.Founds v pool ∧
        ∀ (σ : Type) [Service σ] (service : σ) (demands : List Demand),
          (∀ answer ∈ (v.meetAll (Context.desk { service, pool }) demands).1, ∀ e,
            answer = .error e → ¬ e.IsSetup) ∧
          ∀ r, .sent r ∈ (v.meetAll (Context.desk { service, pool }) demands).2.context.trace →
            r.FitsPage) := by
  have hcheck := (readFrom_of_load h).checked
  have hcases := Settings.overClient_cases m hcheck
  have hconfigured : s.IsConfigured ↔ ¬ (s.bucket.getD "" = "" ∨
      ¬ (s.accessKeyId.getD "" = "" ↔ s.secretAccessKey.getD "" = "")) := by
    rw [not_or, not_not, Settings.IsConfigured]
  rw [← m.checkBuffer_eq_ok_iff]
  refine ⟨?_, ?_, ?_⟩
  · constructor
    · rintro ⟨missing, hmissing⟩
      by_contra hnot
      rcases hcases with ⟨hno, -⟩ | ⟨-, ⟨e, -, hpool⟩ | ⟨-, v, pool, hvolume, -⟩⟩
      · exact hno (hconfigured.mpr hnot)
      · rw [hmissing] at hpool
        cases hpool
      · rw [hmissing] at hvolume
        cases hvolume
    · intro hbad
      rcases hcases with ⟨-, hmissing⟩ | ⟨hyes, -⟩
      · exact hmissing
      · exact absurd hbad (hconfigured.mp hyes)
  · intro hyes hunmade
    rcases hcases with ⟨hno, -⟩ | ⟨-, hpool | ⟨hmade, -⟩⟩
    · exact absurd hyes hno
    · exact hpool
    · exact absurd hmade hunmade
  · intro hyes hmade
    rcases hcases with ⟨hno, -⟩ | ⟨-, ⟨e, hunmade, -⟩ | ⟨-, v, pool, hvolume, hfounds⟩⟩
    · exact absurd hyes hno
    · rw [hmade] at hunmade
      cases hunmade
    · refine ⟨v, pool, hvolume, hfounds, ?_⟩
      intro σ _ service demands
      have hlent : (Context.desk { service, pool } : Desk σ).context.pool.capacity =
          pool.capacity := rfl
      obtain ⟨⟨-, events, htrace, hfits⟩, hanswers⟩ :=
        Volume.meetAll_steady (hfounds.fitsPool hcheck) hlent demands
      refine ⟨hanswers, ?_⟩
      intro r hr
      rw [htrace] at hr
      exact hfits r hr

namespace SettingsSource.Sample

/-- A bucket is all that has to be given. -/
def plain : SettingsSource where
  environment := Keyed.ofList [("S3_BUCKET", "b")]

def demands : List Demand :=
  [.command (.writer "/a" (.start true)), .command (.writer "/a" (.start false)),
    .link "/a" "GET" .null]

/-- A chunk is one byte more than the greatest signed word. -/
def oversized : SettingsSource where
  environment := Keyed.ofList
    [("S3_BUCKET", "b"), ("STORAGE_CHUNK_SIZE_BYTES", "9223372036854775808")]

theorem load_plain : plain.load.1 = .ok { bucket := some "b" } := by
  have hread : plain.load.1.toOption = some { bucket := some "b" } := by decide +kernel
  rcases hload : plain.load.1 with e | s <;> rw [hload] at hread <;> cases hread
  rfl

theorem load_oversized :
    oversized.load.1 = .ok { bucket := some "b", chunkSizeBytes := 9223372036854775808 } := by
  have hread : oversized.load.1.toOption =
      some { bucket := some "b", chunkSizeBytes := 9223372036854775808 } := by decide +kernel
  rcases hload : oversized.load.1 with e | s <;> rw [hload] at hread <;> cases hread
  rfl

end SettingsSource.Sample

/-- The buffers of the machine have less than a thousand million bytes. -/
theorem SettingsSource.bucket_founds_volume :
    let m : Machine := { hasBytes := fun n => n < 1000000000 }
    Sample.plain.load.1 = .ok { bucket := some "b" } ∧
      ∃ v pool, Volume.overClient m { bucket := some "b" } = .ok (v, pool) ∧
        pool.capacity = 10485760 ∧ ∀ answer ∈ (v.meetAll (Context.desk
          { service := (⟨Store.empty 0, []⟩ : Disturbed Store), pool }) Sample.demands).1, ∀ e,
            answer = .error e → ¬ e.IsSetup := by
  intro m
  obtain ⟨-, -, hfounds⟩ := load_founds_volume m Sample.load_plain
  have hmakes : m.MakesBuffer 10485760 := ⟨by decide, by decide⟩
  obtain ⟨v, pool, hvolume, hfound, hmeets⟩ := hfounds (by simp [Settings.IsConfigured]) hmakes
  refine ⟨Sample.load_plain, v, pool, hvolume, ?_, (hmeets _ _ Sample.demands).1⟩
  have hchunk := hfound.chunk
  rw [hfound.capacity]
  have hdefault : ({ bucket := some "b" } : Settings).chunkSizeBytes = 10485760 := rfl
  omega

/-- Settings are loaded that found nothing on any machine: their chunk is not compared with what a
buffer can be. -/
theorem SettingsSource.oversized_chunk_founds_nothing :
    ∃ s, Sample.oversized.load.1 = .ok s ∧ s.IsConfigured ∧
      ∀ m, Volume.overClient m s = .error (.pool (.unmade .lengthBeyondWord)) :=
  ⟨_, Sample.load_oversized, by simp [Settings.IsConfigured], fun _ => rfl⟩

end ResumableStorage
