/-
  ResumableStorage/Proofs/Upload/Steady.lean
  ==========================================
  **Steady runs** — errors of a policy, of a pool and of the size of its buffers say that
  something was set up wrongly.  A run is steady when it raises none of them, leaves the
  pool with buffers of the size that they have, and asks for parts only in pages that a
  service takes.

  Whatever the client, a bucket and a writer do is steady, on every service: what they
  raise comes from the service, from its answers, or from what the caller gave.
-/
import ResumableStorage.Proofs.Upload.Steps

namespace ResumableStorage

/-! ## 1. Errors of the setup and pages of parts -/

/-- Errors that say that a policy, a pool, or the two together do not fit. -/
def Error.IsSetup : Error → Prop
  | policy _ | pool _ | capacityMismatch => True
  | _ => False

/-- A request for parts asks for as many as a page can hold. -/
def Request.FitsPage : Request → Prop
  | listParts _ _ _ maxParts _ => 1 ≤ maxParts ∧ maxParts ≤ maxListPageSize
  | _ => True

/-- The pages of a bucket are such pages. -/
def Bucket.FitsPage (b : Bucket) : Prop :=
  1 ≤ b.partPageSize ∧ b.partPageSize ≤ maxListPageSize

/-- What did not fail by the setup. -/
def Except.Steady {α : Type} (result : Except Error α) : Prop :=
  ∀ e, result = .error e → ¬ e.IsSetup

namespace Except.Steady

variable {α β : Type}

theorem of_ok (a : α) : Except.Steady (.ok a) := fun _ h => nomatch h

theorem of_error {e : Error} (h : ¬ e.IsSetup) : Except.Steady (.error e : Except Error α) := by
  rintro _ ⟨⟩
  exact h

theorem bind {x : Except Error α} {f : α → Except Error β} (hx : Except.Steady x)
    (hf : ∀ a, Except.Steady (f a)) : Except.Steady (x >>= f) := by
  rcases x with e | a
  · exact of_error (hx e rfl)
  · exact hf a

theorem map {x : Except Error α} (hx : Except.Steady x) (f : α → β) :
    Except.Steady (x.map f) := by
  rcases x with e | a
  · exact of_error (hx e rfl)
  · exact of_ok (f a)

end Except.Steady

theorem Error.named_not_isSetup {e : Error} (h : ¬ e.IsSetup) (path : String) :
    ¬ (e.named path).IsSetup := by
  unfold named
  split
  · exact id
  · exact h
  · exact id

/-! ## 2. Steady runs -/

variable {σ α β : Type} {n : Nat}

/-- From one context to the other the pool still lends buffers of `n` bytes, and what was asked fits
a page. -/
structure Context.Steady (n : Nat) (c c' : Context σ) : Prop where
  capacity : c'.pool.capacity = n
  asked : ∃ events, c'.trace = c.trace ++ events ∧ ∀ r, .sent r ∈ events → r.FitsPage

namespace Context.Steady

variable {a b c : Context σ}

theorem refl (h : c.pool.capacity = n) : c.Steady n c :=
  ⟨h, [], by simp, by simp⟩

theorem trans (h : a.Steady n b) (h' : b.Steady n c) : a.Steady n c := by
  obtain ⟨-, events, htrace, hfits⟩ := h
  obtain ⟨hcapacity, events', htrace', hfits'⟩ := h'
  refine ⟨hcapacity, events ++ events', by rw [htrace', htrace, List.append_assoc], ?_⟩
  intro r hr
  exact (List.mem_append.mp hr).elim (hfits r) (hfits' r)

end Context.Steady

namespace Run

/-- Where the pool lends buffers of `n` bytes the run is steady. -/
def Steady (n : Nat) (x : Run σ α) : Prop :=
  ∀ c, c.pool.capacity = n → c.Steady n (x.execute c).2 ∧ Except.Steady (x.execute c).1

variable {x : Run σ α}

theorem steady_pure (a : α) : (pure a : Run σ α).Steady n :=
  fun _ hc => ⟨.refl hc, .of_ok a⟩

theorem steady_throw {e : Error} (h : ¬ e.IsSetup) : (throw e : Run σ α).Steady n :=
  fun _ hc => ⟨.refl hc, .of_error h⟩

theorem Steady.bind {f : α → Run σ β} (hx : x.Steady n) (hf : ∀ a, (f a).Steady n) :
    (x >>= f).Steady n := by
  intro c hc
  obtain ⟨hsteady, hresult⟩ := hx c hc
  rw [execute_bind]
  rcases hrun : x.execute c with ⟨e | a, c₁⟩ <;> rw [hrun] at hsteady hresult
  · exact ⟨hsteady, .of_error (hresult e rfl)⟩
  · obtain ⟨hsteady', hresult'⟩ := hf a c₁ hsteady.capacity
    exact ⟨hsteady.trans hsteady', hresult'⟩

/-- What is done with the context, which lends such buffers. -/
theorem steady_get_bind {f : Context σ → Run σ β}
    (hf : ∀ c : Context σ, c.pool.capacity = n → (f c).Steady n) :
    ((get : Run σ (Context σ)) >>= f).Steady n := by
  intro c hc
  rw [execute_bind, execute_get]
  exact hf c hc c hc

theorem Steady.tryCatch {f : Error → Run σ α} (hx : x.Steady n)
    (hf : ∀ e, ¬ e.IsSetup → (f e).Steady n) : (tryCatch x f).Steady n := by
  intro c hc
  obtain ⟨hsteady, hresult⟩ := hx c hc
  rw [execute_tryCatch]
  rcases hrun : x.execute c with ⟨e | a, c₁⟩ <;> rw [hrun] at hsteady hresult
  · obtain ⟨hsteady', hresult'⟩ := hf e (hresult e rfl) c₁ hsteady.capacity
    exact ⟨hsteady.trans hsteady', hresult'⟩
  · exact ⟨hsteady, hresult⟩

theorem Steady.notFoundAs (hx : x.Steady n) (path : String) : (notFoundAs path x).Steady n :=
  hx.tryCatch fun _ he => steady_throw (Error.named_not_isSetup he path)

/-- What follows an attempt meets no error of the setup. -/
theorem Steady.attempt_bind {f : Except Error α → Run σ β} (hx : x.Steady n)
    (hf : ∀ result, Except.Steady result → (f result).Steady n) : (attempt x >>= f).Steady n := by
  intro c hc
  obtain ⟨hsteady, hresult⟩ := hx c hc
  rw [execute_bind, execute_attempt]
  obtain ⟨hsteady', hresult'⟩ := hf _ hresult (x.execute c).2 hsteady.capacity
  exact ⟨hsteady.trans hsteady', hresult'⟩

theorem Steady.discard (hx : x.Steady n) : (discard x).Steady n := by
  intro c hc
  obtain ⟨hsteady, hresult⟩ := hx c hc
  rw [execute_discard]
  exact ⟨hsteady, hresult.map _⟩

theorem Steady.forM {f : α → Run σ PUnit} {l : List α} (hf : ∀ a, (f a).Steady n) :
    (l.forM f).Steady n := by
  induction l with
  | nil => exact steady_pure _
  | cons a rest ih => exact (hf a).bind fun _ => ih

theorem steady_report (notice : Notice) : (report notice : Run σ Unit).Steady n :=
  fun _ hc => ⟨⟨hc, [], by simp, by simp⟩, .of_ok ()⟩

theorem steady_count (f : Meters → Meters) : (count f : Run σ Unit).Steady n :=
  fun _ hc => ⟨⟨hc, [], by simp, by simp⟩, .of_ok ()⟩

theorem steady_record {e : Event} (h : ∀ r, e = .sent r → r.FitsPage) :
    (record e : Run σ Unit).Steady n := by
  refine fun _ hc => ⟨⟨hc, [e], rfl, ?_⟩, .of_ok ()⟩
  intro r hr
  exact h r (List.mem_singleton.mp hr).symm

theorem steady_decoded (x : Except Malformed α) : (decoded x : Run σ α).Steady n := by
  rcases x with e | a
  · exact steady_throw id
  · exact steady_pure a

variable [Service σ]

theorem steady_send {action : Action} {r : Request} (h : r.FitsPage) :
    (send action r : Run σ Value).Steady n := by
  intro c hc
  rw [execute_send]
  refine ⟨⟨hc, [.sent r], rfl, ?_⟩, ?_⟩
  · intro r' hr'
    cases List.mem_singleton.mp hr'
    exact h
  · rcases (Service.answer r c.service).1 with f | v
    · exact .of_error id
    · exact .of_ok v

theorem steady_listPages (l : Listing) : (listPages l : Run σ (List Page)).Steady n := by
  intro c hc
  have hasked : ∀ r, Event.sent r ∈ [Event.listed l] → r.FitsPage := by simp
  simp only [listPages, execute_bind, execute_record, execute_get, execute_set]
  rcases (Service.pages l c.service).1 with f | pages
  · exact ⟨⟨hc, _, rfl, hasked⟩, .of_error id⟩
  · exact ⟨⟨hc, _, rfl, hasked⟩, .of_ok pages⟩

end Run

namespace Writing

/-- Whatever the writer is, the run is steady where the pool lends buffers of `n` bytes. -/
def Steady (n : Nat) (x : Writing σ α) : Prop :=
  ∀ w c, c.pool.capacity = n →
    c.Steady n (x.execute w c).2.2 ∧ Except.Steady (x.execute w c).1

variable {x : Writing σ α}

theorem steady_pure (a : α) : (pure a : Writing σ α).Steady n :=
  fun _ _ hc => ⟨.refl hc, .of_ok a⟩

theorem steady_throw {e : Error} (h : ¬ e.IsSetup) : (throw e : Writing σ α).Steady n :=
  fun _ _ hc => ⟨.refl hc, .of_error h⟩

theorem steady_writer : (writer : Writing σ Writer).Steady n :=
  fun w _ hc => ⟨.refl hc, .of_ok w⟩

theorem steady_change (f : Writer → Writer) : (change f : Writing σ Unit).Steady n :=
  fun _ _ hc => ⟨.refl hc, .of_ok ()⟩

theorem steady_onPool {f : Pool → Pool} (h : ∀ p, (f p).capacity = p.capacity) :
    (onPool f : Writing σ Unit).Steady n :=
  fun _ c hc => ⟨⟨(h c.pool).trans hc, [], (List.append_nil c.trace).symm, by simp⟩, .of_ok ()⟩

theorem ofRun_steady {x : Run σ α} (h : x.Steady n) : (ofRun x).Steady n :=
  fun _ c hc => h c hc

theorem Steady.bind {f : α → Writing σ β} (hx : x.Steady n) (hf : ∀ a, (f a).Steady n) :
    (x >>= f).Steady n := by
  intro w c hc
  obtain ⟨hsteady, hresult⟩ := hx w c hc
  rw [execute_bind]
  rcases hrun : x.execute w c with ⟨e | a, w₁, c₁⟩ <;> rw [hrun] at hsteady hresult
  · exact ⟨hsteady, .of_error (hresult e rfl)⟩
  · obtain ⟨hsteady', hresult'⟩ := hf a w₁ c₁ hsteady.capacity
    exact ⟨hsteady.trans hsteady', hresult'⟩

theorem Steady.attempt_bind {f : Except Error α → Writing σ β} (hx : x.Steady n)
    (hf : ∀ result, Except.Steady result → (f result).Steady n) : (attempt x >>= f).Steady n := by
  intro w c hc
  obtain ⟨hsteady, hresult⟩ := hx w c hc
  rw [execute_bind, execute_attempt]
  rcases hrun : x.execute w c with ⟨result, w₁, c₁⟩
  rw [hrun] at hsteady hresult
  obtain ⟨hsteady', hresult'⟩ := hf result hresult w₁ c₁ hsteady.capacity
  exact ⟨hsteady.trans hsteady', hresult'⟩

theorem Steady.discard (hx : x.Steady n) : (discard x).Steady n := by
  intro w c hc
  obtain ⟨hsteady, hresult⟩ := hx w c hc
  rw [execute_discard]
  exact ⟨hsteady, hresult.map _⟩

end Writing

namespace Writer

open Writing

theorem ensureActive_steady : (ensureActive : Writing σ Unit).Steady n := by
  apply steady_writer.bind
  intro w
  split
  · exact steady_pure ()
  · exact steady_throw not_false

theorem borrow_steady : (borrow : Writing σ Slots).Steady n := by
  intro w c hc
  simp only [borrow, execute_bind, execute_writer]
  rcases w.slots with _ | slots
  · refine ⟨⟨?_, [], (List.append_nil c.trace).symm, by simp⟩, .of_ok _⟩
    change c.pool.acquire.2.acquire.2.capacity = n
    rw [Pool.capacity_acquire, Pool.capacity_acquire, hc]
  · exact ⟨.refl hc, .of_ok slots⟩

theorem release_steady : (release : Writing σ Unit).Steady n := by
  intro w c hc
  simp only [release, execute_modify]
  rcases w.slots with _ | slots
  · exact ⟨.refl hc, .of_ok ()⟩
  · refine ⟨⟨?_, [], by simp, by simp⟩, .of_ok ()⟩
    simp only [Pool.capacity_release]
    exact hc

theorem countEnding_steady (e : Ending) : (countEnding e : Writing σ Unit).Steady n :=
  ofRun_steady (Run.steady_count _)

end Writer

/-! ## 3. The client -/

namespace Stream

open Run

theorem drain_steady (body : Value) : (drain body : Run σ Bytes).Steady n := by
  apply (steady_decoded _).bind
  intro s
  apply Steady.bind
  · unfold close
    split
    · exact steady_record (by simp)
    · exact steady_pure ()
  · intro _
    split
    · exact steady_pure _
    · exact steady_throw id

end Stream

variable [Service σ]

namespace Client

open Run

theorem createUpload_steady (bucket key : String) (type : Option String) :
    (createUpload bucket key type : Run σ Session).Steady n := by
  refine Steady.bind (steady_send trivial) fun answer => ?_
  apply (steady_decoded _).bind
  intro id
  split
  · exact steady_pure _
  · exact steady_throw not_false

theorem uploadPart_steady (s : Session) (number : Int) (body : Bytes) :
    (uploadPart s number body : Run σ Part).Steady n := by
  refine Steady.bind (steady_send trivial) fun answer => ?_
  apply (steady_decoded _).bind
  intro etag
  split
  · exact steady_pure _
  · exact steady_throw not_false

theorem headObject_steady (bucket key : String) :
    (headObject bucket key : Run σ ObjectHead).Steady n :=
  Steady.bind (steady_send trivial) fun _ => steady_decoded _

theorem copyPart_steady (s : Session) (number : Int) (source : String) :
    (copyPart s number source none : Run σ Part).Steady n := by
  rw [copyPart_eq]
  apply (headObject_steady s.bucket source).bind
  intro head
  have htag : ∀ etag : Value, (if etag.isGiven then return ⟨number, etag.display, head.size⟩
      else throw (.storage (.noCopyTag number)) : Run σ Part).Steady n := by
    intro etag
    split
    · exact steady_pure _
    · exact steady_throw not_false
  refine Steady.bind (steady_send trivial) fun answer => ?_
  apply (steady_decoded _).bind
  intro result
  dsimp only
  split
  · exact (steady_decoded _).bind htag
  · exact (steady_pure _).bind htag

theorem listParts_steady (s : Session) {maxParts : Int}
    (h : 1 ≤ maxParts ∧ maxParts ≤ maxListPageSize) (marker : Int) :
    (listParts s maxParts marker : Run σ PartPage).Steady n :=
  (steady_send (show Request.FitsPage (.listParts ..) from h)).bind fun _ => steady_decoded _

theorem listUploads_steady (bucket front : String) (keyMarker idMarker : Option Value) :
    (listUploads bucket front keyMarker idMarker : Run σ UploadPage).Steady n :=
  Steady.bind (steady_send trivial) fun _ => steady_decoded _

theorem completeUpload_steady (s : Session) (parts : List Part) :
    (completeUpload s parts : Run σ String).Steady n := by
  refine Steady.bind (steady_send trivial) fun answer => ?_
  exact (steady_decoded _).bind fun _ => steady_pure _

theorem abortUpload_steady (s : Session) : (abortUpload s : Run σ Unit).Steady n :=
  Steady.discard (steady_send trivial)

theorem getObject_steady (bucket key : String) : (getObject bucket key : Run σ Value).Steady n :=
  Steady.bind (steady_send trivial) fun _ => steady_decoded _

theorem getRange_steady (bucket key : String) (first : Int) (last : Option Int) :
    (getRange bucket key first last : Run σ Value).Steady n :=
  Steady.bind (steady_send trivial) fun _ => steady_decoded _

theorem putObject_steady (bucket key : String) (body : Bytes) (type : Option String) :
    (putObject bucket key body type : Run σ Unit).Steady n :=
  Steady.discard (steady_send trivial)

theorem deleteObject_steady (bucket key : String) :
    (deleteObject bucket key : Run σ Unit).Steady n :=
  Steady.discard (steady_send trivial)

theorem deleteObjects_steady (bucket : String) (keys : List String) :
    (deleteObjects bucket keys : Run σ Unit).Steady n := by
  apply Steady.forM
  intro batch
  refine Steady.bind (steady_send trivial) fun answer => ?_
  apply (steady_decoded _).bind
  rintro (_ | e)
  · exact steady_pure _
  · exact steady_throw not_false

theorem copyObject_steady (bucket source dest : String) :
    (copyObject bucket source dest : Run σ Unit).Steady n :=
  Steady.discard (steady_send trivial)

theorem listObjects_steady (bucket front : String) (delimiter : Option String)
    (maxItems : Option Int) :
    (listObjects bucket front delimiter maxItems : Run σ ObjectListing).Steady n := by
  refine Steady.bind (steady_send trivial) fun answer => ?_
  split
  · dsimp only
    apply (steady_listPages _).bind
    intro pages
    split
    · exact steady_pure _
    · exact steady_throw not_false
  · exact steady_throw not_false

theorem presign_steady (bucket key : String) (expiresIn : Int) (method : String) :
    (presign bucket key expiresIn method : Run σ String).Steady n := by
  unfold presign
  split
  · exact steady_throw not_false
  · refine Steady.bind (steady_send trivial) fun url => ?_
    split
    · exact steady_pure _
    · exact steady_throw not_false

end Client

/-! ## 4. The uploads of a bucket -/

namespace Bucket

open Run

theorem walkPage_steady {step : α → InFlight → Except Error (ForInStep α)}
    (h : ∀ acc u, Except.Steady (step acc u)) (acc : α) (us : List InFlight) :
    Except.Steady (walkPage step acc us) := by
  induction us generalizing acc with
  | nil => exact .of_ok _
  | cons u rest ih =>
    apply (h acc u).bind
    rintro (acc' | acc')
    · exact .of_ok _
    · exact ih acc'

theorem walkUploadsFrom_steady {step : α → InFlight → Except Error (ForInStep α)}
    (h : ∀ acc u, Except.Steady (step acc u)) (b : Bucket) (front : String) (fuel : Nat)
    (keyMarker idMarker : Option Value) (acc : α) :
    (b.walkUploadsFrom front step fuel keyMarker idMarker acc : Run σ α).Steady n := by
  induction fuel generalizing keyMarker idMarker acc with
  | zero => exact steady_throw not_false
  | succ fuel ih =>
    apply (Client.listUploads_steady b.name front keyMarker idMarker).bind
    intro page
    have hpage := walkPage_steady h acc page.uploads
    split
    · rename_i e hwalk
      exact steady_throw (hpage e hwalk)
    · exact steady_pure _
    · split
      · exact steady_pure _
      · split
        · exact steady_throw not_false
        · exact ih _ _ _

theorem walkUploads_steady {step : α → InFlight → Except Error (ForInStep α)}
    (h : ∀ acc u, Except.Steady (step acc u)) (b : Bucket) (front : String) (acc : α) :
    (b.walkUploads front step acc : Run σ α).Steady n :=
  steady_get_bind fun c _ =>
    walkUploadsFrom_steady h b front (Service.horizon c.service) none none acc

theorem uploadsWhere_steady {test : InFlight → Except Error Bool}
    (h : ∀ u, Except.Steady (test u)) (b : Bucket) (front : String) :
    (b.uploadsWhere front test : Run σ (List InFlight)).Steady n :=
  walkUploads_steady (fun _ u => (h u).bind fun _ => .of_ok _) b front []

theorem findUpload_steady (b : Bucket) (key : String) :
    (b.findUpload key : Run σ (Option InFlight)).Steady n :=
  walkUploads_steady (fun _ _ => .of_ok _) b key none

theorem partsFrom_steady {b : Bucket} (hb : b.FitsPage) (s : Session) (fuel : Nat) (marker : Int)
    (table : Keyed Int Part) : (b.partsFrom s fuel marker table : Run σ _).Steady n := by
  induction fuel generalizing marker table with
  | zero => exact steady_throw not_false
  | succ fuel ih =>
    apply (Client.listParts_steady s hb marker).bind
    intro page
    dsimp only
    split
    · exact steady_pure _
    · split
      · exact steady_throw not_false
      · exact ih _ _

theorem parts_steady {b : Bucket} (hb : b.FitsPage) (s : Session) :
    (b.parts s : Run σ (List Part)).Steady n :=
  steady_get_bind fun c _ =>
    (partsFrom_steady hb s (Service.horizon c.service) 0 Keyed.empty).bind fun _ => steady_pure _

theorem start_steady (b : Bucket) (key : String) :
    (b.start key : Run σ (Session × List Part)).Steady n :=
  (Client.createUpload_steady b.name key _).bind fun _ => steady_pure _

theorem resume_steady {b : Bucket} (hb : b.FitsPage) (key : String) :
    (b.resume key : Run σ (Session × List Part)).Steady n := by
  refine Steady.bind (Steady.notFoundAs ?_ key) fun found => ?_
  · apply (b.findUpload_steady key).bind
    rintro (_ | u)
    · exact steady_throw not_false
    · exact (parts_steady hb _).bind fun _ => steady_pure _
  · exact (steady_report _).bind fun _ => steady_pure _

theorem session_steady {b : Bucket} (hb : b.FitsPage) (key : String) (append : Bool) :
    (b.session key append : Run σ (Session × List Part)).Steady n := by
  cases append with
  | false => exact b.start_steady key
  | true => exact resume_steady hb key

end Bucket

/-! ## 5. Writers -/

namespace Writer

open Writing

theorem sendPart_steady (body : Bytes) : (sendPart body : Writing σ Unit).Steady n := by
  apply steady_writer.bind
  intro w
  apply (ofRun_steady (Client.uploadPart_steady w.session (w.parts.length + 1) body)).bind
  intro part
  apply (steady_change _).bind
  intro _
  exact ofRun_steady (Run.steady_count _)

theorem steady_sending : Sending (σ := σ) (fun x => x.Steady n) where
  pure := steady_pure
  bind hx hf := hx.bind hf
  writer := steady_writer
  stage _ := steady_change _
  onPool := steady_onPool
  borrow := borrow_steady
  sendPart := sendPart_steady

theorem abortQuietly_steady (s : Session) : (abortQuietly s : Run σ Unit).Steady n :=
  (Client.abortUpload_steady s).tryCatch fun _ _ => Run.steady_report _

theorem orAbort_steady (s : Session) {x : Run σ α} (h : x.Steady n) : (orAbort s x).Steady n :=
  h.tryCatch fun _ he => (abortQuietly_steady s).bind fun _ => Run.steady_throw he

theorem carryOver_steady (old new : Session) (size : Int) (mode : RepairMode) :
    (carryOver old new size mode : Run σ (List Part × Bytes)).Steady n := by
  cases mode with
  | refetch =>
    refine Run.Steady.bind ?_ fun _ => Run.steady_pure _
    apply (Client.getObject_steady old.bucket old.key).bind
    intro body
    apply (Stream.drain_steady body).bind
    intro content
    split
    · exact Run.steady_pure _
    · exact Run.steady_throw not_false
  | copy => exact (Client.copyPart_steady _ 1 old.key).bind fun _ => Run.steady_pure _

theorem completeSource_steady : (completeSource : Writing σ Unit).Steady n := by
  apply steady_writer.bind
  intro w
  split
  · apply (ofRun_steady (orAbort_steady w.session
      (Client.completeUpload_steady w.session w.parts))).discard.bind
    intro _
    exact steady_change _
  · exact steady_pure ()

theorem replaceSession_steady : (replaceSession : Writing σ Unit).Steady n := by
  have hreport : ∀ mode notice, (ofRun (Run.count (·.addRepair mode)) >>= fun _ =>
      ofRun (Run.report notice) : Writing σ Unit).Steady n := fun mode notice =>
    (ofRun_steady (Run.steady_count _)).bind fun _ => ofRun_steady (Run.steady_report notice)
  apply completeSource_steady.bind
  intro _
  apply steady_writer.bind
  intro w
  apply (ofRun_steady (Client.createUpload_steady _ _ _)).bind
  intro new
  apply (ofRun_steady (orAbort_steady new (carryOver_steady w.session new w.size _))).bind
  rintro ⟨parts, content⟩
  apply (steady_change _).bind
  intro _
  split
  · apply borrow_steady.bind
    intro slots
    apply Steady.bind (steady_onPool ?_)
    · intro _
      apply (steady_change _).bind
      intro _
      exact hreport _ _
    · intro p
      rfl
  · exact hreport _ _

theorem write_steady (data : Bytes) : (write data : Writing σ Nat).Steady n := by
  have htake : (takeIn data : Writing σ Nat).Steady n := steady_sending.takeIn data
  apply ensureActive_steady.bind
  intro _
  dsimp only
  split
  · exact steady_pure 0
  · apply steady_writer.bind
    intro w
    cases w.repair with
    | required b => exact replaceSession_steady.bind fun _ => htake
    | notNeeded => exact htake
    | done => exact htake

theorem close_steady : (close : Writing σ Unit).Steady n := by
  have hfinish : ∀ tell : Except Error Unit → Writing σ Unit, tell (.ok ()) = pure () →
      (∀ e, tell (.error e) = throw e) →
      (attempt flush >>= fun result => release >>= fun _ => countEnding .closed >>= fun _ =>
        tell result).Steady n := by
    intro tell hok herror
    apply steady_sending.flush.attempt_bind
    intro result hresult
    apply release_steady.bind
    intro _
    apply (countEnding_steady _).bind
    intro _
    rcases result with e | ⟨⟩
    · rw [herror]
      exact steady_throw (hresult e rfl)
    · rw [hok]
      exact steady_pure ()
  apply ensureActive_steady.bind
  intro _
  apply steady_writer.bind
  intro w
  apply (steady_change _).bind
  intro _
  dsimp only
  split
  · exact (ofRun_steady (Run.steady_report _)).bind fun _ => hfinish _ rfl fun _ => rfl
  · exact hfinish _ rfl fun _ => rfl

theorem complete_steady : (complete : Writing σ Unit).Steady n := by
  apply steady_writer.bind
  intro w
  apply (ofRun_steady (Client.completeUpload_steady w.session w.parts)).attempt_bind
  intro result hresult
  rcases result with e | etag
  · apply (ofRun_steady (Run.steady_report _)).bind
    intro _
    apply (ofRun_steady (abortQuietly_steady w.session)).bind
    intro _
    apply (countEnding_steady _).bind
    intro _
    exact steady_throw (hresult e rfl)
  · apply (countEnding_steady _).bind
    intro _
    exact ofRun_steady (Run.steady_report _)

theorem commit_steady : (commit : Writing σ Unit).Steady n := by
  have hend : (enter .committed >>= fun _ => release >>= fun _ => complete :
      Writing σ Unit).Steady n :=
    (steady_change _).bind fun _ => release_steady.bind fun _ => complete_steady
  apply ensureActive_steady.bind
  intro _
  apply steady_writer.bind
  intro w
  split
  · apply (steady_change _).bind
    intro _
    apply release_steady.bind
    intro _
    apply (countEnding_steady _).bind
    intro _
    exact ofRun_steady (Run.steady_report _)
  · apply steady_sending.flush.bind
    intro _
    apply steady_writer.bind
    intro w
    dsimp only
    split
    · exact (sendPart_steady ByteArray.empty).bind fun _ => hend
    · exact hend

theorem cancel_steady : (cancel : Writing σ Unit).Steady n := by
  apply ensureActive_steady.bind
  intro _
  apply steady_writer.bind
  intro w
  apply (steady_change _).bind
  intro _
  apply release_steady.bind
  intro _
  apply (countEnding_steady _).bind
  intro _
  split
  · apply (ofRun_steady (Client.abortUpload_steady w.session)).attempt_bind
    intro result hresult
    rcases result with e | _
    · exact (ofRun_steady (Run.steady_report _)).bind fun _ => steady_throw (hresult e rfl)
    · exact steady_pure ()
  · exact steady_pure ()

end Writer

end ResumableStorage
