/-
  ResumableStorage/Proofs/Client/Lookups.lean
  ===========================================
  **What a look-up asks** — finding uploads and their parts asks for pages of listings and
  for nothing else, and what is found was told by one of those pages.  So a writer that
  is opened changes nothing but what a service makes of that.  This holds for every
  service, whatever its pages hold and however many there are.
-/
import ResumableStorage.Proofs.Client.Decoding
import ResumableStorage.Volume.Basic

namespace ResumableStorage

variable {σ α : Type} [Service σ]

/-! ## 1. Pages -/

namespace Request

/-- The requests by which a session is opened: one that starts an upload, or the listings in which
one is looked up. -/
def Opens (r : Request) : Prop :=
  r.kind = .createUpload ∨ r.kind = .listUploads ∨ r.kind = .listParts

end Request

/-- The exchange is a page of a listing that names this upload. -/
def Exchange.Tells (x : Exchange σ) (u : InFlight) : Prop :=
  ∃ page, x.decoded .listUploads (fun v => (UploadPage.decode v).mapError .malformed) = .ok page ∧
    u ∈ page.uploads

namespace Client

/-- The request for a page of uploads.  A marker that is not given is left out, and so is a second
one without a first. -/
def uploadsRequest (bucket keyFront : String) (keyMarker idMarker : Option Value) : Request :=
  .listUploads bucket (nonEmpty keyFront) (keyMarker.bind Value.given?)
    (if (keyMarker.bind Value.given?).isSome then idMarker.bind Value.given? else none)

theorem listUploads_decodes (bucket keyFront : String) (keyMarker idMarker : Option Value) :
    (listUploads bucket keyFront keyMarker idMarker : Run σ UploadPage).Decodes .listUploads
      (uploadsRequest bucket keyFront keyMarker idMarker)
      fun v => (UploadPage.decode v).mapError .malformed :=
  Run.decodes_send_bind fun _ c => Run.execute_decoded _ c

theorem listParts_decodes (s : Session) (maxParts marker : Int) :
    (listParts s maxParts marker : Run σ PartPage).Decodes .listParts
      (.listParts s.bucket s.key s.uploadId maxParts marker)
      fun v => (PartPage.decode v).mapError .malformed :=
  Run.decodes_send_bind fun _ c => Run.execute_decoded _ c

end Client

namespace Bucket

/-! ## 2. Uploads -/

variable {step : α → InFlight → Except Error (ForInStep α)} {I : α → Prop} {acc : α}

/-- What every step keeps of the value holds after a page. -/
theorem walkPage_keeps {uploads : List InFlight} {s : ForInStep α}
    (hstep : ∀ a, ∀ u ∈ uploads, ∀ s, I a → step a u = .ok s → I s.value) (hacc : I acc)
    (h : walkPage step acc uploads = .ok s) : I s.value := by
  induction uploads generalizing acc with
  | nil =>
    cases h
    exact hacc
  | cons u rest ih =>
    simp only [walkPage] at h
    rcases hu : step acc u with e | a | a <;> rw [hu] at h
    · cases h
    · cases h
      exact hstep acc u List.mem_cons_self _ hacc hu
    · have hnext : I a := hstep acc u List.mem_cons_self _ hacc hu
      exact ih (fun a v hv => hstep a v (List.mem_cons_of_mem _ hv)) hnext h

/-- A walk asks for pages of uploads, and what every step keeps of the value, for the uploads that
the pages have told of, holds of its result. -/
theorem walkUploadsFrom_told (b : Bucket) (keyFront : String)
    (step : α → InFlight → Except Error (ForInStep α)) (n : Nat)
    (keyMarker idMarker : Option Value) (acc : α) (c : Context σ) :
    ∃ result c' xs,
      (b.walkUploadsFrom keyFront step n keyMarker idMarker acc).execute c = (result, c') ∧
      c.Asks c' xs ∧ c'.pool = c.pool ∧ c'.meters = c.meters ∧
      (∀ x ∈ xs, x.request.kind = .listUploads) ∧
      ∀ I : α → Prop, (∀ a u s, (∃ x ∈ xs, x.Tells u) → I a → step a u = .ok s → I s.value) →
        I acc → ∀ a, result = .ok a → I a := by
  induction n generalizing keyMarker idMarker acc c with
  | zero => exact ⟨_, _, [], rfl, .refl c, rfl, rfl, by simp, fun _ _ _ _ => nofun⟩
  | succ n ih =>
    have hrun := Client.listUploads_decodes (σ := σ) b.name keyFront keyMarker idMarker c
    have hasks := c.asks_asked (Client.uploadsRequest b.name keyFront keyMarker idMarker)
    have hkind : ∀ x ∈ [c.exchange (Client.uploadsRequest b.name keyFront keyMarker idMarker)],
        x.request.kind = .listUploads := by
      intro x hx
      rw [List.mem_singleton.mp hx]
      rfl
    generalize c.exchange (Client.uploadsRequest b.name keyFront keyMarker idMarker) = x
      at hrun hasks hkind
    generalize hasked : c.asked (Client.uploadsRequest b.name keyFront keyMarker idMarker) = c₁
      at hrun hasks
    have hpool : c₁.pool = c.pool := by rw [← hasked]; rfl
    have hmeters : c₁.meters = c.meters := by rw [← hasked]; rfl
    simp only [walkUploadsFrom, Run.execute_bind, hrun]
    rcases hpage : x.decoded .listUploads fun v => (UploadPage.decode v).mapError .malformed
      with e | page
    · exact ⟨_, _, [x], rfl, hasks, hpool, hmeters, hkind, fun _ _ _ _ => nofun⟩
    simp only
    -- what the page has told of is told by the first exchange
    have hstart : ∀ {ys : List (Exchange σ)} {I : α → Prop} {s : ForInStep α},
        (∀ a u s, (∃ y ∈ x :: ys, y.Tells u) → I a → step a u = .ok s → I s.value) → I acc →
        walkPage step acc page.uploads = .ok s → I s.value := by
      intro ys I s hstep hacc hwalk
      refine walkPage_keeps (fun a u hu s => hstep a u s ⟨x, List.mem_cons_self, ?_⟩) hacc hwalk
      exact ⟨page, hpage, hu⟩
    rcases hwalk : walkPage step acc page.uploads with e | a | a
    · exact ⟨_, _, [x], rfl, hasks, hpool, hmeters, hkind, fun _ _ _ _ => nofun⟩
    · refine ⟨_, _, [x], rfl, hasks, hpool, hmeters, hkind, ?_⟩
      rintro I hstep hacc _ ⟨⟩
      exact hstart hstep hacc hwalk
    · simp only
      split
      · refine ⟨_, _, [x], rfl, hasks, hpool, hmeters, hkind, ?_⟩
        rintro I hstep hacc _ ⟨⟩
        exact hstart hstep hacc hwalk
      · rcases hmarker : page.nextKeyMarker with _ | key
        · exact ⟨_, _, [x], rfl, hasks, hpool, hmeters, hkind, fun _ _ _ _ => nofun⟩
        · obtain ⟨result, c', ys, hrest, hasks', hpool', hmeters', hkind', hkeeps⟩ :=
            ih (some key) page.nextIdMarker a c₁
          refine ⟨result, c', x :: ys, hrest, hasks.trans hasks', hpool'.trans hpool,
            hmeters'.trans hmeters, ?_, ?_⟩
          · intro y hy
            rcases List.mem_cons.mp hy with rfl | hy
            · exact hkind _ List.mem_cons_self
            · exact hkind' y hy
          · intro I hstep hacc
            apply hkeeps I _ (hstart hstep hacc hwalk)
            rintro a u s ⟨y, hy, htells⟩
            exact hstep a u s ⟨y, List.mem_cons_of_mem _ hy, htells⟩

theorem walkUploads_quiet (b : Bucket) (keyFront : String) (acc : α) :
    (b.walkUploads keyFront step acc : Run σ α).Quiet (·.kind = .listUploads) := by
  apply Run.quiet_get.bind
  intro c₀ c
  obtain ⟨result, c', xs, hrun, hasks, hpool, hmeters, hkind, -⟩ := b.walkUploadsFrom_told
    keyFront step (Service.horizon c₀.service) none none acc c
  rw [hrun]
  exact ⟨xs, hasks, hpool, hmeters, hkind⟩

/-- The uploads that are found by a test pass it, and each of them was told of. -/
theorem uploadsWhere_told (b : Bucket) (keyFront : String) (test : InFlight → Except Error Bool)
    (c : Context σ) : ∃ result c' xs, (b.uploadsWhere keyFront test).execute c = (result, c') ∧
      c.Asks c' xs ∧ (∀ x ∈ xs, x.request.kind = .listUploads) ∧
      ∀ found, result = .ok found → ∀ u ∈ found, test u = .ok true ∧ ∃ x ∈ xs, x.Tells u := by
  obtain ⟨result, c', xs, hrun, hasks, -, -, hkind, hkeeps⟩ := b.walkUploadsFrom_told
    keyFront (fun acc u => do return .yield (if ← test u then acc ++ [u] else acc))
    (Service.horizon c.service) none none [] c
  refine ⟨result, c', xs, hrun, hasks, hkind, ?_⟩
  refine hkeeps (fun found => ∀ u ∈ found, test u = .ok true ∧ ∃ x ∈ xs, x.Tells u) ?_ (by simp)
  intro found u s htold hfound hstep
  rcases htest : test u with e | passed <;> rw [htest] at hstep <;> cases hstep
  cases passed with
  | false => exact hfound
  | true =>
    intro v hv
    rcases List.mem_append.mp hv with hv | hv
    · exact hfound v hv
    · rw [List.mem_singleton.mp hv]
      exact ⟨htest, htold⟩

/-! ## 3. Parts and sessions -/

theorem partsFrom_quiet (b : Bucket) (s : Session) (n : Nat) (marker : Int)
    (table : Keyed Int Part) :
    (b.partsFrom s n marker table : Run σ (Keyed Int Part)).Quiet (·.kind = .listParts) := by
  induction n generalizing marker table with
  | zero => exact Run.quiet_throw _
  | succ n ih =>
    have hpage : (Client.listParts s b.partPageSize marker : Run σ PartPage).Quiet
        (·.kind = .listParts) := (Client.listParts_decodes _ _ _).quiet rfl
    apply hpage.bind
    intro page
    dsimp only
    split
    · exact Run.quiet_pure _
    · split
      · exact Run.quiet_throw _
      · exact ih _ _

theorem parts_quiet (b : Bucket) (s : Session) :
    (b.parts s : Run σ (List Part)).Quiet (·.kind = .listParts) := by
  apply Run.quiet_get.bind
  intro c
  exact (b.partsFrom_quiet s _ _ _).bind fun _ => Run.quiet_pure _

theorem session_quiet (b : Bucket) (key : String) (append : Bool) :
    (b.session key append : Run σ (Session × List Part)).Quiet Request.Opens := by
  unfold session
  split
  · have hfind : (b.findUpload key : Run σ (Option InFlight)).Quiet Request.Opens :=
      (b.walkUploads_quiet key none).mono fun _ hr => .inr (.inl hr)
    apply Run.Quiet.bind
    · apply Run.Quiet.notFoundAs
      apply hfind.bind
      rintro (_ | u)
      · exact Run.quiet_throw _
      · exact ((b.parts_quiet _).mono fun _ hr => .inr (.inr hr)).bind fun _ => Run.quiet_pure _
    · rintro ⟨s, parts⟩
      exact (Run.quiet_report _).bind fun _ => Run.quiet_pure _
  · exact ((Client.createUpload_decodes b.name key opaqueContent).quiet (.inl rfl)).bind
      fun _ => Run.quiet_pure _

end Bucket

namespace Volume

/-! ## 4. Writers -/

variable {v : Volume} {path : String} {append : Bool} {c c' : Context σ}

/-- A writer is opened on the session that was started or taken up, when the buffers of the pool
hold a chunk; a missing upload is told of by the path. -/
theorem writer_execute (v : Volume) (path : String) (append : Bool)
    {found : Except Error (Session × List Part)}
    (hrun : (v.bucket.session (v.key path) append).execute c = (found, c')) :
    (v.writer path append).execute c = (match found with
      | .ok (s, parts) => Writer.make? v.policy c'.pool s parts
      | .error (.pathNotFound _) => .error (.pathNotFound path)
      | .error e => .error e, c') := by
  simp only [writer, Run.execute_bind, Run.execute_attempt, hrun]
  rcases found with e | ⟨s, parts⟩
  · cases e <;> rfl
  · simp only [Run.execute_bind, Run.execute_get]
    rcases Writer.make? v.policy c'.pool s parts with e | w <;> rfl

theorem writer_quiet (v : Volume) (path : String) (append : Bool) :
    (v.writer path append : Run σ Writer).Quiet Request.Opens := by
  intro c
  have hsession := v.bucket.session_quiet (σ := σ) (v.key path) append c
  rcases hrun : (v.bucket.session (v.key path) append).execute c with ⟨found, c'⟩
  rw [hrun] at hsession
  rw [v.writer_execute path append hrun]
  exact hsession

theorem writer_eq_ok {w : Writer} (h : ((v.writer path append).execute c).1 = .ok w) :
    ∃ s parts, w = .ofSession v.policy s parts := by
  rcases hrun : (v.bucket.session (v.key path) append).execute c with ⟨e | ⟨s, parts⟩, c'⟩ <;>
    rw [v.writer_execute path append hrun] at h
  · cases e <;> cases h
  · simp only [Writer.make?] at h
    split at h <;> cases h
    exact ⟨s, parts, rfl⟩

end Volume

end ResumableStorage
