/-
  ResumableStorage/Proofs/Upload/Outcomes.lean
  ============================================
  **What the requests of a writer do to a store** — what a part, a completion, the
  creation of an upload and the dropping of one leave behind when they have returned, and
  why they have failed when they have not.
-/
import ResumableStorage.Proofs.Service.Plans
import ResumableStorage.Proofs.Store.Frames
import ResumableStorage.Proofs.Upload.Steps

namespace ResumableStorage

/-! ## 1. Kinds of requests -/

namespace Request

variable {s : Session} {r : Request}

theorem IsPartOf.kind_eq (h : r.IsPartOf s) : r.kind = .uploadPart := by
  obtain ⟨number, body, rfl⟩ := h
  rfl

theorem Creates.kind_eq (h : r.Creates s) : r.kind = .createUpload := by
  obtain ⟨type, rfl⟩ := h
  rfl

theorem not_publishes_of_kind (h : r.kind = .uploadPart ∨ r.kind = .abortUpload) :
    ¬ r.Publishes := by
  rintro (hr | hr | hr | hr | hr) <;> rw [hr] at h <;> simp at h

end Request

namespace Session

variable (s : Session)

@[simp] theorem kind_abortion : s.abortion.kind = .abortUpload := rfl

@[simp] theorem kind_completion (parts : List Part) :
    (s.completion parts).kind = .completeUpload := rfl

/-- The parts of a table are named in the order of the table. -/
theorem completion_ofTable (t : Keyed Int Bytes) : s.completion (Part.ofTable t) =
    .completeUpload s.bucket s.key s.uploadId
      (t.entries.map fun e => (e.1, Store.tag e.2)) := by
  rw [completion, Client.sorted_ofTable, Client.names_ofTable]

end Session

/-! ## 2. One exchange -/

namespace Exchange

variable {x : Exchange (Disturbed Store)} {s new : Session} {e : Error}

/-- Under every plan the store changes as the request says, or not at all. -/
theorem changed (x : Exchange (Disturbed Store)) : x.store.Changed x.request x.storeAfter := by
  rcases x.answers.store_cases with hsame | ⟨v, heffect⟩
  · rw [hsame]
    exact .same
  · exact Store.effect_changed heffect

theorem IsFailedPart.answer (h : x.IsFailedPart s e) (hplan : x.service.Within Disturbance.Fails) :
    ∃ f, x.answer = .error f ∧ e = .storage (.failed .uploadPart f) := by
  obtain ⟨number, body, hr, hpart⟩ := h
  refine answer_of_decoded_error hplan (by rw [hr]; simp [Request.kind]) ?_ hpart
  intro v s' heffect
  rw [hr] at heffect
  exact ⟨_, Store.decoded_of_effect_uploadPart heffect⟩

theorem answer_of_completion {parts : List Part} (hr : x.request = s.completion parts)
    (hplan : x.service.Within Disturbance.Fails)
    (h : x.decoded .completeUpload Client.completionTag = .error e) :
    ∃ f, x.answer = .error f ∧ e = .storage (.failed .completeUpload f) := by
  refine answer_of_decoded_error hplan (by rw [hr]; simp) ?_ h
  intro v s' heffect
  rw [hr, Session.completion] at heffect
  exact Store.decoded_of_effect_completeUpload heffect

/-- A completion that has returned has made an object at the session's key. -/
theorem Completes.storeAfter_eq (h : x.Completes s) (hplan : x.service.Within Disturbance.Fails) :
    ∃ content, x.storeAfter = x.store.complete s.uploadId s.key content := by
  obtain ⟨⟨parts, hr⟩, etag, htag⟩ := h
  obtain ⟨v, heffect, -⟩ := effect_of_decoded hplan
    (by rw [hr]; simp) htag
  rw [hr, Session.completion] at heffect
  obtain ⟨u, contents, -, -, -, hstore⟩ := Store.effect_completeUpload_eq_ok heffect
  exact ⟨_, hstore⟩

/-- A creation that has returned has started the upload with the next identifier. -/
theorem Starts.eq (h : x.Starts s new) (hplan : x.service.Within Disturbance.Fails) :
    new = ⟨x.store.nextId, s.bucket, s.key⟩ ∧ x.storeAfter = x.store.startUpload s.key := by
  obtain ⟨⟨type, hr⟩, hnew⟩ := h
  obtain ⟨v, heffect, hdecode⟩ := effect_of_decoded hplan (by rw [hr]; simp [Request.kind]) hnew
  rw [hr] at heffect
  obtain ⟨hsession, hstore⟩ := Store.decoded_of_effect_createUpload heffect
  rw [hsession] at hdecode
  exact ⟨(Except.ok.inj hdecode).symm, hstore⟩

theorem Starts.knows (h : x.Starts s new) (hplan : x.service.Within Disturbance.Fails) :
    x.storeAfter.Knows new.uploadId s.key := by
  obtain ⟨rfl, hstore⟩ := h.eq hplan
  rw [hstore]
  exact ⟨_, List.mem_append_right _ (List.mem_singleton.mpr rfl), rfl, rfl⟩

/-- A creation that has failed has left the store as it was where failures come before the
effect. -/
theorem storeAfter_of_failed_creation (hr : x.request.Creates s)
    (h : x.decoded .createUpload (Session.ofAnswer s.bucket s.key) = .error e)
    (hplan : x.service.Within Disturbance.Early) : x.storeAfter = x.store := by
  obtain ⟨type, hr⟩ := hr
  have hdecode : ∀ v s', x.store.effect x.request = .ok (v, s') →
      ∃ new, Session.ofAnswer s.bucket s.key v = .ok new := by
    intro v s' heffect
    rw [hr] at heffect
    exact ⟨_, (Store.decoded_of_effect_createUpload heffect).1⟩
  obtain ⟨f, hanswer, -⟩ := answer_of_decoded_error hplan.fails_of_early
    (by rw [hr]; simp [Request.kind]) hdecode h
  exact x.answers.store_of_error hplan hanswer

/-! ## 3. Exchanges one after the other -/

variable {xs : List (Exchange (Disturbed Store))} {d d' : Disturbed Store} {id : String}

theorem Chain.objects_eq (h : Chain d xs d') (hxs : ∀ x ∈ xs, ¬ x.request.Publishes) :
    d'.service.objects = d.service.objects :=
  h.related (R := fun d d' => d'.service.objects = d.service.objects) (fun _ => rfl)
    (fun h h' => h'.trans h) fun x hx => x.changed.objects_eq (hxs x hx)

theorem Chain.grows (h : Chain d xs d') : d.service.Grows d'.service :=
  h.related (R := fun d d' => d.service.Grows d'.service) (fun _ => .refl _)
    (fun h h' => h.trans h') fun x _ => x.changed.grows

/-! ## 4. Open uploads -/

/-- The identifiers of the uploads that the exchange has made. -/
def created (x : Exchange (Disturbed Store)) : List String :=
  (x.storeAfter.uploads.drop x.store.uploads.length).map StoredUpload.id

theorem created_of_same (h : x.storeAfter = x.store) : x.created = [] := by
  rw [created, h, List.drop_length, List.map_nil]

theorem created_of_kind (hr : x.request.kind ≠ .createUpload) : x.created = [] := by
  rw [created, ← x.changed.length_uploads hr, List.drop_length, List.map_nil]

theorem created_of_startUpload {key : String} (h : x.storeAfter = x.store.startUpload key) :
    x.created = [x.store.nextId] := by
  rw [created, h]
  change ((x.store.uploads ++ [_]).drop x.store.uploads.length).map StoredUpload.id = _
  rw [List.drop_left]
  rfl

theorem Starts.created_eq (h : x.Starts s new) (hplan : x.service.Within Disturbance.Fails) :
    x.created = [new.uploadId] := by
  obtain ⟨rfl, hstore⟩ := h.eq hplan
  exact created_of_startUpload hstore

/-- What is open after an exchange was open before, or it was made in the exchange. -/
theorem isOpen_or_created (hopen : x.storeAfter.IsOpen id) : x.store.IsOpen id ∨ id ∈ x.created := by
  by_cases hr : x.request.kind = .createUpload
  · have hchanged := x.changed
    generalize hafter : x.storeAfter = after at hopen hchanged
    generalize x.request = r at hr hchanged
    cases hchanged with
    | same => exact .inl hopen
    | started bucket key type =>
      rw [created_of_startUpload hafter, List.mem_singleton]
      exact Store.isOpen_startUpload hopen
    | inserted hkind other number body => exact absurd hr (by rcases hkind with h | h <;> simp [h])
    | completed bucket key other parts content => cases hr
    | aborted bucket key other => cases hr
    | objects hpublishes objects => exact .inl hopen
  · exact .inl (x.changed.isOpen hr hopen)

theorem Chain.isOpen_or_created (h : Chain d xs d') (hopen : d'.service.IsOpen id) :
    d.service.IsOpen id ∨ id ∈ xs.flatMap created := by
  induction xs generalizing d with
  | nil =>
    rw [show d' = d from h] at hopen
    exact .inl hopen
  | cons x rest ih =>
    obtain ⟨rfl, hrest⟩ := h
    rw [List.flatMap_cons, List.mem_append]
    rcases ih hrest with hnext | hlater
    · rcases x.isOpen_or_created hnext with hbefore | hnow
      · exact .inl hbefore
      · exact .inr (.inl hnow)
    · exact .inr (.inr hlater)

/-- What was shut by one exchange stays shut when nothing is created. -/
theorem Chain.not_isOpen (h : Chain d xs d') (hnone : xs.flatMap created = []) (hx : x ∈ xs)
    (hshut : ¬ x.storeAfter.IsOpen id) : ¬ d'.service.IsOpen id := by
  obtain ⟨front, rest, rfl⟩ := List.append_of_mem hx
  obtain ⟨m, -, rfl, hrest⟩ := chain_append.mp h
  intro hopen
  rcases hrest.isOpen_or_created hopen with hbefore | hcreated
  · exact hshut hbefore
  · simp only [List.flatMap_append, List.flatMap_cons, List.append_eq_nil_iff] at hnone
    rw [hnone.2.2] at hcreated
    cases hcreated

theorem Completes.not_isOpen (h : x.Completes s) (hplan : x.service.Within Disturbance.Fails) :
    ¬ x.storeAfter.IsOpen s.uploadId := by
  obtain ⟨content, hstore⟩ := h.storeAfter_eq hplan
  rw [hstore]
  exact Store.not_isOpen_complete _ _ _ _

/-- An upload that is known is not open once it was asked to be dropped, where the dropping of an
upload is never disturbed. -/
theorem not_isOpen_of_abortion (hr : x.request = s.abortion)
    (hplan : x.service.Within Disturbance.SparesAborts) (hids : x.store.IdsInOrder)
    (hknows : x.store.Knows s.uploadId s.key) : ¬ x.storeAfter.IsOpen s.uploadId := by
  have heffect := x.answers.effect_of_abort hplan (by rw [hr]; rfl)
  rw [hr, Session.abortion] at heffect
  exact Store.not_isOpen_of_abort hids hknows heffect

end Exchange

end ResumableStorage
