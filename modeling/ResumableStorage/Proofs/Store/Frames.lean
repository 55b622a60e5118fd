/-
  ResumableStorage/Proofs/Store/Frames.lean
  =========================================
  **What every request leaves alone** — a request that is granted changes the store in
  one of few ways.  From these follows what is kept whatever is asked: identifiers stay
  in order and no upload is forgotten; and what is kept by most requests: the objects,
  and which uploads are open.
-/
import ResumableStorage.Proofs.Store.Effects
import ResumableStorage.Service.Disturbance

namespace ResumableStorage

/-! ## 1. Changes -/

namespace Request

/-- Requests that may change the objects. -/
def Publishes (r : Request) : Prop :=
  r.kind = .completeUpload ∨ r.kind = .putObject ∨ r.kind = .deleteObject ∨
    r.kind = .deleteObjects ∨ r.kind = .copyObject

end Request

namespace Store

variable {s s' s'' : Store} {r : Request} {v : Value} {id : String}

/-- What a granted request makes of the store. -/
inductive Changed (s : Store) : Request → Store → Prop
  | same {r : Request} : Changed s r s
  | started (bucket key : String) (type : Option String) :
      Changed s (.createUpload bucket key type) (s.startUpload key)
  | inserted {r : Request} (hr : r.kind = .uploadPart ∨ r.kind = .copyPart) (id : String)
      (number : Int) (body : Bytes) : Changed s r (s.insertPart id number body)
  | completed (bucket key id : String) (parts : List (Int × String)) (content : Bytes) :
      Changed s (.completeUpload bucket key id parts) (s.complete id key content)
  | aborted (bucket key id : String) : Changed s (.abortUpload bucket key id) (s.abort id)
  | objects {r : Request} (hr : r.Publishes) (objects : Keyed String StoredObject) :
      Changed s r { s with objects := objects }

theorem foldl_eraseObject (s : Store) (keys : List String) :
    ∃ objects, keys.foldl eraseObject s = { s with objects := objects } := by
  induction keys generalizing s with
  | nil => exact ⟨s.objects, rfl⟩
  | cons key rest ih =>
    obtain ⟨objects, hrest⟩ := ih (s.eraseObject key)
    exact ⟨objects, hrest⟩

/-- The inversion of a granted request. -/
theorem effect_changed (h : s.effect r = .ok (v, s')) : s.Changed r s' := by
  cases r with
  | createUpload bucket key type =>
    cases h
    exact .started bucket key type
  | uploadPart bucket key id number body =>
    simp only [effect, usable] at h
    rcases hu : s.upload? key id with _ | u <;> rw [hu] at h <;> cases h
    exact .inserted (.inl rfl) u.id number body
  | copyPart bucket key id number source range =>
    simp only [effect, usable] at h
    rcases hu : s.upload? key id with _ | u <;> rw [hu] at h
    · cases h
    · rcases ho : s.objects.find? source with _ | o <;> rw [ho] at h <;> cases h
      exact .inserted (.inr rfl) u.id number _
  | listParts bucket key id maxParts marker =>
    simp only [effect, usable] at h
    rcases hu : s.upload? key id with _ | u <;> rw [hu] at h <;> cases h
    exact .same
  | listUploads bucket keyFront keyMarker idMarker =>
    simp only [effect] at h
    rcases hpage : s.uploadPage keyFront keyMarker idMarker with f | page <;> rw [hpage] at h <;>
      cases h
    exact .same
  | completeUpload bucket key id parts =>
    obtain ⟨u, contents, -, -, -, rfl⟩ := effect_completeUpload_eq_ok h
    exact .completed bucket key id parts _
  | abortUpload bucket key id =>
    rw [effect_abortUpload_eq_ok h]
    exact .aborted bucket key id
  | getObject bucket key range =>
    simp only [effect] at h
    split at h
    · cases h
    · split at h <;> cases h
      exact .same
  | putObject bucket key body type =>
    cases h
    exact .objects (.inr (.inl rfl)) _
  | headObject bucket key =>
    simp only [effect] at h
    split at h <;> cases h
    exact .same
  | deleteObject bucket key =>
    cases h
    exact .objects (.inr (.inr (.inl rfl))) _
  | deleteObjects bucket keys =>
    cases h
    obtain ⟨objects, hobjects⟩ := foldl_eraseObject s keys
    rw [hobjects]
    exact .objects (.inr (.inr (.inr (.inl rfl)))) objects
  | copyObject bucket source dest =>
    simp only [effect] at h
    split at h <;> cases h
    exact .objects (.inr (.inr (.inr (.inr rfl)))) _
  | presign operation bucket key expiresIn =>
    cases h
    exact .same
  | openListing =>
    cases h
    exact .same

/-! ## 2. Objects -/

theorem Changed.objects_eq (h : s.Changed r s') (hr : ¬ r.Publishes) : s'.objects = s.objects := by
  cases h with
  | same => rfl
  | started bucket key type => rfl
  | inserted hkind id number body => rfl
  | completed bucket key id parts content => exact absurd (.inl rfl) hr
  | aborted bucket key id => rfl
  | objects hpublishes objects => exact absurd hpublishes hr

theorem complete_find?_of_ne {key other : String} (hne : other ≠ key) (s : Store) (id : String)
    (content : Bytes) : (s.complete id key content).objects.find? other = s.objects.find? other :=
  Keyed.find?_insert_of_ne _ _ hne

/-! ## 3. Uploads -/

/-- The store has an upload in flight with this identifier. -/
def IsOpen (s : Store) (id : String) : Prop :=
  ∃ u ∈ s.uploads, u.id = id ∧ u.status = .inFlight

def Knows (s : Store) (id key : String) : Prop :=
  ∃ u ∈ s.uploads, u.id = id ∧ u.key = key

/-- Identifiers stay in order, and no upload is forgotten. -/
structure Grows (s s' : Store) : Prop where
  ids : s.IdsInOrder → s'.IdsInOrder
  knows : ∀ id key, s.Knows id key → s'.Knows id key

theorem Grows.refl (s : Store) : s.Grows s := ⟨id, fun _ _ h => h⟩

theorem Grows.trans (h : s.Grows s') (h' : s'.Grows s'') : s.Grows s'' :=
  ⟨fun hids => h'.ids (h.ids hids), fun id key hknows => h'.knows id key (h.knows id key hknows)⟩

theorem Grows.modifyUpload (s : Store) (other : String) {f : StoredUpload → StoredUpload}
    (hid : ∀ u, (f u).id = u.id) (hkey : ∀ u, (f u).key = u.key) :
    s.Grows (s.modifyUpload other f) := by
  refine ⟨fun hids => hids.modifyUpload other hid, ?_⟩
  rintro id key ⟨u, hu, rfl, rfl⟩
  refine ⟨_, mem_modifyUpload.mpr ⟨u, hu, rfl⟩, ?_, ?_⟩ <;> split <;> simp [hid, hkey]

theorem Changed.grows (h : s.Changed r s') : s.Grows s' := by
  cases h with
  | same => exact .refl s
  | started bucket key type =>
    refine ⟨fun hids => hids.startUpload key, ?_⟩
    rintro id other ⟨u, hu, hknown⟩
    exact ⟨u, List.mem_append_left _ hu, hknown⟩
  | inserted hkind id number body => exact .modifyUpload s id (fun _ => rfl) fun _ => rfl
  | completed bucket key id parts content =>
    have hgrows : s.Grows (s.modifyUpload id fun u => { u with status := .completed }) :=
      .modifyUpload s id (fun _ => rfl) fun _ => rfl
    exact ⟨hgrows.ids, hgrows.knows⟩
  | aborted bucket key id => exact .modifyUpload s id (fun _ => rfl) fun _ => rfl
  | objects hpublishes objects => exact ⟨fun hids => hids, fun _ _ hknows => hknows⟩

theorem isOpen_of_modifyUpload {other : String} {f : StoredUpload → StoredUpload}
    (h : (s.modifyUpload other f).IsOpen id) (hid : ∀ u, (f u).id = u.id)
    (hstatus : ∀ u, (f u).status = .inFlight → u.status = .inFlight) : s.IsOpen id := by
  obtain ⟨u, hu, rfl, hopen⟩ := h
  obtain ⟨v, hv, rfl⟩ := mem_modifyUpload.mp hu
  refine ⟨v, hv, ?_, ?_⟩
  · split
    · exact (hid v).symm
    · rfl
  · split at hopen
    · exact hstatus v hopen
    · exact hopen

/-- Only the creation of an upload opens one. -/
theorem Changed.isOpen (h : s.Changed r s') (hr : r.kind ≠ .createUpload) (hopen : s'.IsOpen id) :
    s.IsOpen id := by
  cases h with
  | same => exact hopen
  | started bucket key type => exact absurd rfl hr
  | inserted hkind other number body =>
    exact isOpen_of_modifyUpload hopen (fun _ => rfl) fun _ h => h
  | completed bucket key other parts content =>
    have hopen' : (s.modifyUpload other fun u => { u with status := .completed }).IsOpen id := hopen
    exact isOpen_of_modifyUpload hopen' (fun _ => rfl) (by simp)
  | aborted bucket key other => exact isOpen_of_modifyUpload hopen (fun _ => rfl) (by simp)
  | objects hpublishes objects => exact hopen

/-- Only the creation of an upload makes the store know one more. -/
theorem Changed.length_uploads (h : s.Changed r s') (hr : r.kind ≠ .createUpload) :
    s'.uploads.length = s.uploads.length := by
  cases h with
  | same => rfl
  | started bucket key type => exact absurd rfl hr
  | inserted hkind other number body => simp [insertPart, modifyUpload]
  | completed bucket key other parts content => simp [complete, putObject, modifyUpload]
  | aborted bucket key other => simp [abort, modifyUpload]
  | objects hpublishes objects => rfl

theorem isOpen_startUpload {key : String} (hopen : (s.startUpload key).IsOpen id) :
    s.IsOpen id ∨ id = s.nextId := by
  obtain ⟨u, hu, rfl, hstatus⟩ := hopen
  rcases List.mem_append.mp hu with hu | hu
  · exact .inl ⟨u, hu, rfl, hstatus⟩
  · rw [List.mem_singleton.mp hu]
    exact .inr rfl

theorem not_isOpen_modifyUpload {f : StoredUpload → StoredUpload}
    (hstatus : ∀ u, (f u).status ≠ .inFlight) : ¬ (s.modifyUpload id f).IsOpen id := by
  rintro ⟨u, hu, huid, hopen⟩
  obtain ⟨v, hv, rfl⟩ := mem_modifyUpload.mp hu
  split at huid
  · rename_i hv
    rw [if_pos hv] at hopen
    exact hstatus v hopen
  · rename_i hv
    exact hv huid

theorem not_isOpen_complete (s : Store) (id key : String) (content : Bytes) :
    ¬ (s.complete id key content).IsOpen id :=
  not_isOpen_modifyUpload (by simp)

/-- An upload that is known is not open once it was to be dropped, also when that was refused. -/
theorem not_isOpen_of_abort {bucket key : String} (hids : s.IdsInOrder) (hknows : s.Knows id key)
    (h : (∃ v, s.effect (.abortUpload bucket key id) = .ok (v, s')) ∨
      ∃ f, s.effect (.abortUpload bucket key id) = .error f ∧ s' = s) : ¬ s'.IsOpen id := by
  rcases h with ⟨v, h⟩ | ⟨f, h, rfl⟩
  · rw [effect_abortUpload_eq_ok h]
    exact not_isOpen_modifyUpload (by simp)
  · rintro ⟨u, hu, rfl, hstatus⟩
    obtain ⟨w, hw, hid, rfl⟩ := hknows
    obtain rfl := hids.unique hw hu hid
    have hfound := hids.upload?_eq_some_iff.mpr ⟨hw, rfl, rfl, hstatus⟩
    simp only [effect, usable, hfound] at h
    cases h

end Store

end ResumableStorage
