/-
  ResumableStorage/Proofs/Store/Effects.lean
  ==========================================
  **What requests do to a store** — the changes that the requests of a writer make, each
  as a function of the store, and what each of them keeps: the order of identifiers, the
  objects, and the parts of every upload that it does not name.
-/
import ResumableStorage.Proofs.Store.Parts

namespace ResumableStorage

namespace Store

variable {s : Store} {id key : String} {parts : Keyed Int Bytes}

/-! ## 1. Changes -/

def complete (s : Store) (id key : String) (content : Bytes) : Store :=
  (s.modifyUpload id fun u => { u with status := .completed }).putObject key content

def abort (s : Store) (id : String) : Store :=
  s.modifyUpload id fun u => { u with status := .aborted }

def insertPart (s : Store) (id : String) (number : Int) (body : Bytes) : Store :=
  s.modifyUpload id fun u => { u with parts := u.parts.insert number body }

/-- The store with one more upload, without parts. -/
def startUpload (s : Store) (key : String) : Store :=
  (s.addUpload key (some s.clock) Keyed.empty).2

theorem insertPart_setParts (s : Store) (id : String) (parts : Keyed Int Bytes) (number : Int)
    (body : Bytes) :
    (s.setParts id parts).insertPart id number body = s.setParts id (parts.insert number body) := by
  simp only [insertPart, setParts, modifyUpload, List.map_map]
  congr 1
  apply List.map_congr_left
  intro u _
  by_cases hid : u.id = id <;> simp [hid]

/-! ## 2. Granted requests -/

theorem upload?_id {s : Store} {key id : String} {u : StoredUpload}
    (h : s.upload? key id = some u) : u.id = id := by
  have hp := List.find?_some h
  simp only [Bool.and_eq_true, decide_eq_true_eq] at hp
  exact hp.1.1

theorem effect_uploadPart {s : Store} {key id : String} {u : StoredUpload}
    (h : s.upload? key id = some u) (bucket : String) (number : Int) (body : Bytes) :
    s.effect (.uploadPart bucket key id number body) =
      .ok (.object [("ETag", .text (tag body))], s.insertPart id number body) := by
  obtain rfl := upload?_id h
  simp only [effect, usable, h]
  rfl

theorem effect_copyPart {s : Store} {key id source : String} {u : StoredUpload} {o : StoredObject}
    (h : s.upload? key id = some u) (ho : s.objects.find? source = some o) (bucket : String)
    (number : Int) (range : Option String) :
    s.effect (.copyPart bucket key id number source range) =
      .ok (.object [("CopyPartResult", .object [("ETag", .text (tag (sliceOrEmpty o.content range)))])],
        s.insertPart id number (sliceOrEmpty o.content range)) := by
  obtain rfl := upload?_id h
  simp only [effect, usable, h, ho]
  rfl

theorem effect_getObject {s : Store} {key : String} {o : StoredObject} {range : Option String}
    {content : Bytes} (ho : s.objects.find? key = some o)
    (hslice : slice? o.content range = some content) (bucket : String) :
    s.effect (.getObject bucket key range) = .ok (.object [("Body", .stream content none)], s) := by
  simp only [effect, ho, hslice]

theorem effect_getObject_past_end {s : Store} {key : String} {o : StoredObject}
    {range : Option String} (ho : s.objects.find? key = some o)
    (hslice : slice? o.content range = none) (bucket : String) :
    s.effect (.getObject bucket key range) =
      .error (.refused (Refusal.standard "GetObject" "InvalidRange" 416)) := by
  simp only [effect, ho, hslice]

theorem effect_getObject_missing {s : Store} {key : String} (ho : s.objects.find? key = none)
    (bucket : String) (range : Option String) :
    s.effect (.getObject bucket key range) = .error (missing "GetObject" "NoSuchKey") := by
  simp only [effect, ho]

theorem effect_getObject_eq_ok {s s' : Store} {bucket key : String} {v : Value}
    (h : s.effect (.getObject bucket key none) = .ok (v, s')) :
    s' = s ∧ ∃ o, s.objects.find? key = some o ∧ v = .object [("Body", .stream o.content none)] := by
  rcases ho : s.objects.find? key with _ | o
  · rw [effect_getObject_missing ho] at h
    cases h
  · rw [effect_getObject ho rfl] at h
    cases h
    exact ⟨rfl, o, rfl, rfl⟩

def headFields (o : StoredObject) : Value :=
  .object [("ContentLength", .int o.content.size), ("ETag", .text (tag o.content)),
    ("ContentType", .text "binary/octet-stream"), ("LastModified", .time o.modified)]

theorem effect_headObject {s : Store} {key : String} {o : StoredObject}
    (ho : s.objects.find? key = some o) (bucket : String) :
    s.effect (.headObject bucket key) = .ok (headFields o, s) := by
  simp only [effect, ho]
  rfl

theorem effect_headObject_missing {s : Store} {key : String} (ho : s.objects.find? key = none)
    (bucket : String) : s.effect (.headObject bucket key) = .error (missing "HeadObject" "404") := by
  simp only [effect, ho]

theorem effect_headObject_eq_ok {s s' : Store} {bucket key : String} {v : Value}
    (h : s.effect (.headObject bucket key) = .ok (v, s')) :
    s' = s ∧ ∃ o, s.objects.find? key = some o ∧ v = headFields o := by
  rcases ho : s.objects.find? key with _ | o
  · rw [effect_headObject_missing ho] at h
    cases h
  · rw [effect_headObject ho] at h
    cases h
    exact ⟨rfl, o, rfl, rfl⟩

theorem effect_completeUpload_eq_ok {s s' : Store} {bucket key id : String}
    {parts : List (Int × String)} {v : Value}
    (h : s.effect (.completeUpload bucket key id parts) = .ok (v, s')) :
    ∃ u contents, s.upload? key id = some u ∧ s.partsToJoin u parts = .ok contents ∧
      v = .object [("ETag", .text (tag (Bytes.concat contents)))] ∧
      s' = s.complete id key (Bytes.concat contents) := by
  simp only [effect, usable] at h
  rcases hu : s.upload? key id with _ | u
  · rw [hu] at h
    cases h
  · rw [hu] at h
    change (if parts.isEmpty = true then _ else _) = _ at h
    split at h
    · cases h
    · rcases hjoin : s.partsToJoin u parts with f | contents
      · rw [hjoin] at h
        cases h
      · rw [hjoin] at h
        cases h
        exact ⟨u, contents, rfl, hjoin, rfl, by rw [upload?_id hu]; rfl⟩

theorem effect_completeUpload {s : Store} {key id : String} {parts : List (Int × String)}
    {u : StoredUpload} {contents : List Bytes} (hu : s.upload? key id = some u)
    (hparts : parts ≠ []) (hjoin : s.partsToJoin u parts = .ok contents) (bucket : String) :
    s.effect (.completeUpload bucket key id parts) =
      .ok (.object [("ETag", .text (tag (Bytes.concat contents)))],
        s.complete id key (Bytes.concat contents)) := by
  have hne : parts.isEmpty = false := by simpa using hparts
  obtain rfl := upload?_id hu
  simp only [effect, usable, hu]
  change (if parts.isEmpty = true then _ else _) = _
  rw [hne, hjoin]
  rfl

theorem effect_completeUpload_refused {s : Store} {key id : String} {parts : List (Int × String)}
    {u : StoredUpload} {f : Failure} (hu : s.upload? key id = some u) (hparts : parts ≠ [])
    (hjoin : s.partsToJoin u parts = .error f) (bucket : String) :
    s.effect (.completeUpload bucket key id parts) = .error f := by
  have hne : parts.isEmpty = false := by simpa using hparts
  simp only [effect, usable, hu]
  change (if parts.isEmpty = true then _ else _) = _
  rw [hne, hjoin]
  rfl

theorem effect_abortUpload {s : Store} {key id : String} {u : StoredUpload}
    (hu : s.upload? key id = some u) (bucket : String) :
    s.effect (.abortUpload bucket key id) = .ok (.object [], s.abort id) := by
  obtain rfl := upload?_id hu
  simp only [effect, usable, hu]
  rfl

theorem effect_abortUpload_eq_ok {s s' : Store} {bucket key id : String} {v : Value}
    (h : s.effect (.abortUpload bucket key id) = .ok (v, s')) : s' = s.abort id := by
  rcases hu : s.upload? key id with _ | u
  · simp only [effect, usable, hu] at h
    cases h
  · rw [effect_abortUpload hu] at h
    cases h
    rfl

theorem exists_of_effect_abortUpload {s s' : Store} {bucket key id : String} {v : Value}
    (h : s.effect (.abortUpload bucket key id) = .ok (v, s')) : ∃ u, s.upload? key id = some u := by
  rcases hu : s.upload? key id with _ | u
  · simp only [effect, usable, hu] at h
    cases h
  · exact ⟨u, rfl⟩

theorem tag_isGiven (content : Bytes) : (Value.text (tag content)).isGiven = true := by
  simp only [Value.isGiven, bne_iff_ne, ne_eq]
  intro h
  have hlist := congrArg String.toList h
  simp [tag] at hlist

theorem nextId_isGiven (s : Store) : (Value.text s.nextId).isGiven = true := by
  simp only [Value.isGiven, bne_iff_ne, ne_eq]
  intro h
  have hlist := congrArg String.toList h
  simp [nextId] at hlist

/-! ## 3. What is kept -/

/-- The store keeps an upload with these parts, whatever has become of it. -/
def Records (s : Store) (id key : String) (parts : Keyed Int Bytes) : Prop :=
  ∃ u ∈ s.uploads, u.id = id ∧ u.key = key ∧ u.parts = parts

theorem Records.modifyUpload (h : s.Records id key parts) (other : String)
    {f : StoredUpload → StoredUpload} (hid : ∀ u, (f u).id = u.id) (hkey : ∀ u, (f u).key = u.key)
    (hparts : ∀ u, u.id = other → u.id = id → (f u).parts = u.parts) :
    (s.modifyUpload other f).Records id key parts := by
  obtain ⟨u, hu, rfl, rfl, rfl⟩ := h
  refine ⟨_, mem_modifyUpload.mpr ⟨u, hu, rfl⟩, ?_⟩
  split
  · rename_i hother
    exact ⟨hid u, hkey u, hparts u hother rfl⟩
  · exact ⟨rfl, rfl, rfl⟩

theorem Records.complete (h : s.Records id key parts) (other path : String) (content : Bytes) :
    (s.complete other path content).Records id key parts :=
  h.modifyUpload other (fun _ => rfl) (fun _ => rfl) fun _ _ _ => rfl

theorem Records.abort (h : s.Records id key parts) (other : String) :
    (s.abort other).Records id key parts :=
  h.modifyUpload other (fun _ => rfl) (fun _ => rfl) fun _ _ _ => rfl

theorem Records.insertPart (h : s.Records id key parts) {other : String} (hne : other ≠ id)
    (number : Int) (body : Bytes) : (s.insertPart other number body).Records id key parts :=
  h.modifyUpload other (fun _ => rfl) (fun _ => rfl) fun _ ho hid => absurd (ho.symm.trans hid) hne

theorem Records.startUpload (h : s.Records id key parts) (path : String) :
    (s.startUpload path).Records id key parts := by
  obtain ⟨u, hu, hrest⟩ := h
  exact ⟨u, List.mem_append_left _ hu, hrest⟩

theorem Records.ne_nextId (h : s.Records id key parts) (hids : s.IdsInOrder) : s.nextId ≠ id := by
  obtain ⟨u, hu, rfl, -, -⟩ := h
  exact (hids.ne_nextId hu).symm

theorem Records.parts_eq (h : s.Records id key parts) (hids : s.IdsInOrder) {u : StoredUpload}
    (hu : s.upload? key id = some u) : u.parts = parts := by
  obtain ⟨hmem, hid, -, -⟩ := hids.upload?_eq_some_iff.mp hu
  obtain ⟨v, hv, hvid, -, hvparts⟩ := h
  rw [hids.unique hmem hv (hid.trans hvid.symm), hvparts]

theorem IdsInOrder.complete (h : s.IdsInOrder) (id key : String) (content : Bytes) :
    (s.complete id key content).IdsInOrder := by
  apply IdsInOrder.putObject
  exact h.modifyUpload id fun _ => rfl

theorem IdsInOrder.abort (h : s.IdsInOrder) (id : String) : (s.abort id).IdsInOrder :=
  h.modifyUpload id fun _ => rfl

theorem IdsInOrder.insertPart (h : s.IdsInOrder) (id : String) (number : Int) (body : Bytes) :
    (s.insertPart id number body).IdsInOrder :=
  h.modifyUpload id fun _ => rfl

theorem IdsInOrder.startUpload (h : s.IdsInOrder) (key : String) :
    (s.startUpload key).IdsInOrder :=
  h.addUpload key _ _

@[simp] theorem complete_find? (s : Store) (id key : String) (content : Bytes) :
    (s.complete id key content).objects.find? key = some ⟨content, s.clock⟩ :=
  Keyed.find?_insert_self _ _ _

@[simp] theorem abort_objects (s : Store) (id : String) : (s.abort id).objects = s.objects := rfl

@[simp] theorem startUpload_objects (s : Store) (key : String) :
    (s.startUpload key).objects = s.objects := rfl

@[simp] theorem insertPart_objects (s : Store) (id : String) (number : Int) (body : Bytes) :
    (s.insertPart id number body).objects = s.objects := rfl

theorem IdsInOrder.upload?_startUpload (h : s.IdsInOrder) (key : String) :
    (s.startUpload key).upload? key s.nextId =
      some ⟨s.nextId, key, some s.clock, .inFlight, Part.table []⟩ :=
  (h.startUpload key).upload?_eq_some_iff.mpr
    ⟨List.mem_append_right _ (List.mem_singleton.mpr rfl), rfl, rfl, rfl⟩

theorem IdsInOrder.startUpload_setParts (h : s.IdsInOrder) (key : String) :
    (s.startUpload key).setParts s.nextId (Part.table []) = s.startUpload key :=
  (h.startUpload key).setParts_self
    ((h.startUpload key).upload?_eq_some_iff.mp (h.upload?_startUpload key)).1

theorem IdsInOrder.startUpload_insertPart (h : s.IdsInOrder) (key : String) (body : Bytes) :
    (s.startUpload key).insertPart s.nextId 1 body =
      (s.startUpload key).setParts s.nextId (Part.table [body]) := by
  conv_lhs => rw [← h.startUpload_setParts key]
  rw [insertPart_setParts]
  rfl

/-! ## 4. The only upload at a key -/

/-- No upload is in flight at the key, and those in flight elsewhere have a key that is not empty. -/
def Vacant (s : Store) (key : String) : Prop :=
  ∀ u ∈ s.uploads, u.status = .inFlight → u.key ≠ key ∧ u.key ≠ ""

/-- No upload is in flight at the key but the one with this identifier, and those in flight
elsewhere have a key that is not empty. -/
def Alone (s : Store) (key id : String) : Prop :=
  ∀ u ∈ s.uploads, u.status = .inFlight → u.key = key ∧ u.id = id ∨ u.key ≠ key ∧ u.key ≠ ""

theorem Vacant.startUpload (h : s.Vacant key) : (s.startUpload key).Alone key s.nextId := by
  intro u hu hstatus
  rcases List.mem_append.mp hu with hu | hu
  · exact .inr (h u hu hstatus)
  · rw [List.mem_singleton.mp hu]
    exact .inl ⟨rfl, rfl⟩

theorem Alone.setParts (h : s.Alone key id) (other : String) (parts : Keyed Int Bytes) :
    (s.setParts other parts).Alone key id := by
  intro u hu hstatus
  obtain ⟨v, hv, rfl⟩ := mem_modifyUpload.mp hu
  split at hstatus <;> split <;> exact h v hv hstatus

theorem Alone.complete (h : s.Alone key id) (content : Bytes) :
    (s.complete id key content).Vacant key := by
  intro u hu hstatus
  obtain ⟨v, hv, rfl⟩ := mem_modifyUpload.mp hu
  split at hstatus
  · cases hstatus
  · rename_i hid
    rw [if_neg hid]
    exact (h v hv hstatus).resolve_left fun hsame => hid hsame.2

end Store

end ResumableStorage
