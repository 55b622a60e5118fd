/-
  ResumableStorage/Proofs/Client/Requests.lean
  ============================================
  **The client before a failing store** — for each function that a writer calls: the
  answer and the new store when the request is granted, and the stores that can be left
  when it fails.  A failure with nothing disturbed means that the store has refused.
-/
import ResumableStorage.Proofs.Client.Answers
import ResumableStorage.Proofs.Service.Failing
import ResumableStorage.Upload.Writer.Finish

namespace ResumableStorage

namespace Client

variable {c : Context (Disturbed Store)}

/-- A part of an upload in flight is stored; it is refused by no store. -/
theorem uploadPart_cases (hf : c.service.FailsOnly) {s : Session} {u : StoredUpload}
    (hu : c.store.upload? s.key s.uploadId = some u) (number : Int) (body : Bytes) :
    ∃ result c', (uploadPart s number body).execute c = (result, c') ∧ c.Leads c' ∧
      (result = .ok ⟨number, Store.tag body, body.size⟩ ∧
          c'.store = c.store.insertPart s.uploadId number body ∨
        ∃ e, result = .error e ∧ ¬ c.service.IsCalm ∧
          (c'.store = c.store ∨ c'.store = c.store.insertPart s.uploadId number body)) := by
  have heffect := Store.effect_uploadPart hu s.bucket number body
  obtain ⟨result, c', hsend, hleads, hsent⟩ :=
    Run.send_sent hf .uploadPart (.uploadPart s.bucket s.key s.uploadId number body)
  simp only [uploadPart, Run.execute_bind, hsend]
  rcases hsent.of_effect (by simp [Request.kind]) heffect with ⟨rfl, hstore⟩ | ⟨e, rfl, hfailed⟩
  · refine ⟨_, c', ?_, hleads, .inl ⟨rfl, hstore⟩⟩
    simp [Run.execute_decoded, Except.mapError, Fields.find?, Store.tag_isGiven]
  · exact ⟨_, _, rfl, hleads, .inr ⟨e, rfl, hfailed⟩⟩

theorem createUpload_cases (hf : c.service.FailsOnly) (bucket key : String)
    (contentType : Option String) :
    ∃ result c', (createUpload bucket key contentType).execute c = (result, c') ∧ c.Leads c' ∧
      (result = .ok ⟨c.store.nextId, bucket, key⟩ ∧ c'.store = c.store.startUpload key ∨
        ∃ e, result = .error e ∧ ¬ c.service.IsCalm ∧
          (c'.store = c.store ∨ c'.store = c.store.startUpload key)) := by
  have heffect : c.store.effect (.createUpload bucket key (nonEmpty contentType)) =
      .ok (.object [("Bucket", .text bucket), ("Key", .text key),
        ("UploadId", .text c.store.nextId)], c.store.startUpload key) := rfl
  obtain ⟨result, c', hsend, hleads, hsent⟩ :=
    Run.send_sent hf .createUpload (.createUpload bucket key (nonEmpty contentType))
  simp only [createUpload, Run.execute_bind, hsend]
  rcases hsent.of_effect (by simp [Request.kind]) heffect with ⟨rfl, hstore⟩ | ⟨e, rfl, hfailed⟩
  · refine ⟨_, c', ?_, hleads, .inl ⟨rfl, hstore⟩⟩
    simp [Run.execute_decoded, Except.mapError, Fields.find?, List.lookup, Store.nextId_isGiven]
  · exact ⟨_, _, rfl, hleads, .inr ⟨e, rfl, hfailed⟩⟩

theorem sorted_ofTable (t : Keyed Int Bytes) :
    (Part.ofTable t).mergeSort (fun a b => a.number ≤ b.number) = Part.ofTable t := by
  apply List.mergeSort_of_pairwise
  refine List.pairwise_map.mpr (t.ascending.imp ?_)
  intro a b hab
  exact decide_eq_true (Int.le_of_lt hab)

theorem names_ofTable (t : Keyed Int Bytes) :
    (Part.ofTable t).map (fun p => (p.number, p.etag)) =
      t.entries.map fun e => (e.1, Store.tag e.2) := by
  rw [Part.ofTable, List.map_map]
  rfl

/-- An upload is completed to the bodies of the parts that are named, joined; nothing else can have
become of the store.  With nothing disturbed it fails only when the upload is no longer in flight
or a part that is not the last is below the store's least size. -/
theorem completeUpload_cases (hf : c.service.FailsOnly) (s : Session) {t : Keyed Int Bytes}
    (hne : t.entries ≠ [])
    (hfind : ∀ u, c.store.upload? s.key s.uploadId = some u →
      ∀ e ∈ t.entries, u.parts.find? e.1 = some e.2) :
    ∃ result c', (completeUpload s (Part.ofTable t)).execute c = (result, c') ∧ c.Leads c' ∧
      ((∃ etag u, result = .ok etag ∧ c.store.upload? s.key s.uploadId = some u ∧
          c'.store = c.store.complete s.uploadId s.key (Bytes.concat t.values)) ∨
        ∃ e, result = .error e ∧
          (c'.store = c.store ∨ ∃ u, c.store.upload? s.key s.uploadId = some u ∧
            c'.store = c.store.complete s.uploadId s.key (Bytes.concat t.values)) ∧
          (c.service.IsCalm → (∀ b ∈ t.values.dropLast, c.store.minPartSize ≤ b.size) →
            c.store.upload? s.key s.uploadId = none)) := by
  have hgranted : ∀ {v s'}, c.store.effect (.completeUpload s.bucket s.key s.uploadId
      (t.entries.map fun e => (e.1, Store.tag e.2))) = .ok (v, s') →
      (∃ u, c.store.upload? s.key s.uploadId = some u) ∧
        v = .object [("ETag", .text (Store.tag (Bytes.concat t.values)))] ∧
        s' = c.store.complete s.uploadId s.key (Bytes.concat t.values) := by
    intro v s' h
    obtain ⟨u, contents, hu, hjoin, rfl, rfl⟩ := Store.effect_completeUpload_eq_ok h
    have hcontents : contents = t.values := Store.eq_of_partsToJoin (hfind u hu) hjoin
    subst hcontents
    exact ⟨⟨u, hu⟩, rfl, rfl⟩
  obtain ⟨result, c', hsend, hleads, hsent⟩ := Run.send_sent hf .completeUpload
    (.completeUpload s.bucket s.key s.uploadId (t.entries.map fun e => (e.1, Store.tag e.2)))
  simp only [completeUpload, sorted_ofTable, names_ofTable, Run.execute_bind, hsend]
  cases hsent with
  | granted h =>
    obtain ⟨⟨u, hu⟩, rfl, hstore⟩ := hgranted h
    refine ⟨_, c', ?_, hleads, .inl ⟨Store.tag (Bytes.concat t.values), u, rfl, hu, hstore⟩⟩
    simp [Run.execute_decoded, Except.mapError, Fields.find?, Store.tag_isGiven]
  | failed hs hwhy =>
    refine ⟨_, _, rfl, hleads, .inr ⟨_, rfl, ?_, ?_⟩⟩
    · rcases hs with hs | ⟨v, h⟩
      · exact .inl hs
      · obtain ⟨⟨u, hu⟩, -, hstore⟩ := hgranted h
        exact .inr ⟨u, hu, hstore⟩
    · intro hcalm hsize
      rcases hu : c.store.upload? s.key s.uploadId with _ | u
      · rfl
      · obtain ⟨f, h⟩ := hwhy hcalm
        have hjoin := Store.partsToJoin_eq_ok (s := c.store) (hfind u hu) hsize
        have hnames : t.entries.map (fun e => (e.1, Store.tag e.2)) ≠ [] :=
          mt List.map_eq_nil_iff.mp hne
        rw [Store.effect_completeUpload hu hnames hjoin] at h
        cases h
  | broken content f hs hkind => cases hkind

theorem abortUpload_cases (hf : c.service.FailsOnly) (s : Session) :
    ∃ result c', (abortUpload s).execute c = (result, c') ∧ c.Leads c' ∧
      (c'.store = c.store ∨ c'.store = c.store.abort s.uploadId) := by
  obtain ⟨result, c', hsend, hleads, hsent⟩ :=
    Run.send_sent hf .abortUpload (.abortUpload s.bucket s.key s.uploadId)
  refine ⟨_, c', by rw [abortUpload, Run.execute_discard, hsend], hleads, ?_⟩
  cases hsent with
  | granted h => exact .inr (Store.effect_abortUpload_eq_ok h)
  | failed hs =>
    rcases hs with hs | ⟨v, h⟩
    · exact .inl hs
    · exact .inr (Store.effect_abortUpload_eq_ok h)
  | broken content f hs hkind => cases hkind

/-- The body of an object, or one that breaks off, or an error; the store stays as it is. -/
theorem getObject_cases (hf : c.service.FailsOnly) (bucket key : String) :
    ∃ result c', (getObject bucket key).execute c = (result, c') ∧ c.Leads c' ∧
      c'.store = c.store ∧
      ((∃ o, c.store.objects.find? key = some o ∧ result = .ok (.stream o.content none)) ∨
        (∃ content f, result = .ok (.stream content (some f)) ∧ ¬ c.service.IsCalm) ∨
        ∃ e, result = .error e ∧ (c.service.IsCalm → c.store.objects.find? key = none)) := by
  have hsame : ∀ {s'}, (s' = c.store ∨
      ∃ v, c.store.effect (.getObject bucket key none) = .ok (v, s')) → s' = c.store := by
    rintro s' (h | ⟨v, h⟩)
    · exact h
    · exact (Store.effect_getObject_eq_ok h).1
  obtain ⟨result, c', hsend, hleads, hsent⟩ := Run.send_sent hf .getObject (.getObject bucket key none)
  simp only [getObject, Run.execute_bind, hsend]
  cases hsent with
  | granted h =>
    obtain ⟨hstore, o, ho, rfl⟩ := Store.effect_getObject_eq_ok h
    refine ⟨_, c', ?_, hleads, hstore, .inl ⟨o, ho, rfl⟩⟩
    simp [Run.execute_decoded, Except.mapError, Value.field, Fields.find?]
  | failed hs hwhy =>
    refine ⟨_, _, rfl, hleads, hsame hs, .inr (.inr ⟨_, rfl, ?_⟩)⟩
    intro hcalm
    obtain ⟨f, h⟩ := hwhy hcalm
    rcases ho : c.store.objects.find? key with _ | o
    · rfl
    · rw [Store.effect_getObject ho rfl] at h
      cases h
  | broken content f hs hkind hwhy =>
    refine ⟨_, c', ?_, hleads, hsame hs, .inr (.inl ⟨content, f, rfl, hwhy⟩)⟩
    simp [brokenBody, Run.execute_decoded, Except.mapError, Value.field, Fields.find?]

/-- The size of an object, or an error; the store stays as it is. -/
theorem headObject_cases (hf : c.service.FailsOnly) (bucket key : String) :
    ∃ result c', (headObject bucket key).execute c = (result, c') ∧ c.Leads c' ∧
      c'.store = c.store ∧
      ((∃ o head, c.store.objects.find? key = some o ∧ result = .ok head ∧
          head.size = o.content.size) ∨
        ∃ e, result = .error e ∧ (c.service.IsCalm → c.store.objects.find? key = none)) := by
  obtain ⟨result, c', hsend, hleads, hsent⟩ := Run.send_sent hf .headObject (.headObject bucket key)
  simp only [headObject, Run.execute_bind, hsend]
  cases hsent with
  | granted h =>
    obtain ⟨hstore, o, ho, rfl⟩ := Store.effect_headObject_eq_ok h
    refine ⟨_, c', rfl, hleads, hstore, .inl ⟨o, _, ho, rfl, rfl⟩⟩
  | failed hs hwhy =>
    refine ⟨_, _, rfl, hleads, ?_, .inr ⟨_, rfl, ?_⟩⟩
    · rcases hs with hs | ⟨v, h⟩
      · exact hs
      · exact (Store.effect_headObject_eq_ok h).1
    · intro hcalm
      obtain ⟨f, h⟩ := hwhy hcalm
      rcases ho : c.store.objects.find? key with _ | o
      · rfl
      · rw [Store.effect_headObject ho] at h
        cases h
  | broken content f hs hkind => cases hkind

/-- A part of an upload in flight is made of an object, with the size that the store tells of it. -/
theorem copyPart_cases (hf : c.service.FailsOnly) {s : Session} {u : StoredUpload}
    (hu : c.store.upload? s.key s.uploadId = some u) (number : Int) (source : String) :
    ∃ result c', (copyPart s number source none).execute c = (result, c') ∧ c.Leads c' ∧
      ((∃ o, c.store.objects.find? source = some o ∧
          result = .ok ⟨number, Store.tag o.content, o.content.size⟩ ∧
          c'.store = c.store.insertPart s.uploadId number o.content) ∨
        ∃ e, result = .error e ∧
          (c'.store = c.store ∨ ∃ o, c.store.objects.find? source = some o ∧
            c'.store = c.store.insertPart s.uploadId number o.content) ∧
          (c.service.IsCalm → c.store.objects.find? source = none)) := by
  obtain ⟨head?, c₁, hhead, hleads₁, hstore₁, hcases⟩ := headObject_cases hf s.bucket source
  have hrange : nonEmpty none = none := rfl
  simp only [copyPart, hrange, Run.execute_bind, hhead]
  rcases hcases with ⟨o, head, ho, rfl, hsize⟩ | ⟨e, rfl, hnone⟩
  · have heffect : c₁.store.effect (.copyPart s.bucket s.key s.uploadId number source none) =
        .ok (.object [("CopyPartResult", .object [("ETag", .text (Store.tag o.content))])],
          c.store.insertPart s.uploadId number o.content) := by
      rw [hstore₁]
      exact Store.effect_copyPart hu ho s.bucket number none
    obtain ⟨result, c', hsend, hleads, hsent⟩ := Run.send_sent hleads₁.failsOnly .copyPart
      (.copyPart s.bucket s.key s.uploadId number source none)
    simp only [Run.execute_pure, hsend]
    rcases hsent.of_effect (by simp [Request.kind]) heffect with ⟨rfl, hstore⟩ | ⟨e, rfl, hcalm, hstore⟩
    · refine ⟨_, c', ?_, hleads₁.trans hleads, .inl ⟨o, ho, rfl, hstore⟩⟩
      have hgiven : (Value.object [("ETag", .text (Store.tag o.content))]).isGiven = true := rfl
      simp [Run.execute_decoded, Run.execute_bind, Except.mapError, Fields.find?, hgiven,
        Store.tag_isGiven, hsize]
    · refine ⟨_, _, rfl, hleads₁.trans hleads, .inr ⟨e, rfl, ?_, ?_⟩⟩
      · rw [hstore₁] at hstore
        exact hstore.imp_right fun hs => ⟨o, ho, hs⟩
      · intro hc
        exact absurd (hleads₁.calm hc) hcalm
  · exact ⟨_, _, rfl, hleads₁, .inr ⟨_, rfl, .inl hstore₁, hnone⟩⟩

end Client

end ResumableStorage
