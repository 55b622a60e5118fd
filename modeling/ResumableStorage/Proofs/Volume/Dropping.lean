/-
  ResumableStorage/Proofs/Volume/Dropping.lean
  ============================================
  **Exactly the due uploads are dropped** — those in flight whose keys begin with the key
  of the path, and which are old enough when an age is asked for.  They are found by a
  walk over a listing that is complete before the first of them is dropped, so dropping
  them takes nothing from the walk, and a dry run finds the same.
-/
import ResumableStorage.Proofs.Service.Sweeps
import ResumableStorage.Proofs.Volume.Cleaning

namespace ResumableStorage

/-! ## 1. Dropping several uploads -/

namespace Store

variable {s : Store} {u : StoredUpload} {dropped : List StoredUpload} {key id other : String}

/-- The store with these uploads aborted; an upload is known by its identifier. -/
def abortEach (s : Store) (dropped : List StoredUpload) : Store :=
  { s with uploads := s.uploads.map fun u =>
      if u.id ∈ dropped.map StoredUpload.id then { u with status := .aborted } else u }

theorem abortEach_nil (s : Store) : s.abortEach [] = s := by
  simp [abortEach]

theorem abortEach_abort (s : Store) (u : StoredUpload) (dropped : List StoredUpload) :
    (s.abort u.id).abortEach dropped = s.abortEach (u :: dropped) := by
  simp only [abortEach, abort, modifyUpload, List.map_map]
  congr 1
  apply List.map_congr_left
  intro v _
  by_cases hid : v.id = u.id <;> simp [hid]

/-- Dropping one after the other. -/
theorem foldl_abort (s : Store) (dropped : List StoredUpload) :
    (dropped.map StoredUpload.entry).foldl (fun s u => s.abort u.uploadId) s =
      s.abortEach dropped := by
  induction dropped generalizing s with
  | nil => exact s.abortEach_nil.symm
  | cons u rest ih =>
    rw [List.map_cons, List.foldl_cons, ih]
    exact s.abortEach_abort u rest

theorem upload?_abort_of_ne (s : Store) (key : String) (hne : other ≠ id) :
    (s.abort id).upload? key other = s.upload? key other := by
  simp only [upload?, abort, modifyUpload, List.find?_map]
  have hsame : ((fun u : StoredUpload => decide (u.id = other) && decide (u.key = key) &&
        decide (u.status = .inFlight)) ∘
      fun u => if u.id = id then { u with status := .aborted } else u) =
      fun u => decide (u.id = other) && decide (u.key = key) && decide (u.status = .inFlight) := by
    funext u
    by_cases hid : u.id = id <;> simp [hid, Ne.symm hne]
  rw [hsame]
  rcases hfind : s.uploads.find? _ with _ | u
  · rfl
  · have hid := List.find?_some hfind
    simp only [Bool.and_eq_true, decide_eq_true_eq] at hid
    simp [hid.1.1, hne]

theorem Regular.abortEach (h : s.Regular) (dropped : List StoredUpload) :
    (s.abortEach dropped).Regular := by
  induction dropped generalizing s with
  | nil => rwa [abortEach_nil]
  | cons u rest ih =>
    rw [← abortEach_abort]
    exact ih (h.modifyUpload u.id (fun _ => rfl) fun _ => rfl)

/-- What is in flight once some uploads are dropped was in flight before, and is none of them. -/
theorem mem_inFlight_abortEach (h : u ∈ (s.abortEach dropped).inFlight) :
    u ∈ s.inFlight ∧ u ∉ dropped := by
  obtain ⟨hmem, hstatus⟩ := mem_inFlight.mp h
  obtain ⟨v, hv, rfl⟩ := List.mem_map.mp hmem
  split at hstatus
  · cases hstatus
  · rename_i hnot
    rw [if_neg hnot]
    exact ⟨mem_inFlight.mpr ⟨hv, hstatus⟩, fun hdropped => hnot (List.mem_map_of_mem hdropped)⟩

/-- Once everything in flight that passes a test is dropped, nothing in flight passes it. -/
theorem filter_inFlight_abortEach (s : Store) (test : StoredUpload → Bool) :
    (s.abortEach (s.inFlight.filter test)).inFlight.filter test = [] := by
  rw [List.filter_eq_nil_iff]
  intro u hu hpasses
  obtain ⟨hflight, hnot⟩ := mem_inFlight_abortEach hu
  exact hnot (List.mem_filter.mpr ⟨hflight, hpasses⟩)

end Store

/-! ## 2. The sweep over the uploads that were found -/

namespace Volume

variable {v : Volume} {path : String} {now : Instant} {age : Option Age} {t : Option Instant}
  {c c' : Context (Disturbed Store)}

/-- The uploads that are left are distinct and in flight. -/
def dropping (v : Volume) : Sweep InFlight where
  action := .abortUpload
  kind := .abortUpload
  request u := .abortUpload v.bucket.name u.key u.uploadId
  change s u := s.abort u.uploadId
  ready s items := (items.map InFlight.uploadId).Nodup ∧
    ∀ u ∈ items, ∃ stored, s.upload? u.key u.uploadId = some stored
  kind_request _ := rfl
  effect_request := by
    rintro s u rest ⟨hnodup, hopen⟩
    rw [List.map_cons, List.nodup_cons] at hnodup
    obtain ⟨stored, hstored⟩ := hopen u List.mem_cons_self
    refine ⟨Store.effect_abortUpload hstored _, hnodup.2, ?_⟩
    intro w hw
    have hne : w.uploadId ≠ u.uploadId := fun hid => hnodup.1 (hid ▸ List.mem_map_of_mem hw)
    rw [s.upload?_abort_of_ne w.key hne]
    exact hopen w (List.mem_cons_of_mem _ hw)

theorem dropping_runBy (v : Volume) : v.dropping.RunBy (fun u => do
    Client.abortUpload ⟨u.uploadId, v.bucket.name, u.key⟩
    Run.report (.staleAborted u)) := by
  refine ⟨fun _ _ => .ok (), fun _ => rfl, ?_⟩
  intro u c
  have hrun : (Client.abortUpload ⟨u.uploadId, v.bucket.name, u.key⟩).execute c =
      ((c.exchange (v.dropping.request u)).decoded .abortUpload fun _ => .ok (),
        c.asked (v.dropping.request u)) := Client.abortUpload_decodes _ c
  change ∃ notices, _ = ((c.exchange (v.dropping.request u)).decoded .abortUpload
    (fun _ => .ok ()), { c.asked (v.dropping.request u) with notices := notices })
  rw [Run.execute_bind, hrun]
  rcases (c.exchange (v.dropping.request u)).decoded .abortUpload (fun _ => .ok ()) with e | ⟨⟩
  · exact ⟨c.notices, rfl⟩
  · exact ⟨_, rfl⟩

/-- An upload that a cleanup is to drop: it is in flight, its key begins with that of the path, and
when an age is asked for it is known to have been started long enough ago. -/
structure Due (v : Volume) (now : Instant) (path : String) (age : Option Age)
    (u : StoredUpload) : Prop where
  inFlight : u.status = .inFlight
  front : Text.startsWith u.key (v.key path) = true
  old : ∀ a, age = some a → ∃ started, u.initiated = some started ∧ started ≤ now - a.microseconds

theorem threshold_eq (now : Instant) (age : Option Age)
    (hvalid : ∀ a, age = some a → Calendar.holds (now - a.microseconds) = true) :
    threshold now age = .ok (age.map fun a => now - a.microseconds) := by
  rcases age with _ | a
  · rfl
  · simp [threshold, hvalid a rfl]

theorem isStale_iff_due {u : StoredUpload} (hu : u.status = .inFlight) :
    u.isStale (v.key path) (age.map fun a => now - a.microseconds) = true ↔ v.Due now path age u := by
  have hold : u.isOldEnough (age.map fun a => now - a.microseconds) = true ↔
      ∀ a, age = some a → ∃ started, u.initiated = some started ∧ started ≤ now - a.microseconds := by
    rcases age with _ | a
    · simp [StoredUpload.isOldEnough]
    · rcases hstart : u.initiated with _ | started <;> simp [StoredUpload.isOldEnough, hstart]
  rw [StoredUpload.isStale, Bool.and_eq_true, hold]
  constructor
  · intro h
    exact ⟨hu, h.1, h.2⟩
  · intro h
    exact ⟨h.front, h.old⟩

/-- The due uploads, in the order of a listing. -/
theorem exists_due (v : Volume) {s : Store} (hids : s.IdsInOrder) (now : Instant) (path : String)
    (age : Option Age) : ∃ due : List StoredUpload,
      due = s.inFlight.filter (fun u => u.isStale (v.key path) (age.map fun a => now - a.microseconds)) ∧
      due.Pairwise StoredUpload.Precedes ∧
      ∀ u, u ∈ due ↔ u ∈ s.uploads ∧ v.Due now path age u := by
  refine ⟨_, rfl, hids.inFlight_ascending.filter _, ?_⟩
  intro u
  rw [List.mem_filter, Store.mem_inFlight]
  constructor
  · rintro ⟨⟨hu, hstatus⟩, hstale⟩
    exact ⟨hu, (isStale_iff_due hstatus).mp hstale⟩
  · rintro ⟨hu, hdue⟩
    exact ⟨⟨hu, hdue.inFlight⟩, (isStale_iff_due hdue.inFlight).mpr hdue⟩

theorem staleUploads_quiet (v : Volume) (now : Instant) (path : String) (age : Option Age) :
    (v.staleUploads now path age : Run (Disturbed Store) (List InFlight)).Quiet
      (·.kind = .listUploads) := by
  unfold staleUploads
  rcases threshold now age with e | t
  · exact Run.quiet_throw e
  · exact v.bucket.walkUploads_quiet _ _

/-- A cleanup is the walk that finds the uploads, and without a dry run the sweep that drops
them. -/
theorem abortUploads_of_found (v : Volume) {found : List InFlight}
    (hfound : (v.staleUploads now path age).execute c = (.ok found, c')) :
    (v.abortUploads now path age true).execute c = (.ok found, c') ∧
      ∀ result c'', (found.forM fun u => (do
          Client.abortUpload ⟨u.uploadId, v.bucket.name, u.key⟩
          Run.report (.staleAborted u)) : Run (Disturbed Store) PUnit).execute c' = (result, c'') →
        (v.abortUploads now path age false).execute c = (result.map fun _ => found, c'') := by
  constructor
  · simp only [abortUploads, Run.execute_bind, hfound]
    rfl
  · intro result c'' hsweep
    simp only [abortUploads, Run.execute_bind, hfound, Bool.not_false, if_true, hsweep]
    cases result <;> rfl

/-- Distinct uploads in flight can be dropped one after the other. -/
theorem dropping_ready (v : Volume) {s : Store} (hids : s.IdsInOrder) {due : List StoredUpload}
    (hdue : due.Pairwise StoredUpload.Precedes)
    (hopen : ∀ u ∈ due, u ∈ s.uploads ∧ u.status = .inFlight) :
    v.dropping.ready s (due.map StoredUpload.entry) := by
  constructor
  · rw [List.map_map]
    refine List.pairwise_map.mpr ((List.Pairwise.and_mem.mp hdue).imp ?_)
    rintro u w ⟨hu, hw, hprecedes⟩ hid
    have hsame : u = w := hids.unique (hopen u hu).1 (hopen w hw).1 hid
    exact StoredUpload.Precedes.asymm u w hprecedes (hsame ▸ hprecedes)
  · intro e he
    obtain ⟨u, hu, rfl⟩ := List.mem_map.mp he
    exact ⟨u, hids.upload?_eq_some_iff.mpr ⟨(hopen u hu).1, rfl, rfl, (hopen u hu).2⟩⟩

/-- **A cleanup drops exactly the due uploads.**  They are found in the order of a listing, each
once, whatever the size of a page and whether or not the store follows the front that it is given.
A dry run tells which they are, asks for nothing but pages of the listing, and leaves the store as
it is.  Without a dry run the same uploads are told of, exactly these are aborted, and a second
cleanup at the same time finds none.  Where the dropping of one of them fails before it takes
effect, those before it are aborted, and that failure is the result. -/
theorem abortUploads_drops_due (v : Volume) (hregular : c.store.Regular)
    (hlisting : c.service.IsCalmFor .listUploads) (now : Instant) (path : String)
    (age : Option Age) (hvalid : ∀ a, age = some a → Calendar.holds (now - a.microseconds) = true) :
    ∃ due : List StoredUpload, due.Pairwise StoredUpload.Precedes ∧
      (∀ u, u ∈ due ↔ u ∈ c.store.uploads ∧ v.Due now path age u) ∧
      (∃ c', (v.abortUploads now path age true).execute c = (.ok (due.map StoredUpload.entry), c') ∧
        c'.store = c.store ∧ ∀ x ∈ c.exchanges c', x.request.kind = .listUploads) ∧
      (c.service.IsCalmFor .abortUpload → ∃ c' c'',
        (v.abortUploads now path age false).execute c = (.ok (due.map StoredUpload.entry), c') ∧
        c'.store = c.store.abortEach due ∧
        (v.abortUploads now path age false).execute c' = (.ok [], c'') ∧ c''.store = c'.store) ∧
      ∀ i f, i < due.length → c.service.FailsAfter .abortUpload i f → ∃ c',
        (v.abortUploads now path age false).execute c =
          (.error (.storage (.failed .abortUpload f)), c') ∧
        c'.store = c.store.abortEach (due.take i) := by
  obtain ⟨due, hdue, hsorted, hmem⟩ := v.exists_due hregular.ids now path age
  have hage := threshold_eq now age hvalid
  obtain ⟨c₁, hfound, hstore₁⟩ := v.staleUploads_execute hlisting hregular path hage
  rw [← hdue] at hfound
  have hquiet := v.staleUploads_quiet now path age
  obtain ⟨xs, hasks, -, -, hkinds⟩ := hquiet c
  have hother : ∀ r : Request, r.kind = .listUploads → r.kind ≠ .abortUpload := by
    intro r hr
    rw [hr]
    decide
  have hqueue := hquiet.queue_eq hother c
  have hlisting₁ := hquiet.calmFor hlisting
  rw [hfound] at hasks hqueue hlisting₁
  obtain ⟨hdry, hwet⟩ := v.abortUploads_of_found hfound
  have hready : v.dropping.ready c₁.store (due.map StoredUpload.entry) := by
    rw [hstore₁]
    exact v.dropping_ready hregular.ids hsorted fun u hu =>
      ⟨((hmem u).mp hu).1, ((hmem u).mp hu).2.inFlight⟩
  refine ⟨due, hsorted, hmem, ⟨c₁, hdry, hstore₁, ?_⟩, ?_, ?_⟩
  · rw [hasks.exchanges_eq]
    exact hkinds
  · intro hcalm
    have hlets : c₁.service.Lets .abortUpload (due.map StoredUpload.entry).length :=
      fun x hx => hcalm x (hqueue ▸ List.mem_of_mem_take hx)
    obtain ⟨c', hsweep, hswept⟩ := v.dropping_runBy.forM_returns hready hlets
    have hstore : c'.store = c.store.abortEach due := by
      rw [hswept.store, hstore₁]
      exact c.store.foldl_abort due
    have hlisting' : c'.service.IsCalmFor .listUploads := fun x hx => by
      rw [hswept.queue] at hx
      exact hlisting₁ x hx
    have hregular' : c'.store.Regular := hstore ▸ hregular.abortEach due
    obtain ⟨c₂, hagain, hstore₂⟩ := v.staleUploads_execute hlisting' hregular' path hage
    rw [hstore, hdue, Store.filter_inFlight_abortEach] at hagain
    exact ⟨c', c₂, hwet _ c' hsweep, hstore, (v.abortUploads_of_found hagain).2 _ c₂ rfl, hstore₂⟩
  · intro i f hi hplan
    obtain ⟨c', hsweep, hswept⟩ := v.dropping_runBy.forM_fails hready
      (hplan.of_queue_eq hqueue) (by rwa [List.length_map])
    refine ⟨c', hwet _ c' hsweep, ?_⟩
    rw [hswept.store, hstore₁, ← List.map_take]
    exact c.store.foldl_abort (due.take i)

namespace Sample

/-- The second upload cannot be dropped. -/
def earlyDropping : List (RequestKind × List (Option Disturbance)) :=
  [(.abortUpload, [none, some ⟨false, .fails (.unreachable "down")⟩])]

/-- Three uploads that are listed one by one, and that were started at time zero. -/
def twoDue : Context (Disturbed Store) where
  service := ⟨{ ((((Store.empty 0).startUpload "root/foo/x").startUpload "root/fo").startUpload
    "root/foobar") with uploadPageSize := 1 }, earlyDropping⟩
  pool := context.pool

theorem twoDue_regular : twoDue.store.Regular where
  ids := (((Store.empty_idsInOrder 0).startUpload "root/foo/x").startUpload "root/fo").startUpload
    "root/foobar"
  keys := by decide +kernel
  pages := by decide

end Sample

theorem first_of_two_is_dropped : ∃ due : List StoredUpload, 1 < due.length ∧
    ∃ c', (Sample.volume.abortUploads 10 "/foo" (some ⟨10⟩) false).execute Sample.twoDue =
        (.error (.storage (.failed .abortUpload (.unreachable "down"))), c') ∧
      c'.store = Sample.twoDue.store.abortEach (due.take 1) := by
  have hlisting : Sample.twoDue.service.IsCalmFor .listUploads := by
    intro x hx
    cases hx
  have hplan : Sample.twoDue.service.FailsAfter .abortUpload 1 (.unreachable "down") := by
    refine ⟨?_, rfl⟩
    intro x hx
    exact List.mem_singleton.mp hx
  obtain ⟨due, -, hmem, -, -, hfails⟩ := Sample.volume.abortUploads_drops_due
    Sample.twoDue_regular hlisting 10 "/foo" (some ⟨10⟩) (by rintro _ ⟨⟩; decide)
  have hold : ∀ u ∈ Sample.twoDue.store.uploads, u.key = "root/foo/x" ∨ u.key = "root/foobar" →
      u.status = .inFlight ∧ Text.startsWith u.key (Sample.volume.key "/foo") = true ∧
        u.initiated = some 0 := by
    decide +kernel
  have hdue : ∀ key, key = "root/foo/x" ∨ key = "root/foobar" → ∃ u ∈ due, u.key = key := by
    intro key hkey
    have hstored : ∀ key, key = "root/foo/x" ∨ key = "root/foobar" →
        ∃ u ∈ Sample.twoDue.store.uploads, u.key = key := by
      rintro _ (rfl | rfl) <;> decide +kernel
    obtain ⟨u, hu, rfl⟩ := hstored key hkey
    obtain ⟨hflight, hfront, hstart⟩ := hold u hu hkey
    refine ⟨u, (hmem u).mpr ⟨hu, hflight, hfront, ?_⟩, rfl⟩
    rintro _ ⟨⟩
    exact ⟨0, hstart, by decide⟩
  have hlength : 1 < due.length := by
    obtain ⟨u, hu, hkey⟩ := hdue "root/foo/x" (.inl rfl)
    obtain ⟨w, hw, hkey'⟩ := hdue "root/foobar" (.inr rfl)
    rcases due with _ | ⟨a, _ | ⟨b, rest⟩⟩
    · cases hu
    · rw [List.mem_singleton.mp hu] at hkey
      rw [List.mem_singleton.mp hw, hkey] at hkey'
      exact absurd hkey' (by decide)
    · simp
  exact ⟨due, hlength, hfails 1 _ hlength hplan⟩

end Volume

end ResumableStorage
