/-
  ResumableStorage/Proofs/Volume/Cleaning.lean
  ============================================
  **What a cleanup touches** — an upload is touched when a cleanup names it in its result
  or asks for it to be dropped.  It touches nothing but open uploads that are old enough
  and whose keys begin with the key of the path.

  To begin with the key of a path is not to be below the path: a cleanup of `/foo` also
  reaches an upload at `foobar`.  A cleanup stays below its path exactly when no such
  neighbour is stale, as when the key of the path is empty or ends in a slash.
-/
import ResumableStorage.Cleanup.Run
import ResumableStorage.Proofs.Client.Listings
import ResumableStorage.Proofs.Client.Lookups
import ResumableStorage.Proofs.Service.Plans
import ResumableStorage.Proofs.Volume.Rounds

namespace ResumableStorage

/-! ## 1. Stale uploads -/

namespace StoredUpload

/-- It was started at the threshold or before.  Without a threshold every upload is old enough, and
with one no upload is whose start is not known. -/
def isOldEnough (threshold : Option Instant) (u : StoredUpload) : Bool :=
  match threshold, u.initiated with
  | none, _ => true
  | some _, none => false
  | some t, some started => started ≤ t

def isStale (front : String) (threshold : Option Instant) (u : StoredUpload) : Bool :=
  Text.startsWith u.key front && u.isOldEnough threshold

end StoredUpload

namespace Volume

/-- The test does not fail on what a store tells of an upload. -/
theorem isStale_entry (front : String) (threshold : Option Instant) (u : StoredUpload) :
    isStale front threshold u.entry = .ok (u.isStale front threshold) := by
  have hage : isOldEnough threshold u.entry = .ok (u.isOldEnough threshold) := by
    rcases threshold with _ | t
    · rfl
    · rcases hstart : u.initiated with _ | started <;>
        simp [isOldEnough, StoredUpload.isOldEnough, StoredUpload.entry, hstart]
  rcases hfront : Text.startsWith u.key front with _ | _
  · simp [isStale, StoredUpload.isStale, StoredUpload.entry, hfront]
  · simp only [isStale, StoredUpload.isStale, hfront, Bool.true_and, ← hage]
    exact if_pos hfront

/-- The key goes on behind that of the path without being below it: it is that of a neighbour. -/
def Beside (v : Volume) (path key : String) : Prop :=
  Text.startsWith key (v.key path) = true ∧ isWithin (v.key path) key = false

variable {v : Volume} {path : String}

end Volume

/-! ## 2. What a store tells -/

theorem Store.effect_listUploads_eq_ok {s s' : Store} {value : Value} {bucket : String}
    {keyFront : Option String} {keyMarker idMarker : Option Value}
    (h : s.effect (.listUploads bucket keyFront keyMarker idMarker) = .ok (value, s')) :
    s.uploadPage keyFront keyMarker idMarker = .ok value ∧ s' = s := by
  simp only [effect] at h
  rcases hpage : s.uploadPage keyFront keyMarker idMarker with f | page <;> rw [hpage] at h <;>
    cases h
  exact ⟨rfl, rfl⟩

namespace Exchange

variable {x : Exchange (Disturbed Store)} {xs : List (Exchange (Disturbed Store))}
  {d d' : Disturbed Store}

theorem storeAfter_of_listUploads (hkind : x.request.kind = .listUploads) :
    x.storeAfter = x.store := by
  rcases x.answers.store_cases with hstore | ⟨value, heffect⟩
  · exact hstore
  · cases hr : x.request <;> rw [hr] at hkind heffect <;> cases hkind
    exact (Store.effect_listUploads_eq_ok heffect).2

/-- What a page of a store tells of is in flight. -/
theorem inFlight_of_tells (hplan : x.service.Within Disturbance.Fails)
    (hkind : x.request.kind = .listUploads) {u : InFlight} (h : x.Tells u) :
    ∃ stored ∈ x.store.inFlight, stored.entry = u := by
  obtain ⟨page, hpage, hu⟩ := h
  obtain ⟨value, heffect, hdecode⟩ := effect_of_decoded hplan (by rw [hkind]; decide) hpage
  have hvalue : ∃ uploads, value = x.store.uploadPageOf uploads ∧
      ∀ u ∈ uploads, u ∈ x.store.inFlight := by
    cases hr : x.request <;> rw [hr] at hkind heffect <;> cases hkind
    exact Store.uploadPage_eq_ok (Store.effect_listUploads_eq_ok heffect).1
  obtain ⟨uploads, rfl, hflight⟩ := hvalue
  obtain ⟨_, _, hpage', -⟩ := x.store.decode_uploadPageOf uploads
  rw [hpage'] at hdecode
  cases hdecode
  obtain ⟨stored, hstored, rfl⟩ := List.mem_map.mp hu
  exact ⟨stored, hflight stored (List.mem_of_mem_take hstored), rfl⟩

/-- Pages that come one after the other tell of the same store. -/
theorem Chain.store_of_listings (h : Chain d xs d')
    (hkind : ∀ x ∈ xs, x.request.kind = .listUploads) :
    (∀ x ∈ xs, x.store = d.service) ∧ d'.service = d.service :=
  h.keeps (p := fun m => m.service = d.service) rfl fun x hx hstore =>
    (storeAfter_of_listUploads (hkind x hx)).trans hstore

end Exchange

/-! ## 3. What a cleanup asks -/

namespace Volume

variable {σ : Type} [Service σ] {v : Volume} {path key id : String} {now : Instant}
  {age : Option Age} {dryRun : Bool}

/-- Touched is what a cleanup names in its result, and what it has asked to be dropped. -/
def Touched (result : Except Error (List InFlight)) (xs : List (Exchange σ))
    (key id : String) : Prop :=
  (∃ found, result = .ok found ∧ ∃ u ∈ found, u.key = key ∧ u.uploadId = id) ∨
    ∃ x ∈ xs, ∃ bucket, x.request = .abortUpload bucket key id

theorem staleUploads_told (v : Volume) (now : Instant) (path : String) (age : Option Age)
    (c : Context σ) : ∃ result c' xs, (v.staleUploads now path age).execute c = (result, c') ∧
      c.Asks c' xs ∧ (∀ x ∈ xs, x.request.kind = .listUploads) ∧
      ∀ found, result = .ok found → ∀ u ∈ found, ∃ x ∈ xs, x.Tells u ∧
        ∃ t, threshold now age = .ok t ∧ isStale (v.key path) t u = .ok true := by
  rcases hage : threshold now age with e | t
  · simp only [staleUploads, hage]
    exact ⟨_, _, [], rfl, .refl c, by simp, nofun⟩
  · simp only [staleUploads, hage]
    obtain ⟨result, c', xs, hrun, hasks, hkind, htold⟩ :=
      v.bucket.uploadsWhere_told (v.key path) (isStale (v.key path) t) c
    refine ⟨result, c', xs, hrun, hasks, hkind, ?_⟩
    intro found hfound u hu
    obtain ⟨hstale, x, hx, htells⟩ := htold found hfound u hu
    exact ⟨x, hx, htells, t, rfl, hstale⟩

/-- The requests of a cleanup: pages of the listing, then the uploads that these have told of and
that passed the test.  A dry run does without the latter. -/
theorem abortUploads_asks (v : Volume) (now : Instant) (path : String) (age : Option Age)
    (dryRun : Bool) (c : Context σ) : ∃ result c' found xs ys,
      (v.abortUploads now path age dryRun).execute c = (result, c') ∧ c.Asks c' (xs ++ ys) ∧
      (∀ x ∈ xs, x.request.kind = .listUploads) ∧
      (∀ y ∈ ys, dryRun = false ∧
        ∃ u ∈ found, y.request = .abortUpload v.bucket.name u.key u.uploadId) ∧
      (∀ l, result = .ok l → l = found) ∧
      ∀ u ∈ found, ∃ x ∈ xs, x.Tells u ∧
        ∃ t, threshold now age = .ok t ∧ isStale (v.key path) t u = .ok true := by
  obtain ⟨result, c₁, xs, hrun, hasks, hkind, htold⟩ := v.staleUploads_told now path age c
  simp only [abortUploads, Run.execute_bind, hrun]
  rcases result with e | found
  · exact ⟨_, c₁, [], xs, [], rfl, by rwa [List.append_nil], hkind, by simp, nofun, by simp⟩
  cases dryRun with
  | true =>
    refine ⟨.ok found, c₁, found, xs, [], rfl, by rwa [List.append_nil], hkind, by simp, ?_,
      htold found rfl⟩
    rintro _ ⟨⟩
    rfl
  | false =>
    have hdrop : (found.forM fun u => do
        Client.abortUpload ⟨u.uploadId, v.bucket.name, u.key⟩
        Run.report (.staleAborted u) : Run σ PUnit).Quiet
          fun r => ∃ u ∈ found, r = .abortUpload v.bucket.name u.key u.uploadId := by
      apply Run.Quiet.forM
      intro u hu
      exact ((Client.abortUpload_decodes _).quiet ⟨u, hu, rfl⟩).bind fun _ => Run.quiet_report _
    obtain ⟨ys, hasks', -, -, hdropped⟩ := hdrop c₁
    simp only [Bool.not_false, if_true, Run.execute_bind]
    rcases hforM : (found.forM fun u => do
        Client.abortUpload ⟨u.uploadId, v.bucket.name, u.key⟩
        Run.report (.staleAborted u) : Run σ PUnit).execute c₁ with ⟨e | ⟨⟩, c'⟩ <;>
      rw [hforM] at hasks'
    · exact ⟨_, c', found, xs, ys, rfl, hasks.trans hasks', hkind,
        fun y hy => ⟨trivial, hdropped y hy⟩, nofun, htold found rfl⟩
    · refine ⟨.ok found, c', found, xs, ys, rfl, hasks.trans hasks', hkind,
        fun y hy => ⟨trivial, hdropped y hy⟩, ?_, htold found rfl⟩
      rintro _ ⟨⟩
      rfl

/-- The command does what the volume does, and tells how many uploads there were. -/
theorem cleanUp_execute (v : Volume) (now : Instant) (path : String) (age : Option Age)
    (dryRun : Bool) {c c' : Context σ} {result : Except Error (List InFlight)}
    (hrun : (v.abortUploads now path age dryRun).execute c = (result, c')) :
    ∃ notices, (v.cleanUp now path age dryRun).execute c =
      (result.map List.length, { c' with notices := notices }) := by
  have hreports : ∀ (found : List InFlight) (c' : Context σ),
      (found.forM fun u => Run.report (.cleaned dryRun u) : Run σ PUnit).execute c' =
        (.ok (), { c' with notices := c'.notices ++ found.map (.cleaned dryRun) }) := by
    intro found
    induction found with
    | nil =>
      intro c'
      simp only [List.map_nil, List.append_nil]
      rfl
    | cons u rest ih =>
      intro c'
      change (Run.report (.cleaned dryRun u) >>= fun _ => rest.forM fun u =>
        Run.report (.cleaned dryRun u) : Run σ PUnit).execute c' = _
      simp only [Run.execute_bind, Run.execute_report, ih, List.map_cons, List.append_assoc,
        List.singleton_append]
  simp only [cleanUp, Run.execute_bind, hrun]
  rcases result with e | found
  · exact ⟨c'.notices, rfl⟩
  · simp only [hreports, Run.execute_pure]
    exact ⟨_, rfl⟩

/-! ## 4. What a cleanup touches -/

section

variable {c c' : Context (Disturbed Store)} {result : Except Error (List InFlight)}

/-- Whatever is touched is in flight, and stale. -/
theorem stale_of_touched (hf : c.service.FailsOnly)
    (hrun : (v.abortUploads now path age dryRun).execute c = (result, c'))
    (htouched : Touched result (c.exchanges c') key id) :
    ∃ u ∈ c.store.inFlight, u.key = key ∧ u.id = id ∧
      ∃ t, threshold now age = .ok t ∧ u.isStale (v.key path) t = true := by
  obtain ⟨_, _, found, xs, ys, hrun', hasks, hlist, hdrop, hresult, htold⟩ :=
    v.abortUploads_asks now path age dryRun c
  rw [hrun] at hrun'
  obtain ⟨rfl, rfl⟩ := hrun'
  rw [hasks.exchanges_eq] at htouched
  have hfound : ∃ u ∈ found, u.key = key ∧ u.uploadId = id := by
    rcases htouched with ⟨l, hl, htouched⟩ | ⟨y, hy, bucket, hr⟩
    · rwa [hresult l hl] at htouched
    · rcases List.mem_append.mp hy with hy | hy
      · have hkind := hlist y hy
        rw [hr] at hkind
        cases hkind
      · obtain ⟨-, u, hu, hr'⟩ := hdrop y hy
        rw [hr] at hr'
        cases hr'
        exact ⟨u, hu, rfl, rfl⟩
  obtain ⟨u, hu, rfl, rfl⟩ := hfound
  obtain ⟨x, hx, htells, t, ht, hstale⟩ := htold u hu
  -- the page that has told of it met the store as it was
  obtain ⟨m, hpages, -⟩ := Exchange.chain_append.mp hasks.chain
  obtain ⟨stored, hstored, rfl⟩ :=
    Exchange.inFlight_of_tells ((hpages.within hf).1 x hx) (hlist x hx) htells
  rw [(hpages.store_of_listings hlist).1 x hx] at hstored
  rw [isStale_entry, Except.ok.injEq] at hstale
  exact ⟨stored, hstored, rfl, rfl, t, ht, hstale⟩

/-- What is not touched stays in flight. -/
theorem inFlight_of_not_touched (hids : c.store.IdsInOrder)
    (hrun : (v.abortUploads now path age dryRun).execute c = (result, c')) {u : StoredUpload}
    (hu : u ∈ c.store.inFlight) (hnot : ¬ Touched result (c.exchanges c') u.key u.id) :
    u ∈ c'.store.inFlight := by
  obtain ⟨_, _, found, xs, ys, hrun', hasks, hlist, hdrop, -⟩ :=
    v.abortUploads_asks now path age dryRun c
  rw [hrun] at hrun'
  obtain ⟨rfl, rfl⟩ := hrun'
  rw [hasks.exchanges_eq] at hnot
  refine (hasks.chain.keeps (p := fun m => m.service.IdsInOrder ∧ u ∈ m.service.inFlight)
    ⟨hids, hu⟩ ?_).2.2
  rintro x hx ⟨hids, hu⟩
  rcases List.mem_append.mp hx with hx | hx
  · have hsame : x.next.service = x.service.service :=
      Exchange.storeAfter_of_listUploads (hlist x hx)
    rw [hsame]
    exact ⟨hids, hu⟩
  · obtain ⟨-, w, hw, hr⟩ := hdrop x hx
    rcases x.answers.store_cases with hstore | ⟨value, heffect⟩
    · have hsame : x.next.service = x.service.service := hstore
      rw [hsame]
      exact ⟨hids, hu⟩
    · rw [hr] at heffect
      have hsame : x.next.service = x.service.service.abort w.uploadId :=
        Store.effect_abortUpload_eq_ok heffect
      rw [hsame]
      refine ⟨hids.abort _, ?_⟩
      obtain ⟨hmem, hstatus⟩ := Store.mem_inFlight.mp hu
      refine Store.mem_inFlight.mpr ⟨Store.mem_modifyUpload.mpr ⟨u, hmem, if_neg ?_⟩, hstatus⟩
      intro hid
      -- the upload that is dropped has this identifier, so it is this one
      obtain ⟨dropped, hdropped⟩ := Store.exists_of_effect_abortUpload heffect
      obtain ⟨hmem', hid', hkey, -⟩ := hids.upload?_eq_some_iff.mp hdropped
      have hsame' : u = dropped := hids.unique hmem hmem' (hid.trans hid'.symm)
      refine hnot (.inr ⟨x, List.mem_append_right _ hx, v.bucket.name, ?_⟩)
      rw [hr, hsame', hkey, hid']

/-- Stale uploads are found by a walk over the listing of all uploads in flight. -/
theorem staleUploads_execute (v : Volume) (hcalm : c.service.IsCalmFor .listUploads)
    (hregular : c.store.Regular) (path : String) {t : Option Instant}
    (ht : threshold now age = .ok t) :
    ∃ c', (v.staleUploads now path age).execute c =
        (.ok ((c.store.inFlight.filter fun u => u.isStale (v.key path) t).map StoredUpload.entry), c') ∧
      c'.store = c.store := by
  have htest : ∀ w : InFlight, Text.startsWith w.key (v.key path) = false →
      isStale (v.key path) t w = .ok false := by
    intro w hw
    rw [isStale, hw]
    rfl
  obtain ⟨c', hwhere, hstore⟩ := v.bucket.uploadsWhere_execute hcalm hregular htest
  have hfront : (c.store.inFlight.filter fun u => Text.startsWith u.key (v.key path)).filter
      (fun u => u.isStale (v.key path) t) =
      c.store.inFlight.filter fun u => u.isStale (v.key path) t := by
    rw [List.filter_filter]
    apply List.filter_congr
    intro u _
    simp only [StoredUpload.isStale]
    cases Text.startsWith u.key (v.key path) <;> simp
  rw [Bucket.walked_keepIf (isStale_entry (v.key path) t), List.nil_append, hfront] at hwhere
  simp only [staleUploads, ht]
  exact ⟨c', hwhere, hstore⟩

/-- A dry run of which nothing is disturbed touches everything that is stale. -/
theorem touched_of_stale (hcalm : c.service.IsCalm) (hregular : c.store.Regular)
    {t : Option Instant} (ht : threshold now age = .ok t)
    (hrun : (v.abortUploads now path age true).execute c = (result, c')) {u : StoredUpload}
    (hu : u ∈ c.store.inFlight) (hstale : u.isStale (v.key path) t = true) :
    Touched result (c.exchanges c') u.key u.id := by
  obtain ⟨c₁, hfound, -⟩ := v.staleUploads_execute (hcalm.calmFor _) hregular path ht
  simp only [abortUploads, Run.execute_bind, hfound] at hrun
  cases hrun
  have hlisted := List.mem_filter.mpr ⟨hu, hstale⟩
  exact .inl ⟨_, rfl, u.entry, List.mem_map_of_mem hlisted, rfl, rfl⟩

/-- **A cleanup stays below its path** when no neighbour of the path is stale.  All that it touches
is in flight, stale, and below the path or a neighbour; all else stays in flight.  The condition
cannot be spared: a dry run touches everything that is stale, neighbours included.  The command
does the same as the volume. -/
theorem cleanup_stays_within (hf : c.service.FailsOnly)
    (hrun : (v.abortUploads now path age dryRun).execute c = (result, c')) :
    (∀ key id, Touched result (c.exchanges c') key id → ∃ u ∈ c.store.inFlight,
      u.key = key ∧ u.id = id ∧ (∃ t, threshold now age = .ok t ∧ u.isOldEnough t = true) ∧
        (isWithin (v.key path) key = true ∨ v.Beside path key)) ∧
      ((∀ t, threshold now age = .ok t → ∀ u ∈ c.store.inFlight, u.isOldEnough t = true →
          ¬ v.Beside path u.key) →
        ∀ key id, Touched result (c.exchanges c') key id → isWithin (v.key path) key = true) ∧
      (c.service.IsCalm → c.store.Regular → dryRun = true → ∀ t, threshold now age = .ok t →
        ∀ u ∈ c.store.inFlight, u.isStale (v.key path) t = true →
          Touched result (c.exchanges c') u.key u.id) ∧
      (c.store.IdsInOrder → ∀ u ∈ c.store.inFlight,
        ¬ Touched result (c.exchanges c') u.key u.id → u ∈ c'.store.inFlight) ∧
      ∃ notices, (v.cleanUp now path age dryRun).execute c =
        (result.map List.length, { c' with notices := notices }) := by
  have htouched : ∀ key id, Touched result (c.exchanges c') key id → ∃ u ∈ c.store.inFlight,
      u.key = key ∧ u.id = id ∧ (∃ t, threshold now age = .ok t ∧ u.isOldEnough t = true) ∧
        (isWithin (v.key path) key = true ∨ v.Beside path key) := by
    intro key id h
    obtain ⟨u, hu, rfl, rfl, t, ht, hstale⟩ := stale_of_touched hf hrun h
    obtain ⟨hfront, hold⟩ := Bool.and_eq_true_iff.mp hstale
    refine ⟨u, hu, rfl, rfl, ⟨t, ht, hold⟩, ?_⟩
    rcases hwithin : isWithin (v.key path) u.key with _ | _
    · exact .inr ⟨hfront, hwithin⟩
    · exact .inl rfl
  refine ⟨htouched, ?_, ?_, fun hids u hu => inFlight_of_not_touched hids hrun hu,
    v.cleanUp_execute now path age dryRun hrun⟩
  · intro hnone key id h
    obtain ⟨u, hu, rfl, rfl, ⟨t, ht, hold⟩, hwithin | hbeside⟩ := htouched key id h
    · exact hwithin
    · exact absurd hbeside (hnone t ht u hu hold)
  · rintro hcalm hregular rfl t ht u hu hstale
    exact touched_of_stale hcalm hregular ht hrun hu hstale

end

namespace Sample

/-- A store with open uploads at these keys, behind a plan. -/
def cleaning (keys : List String) (queues : List (RequestKind × List (Option Disturbance))) :
    Context (Disturbed Store) where
  service := ⟨keys.foldl Store.startUpload (Store.empty 0), queues⟩
  pool := context.pool

/-- The second upload is dropped, and its dropping is reported as failed. -/
def lateDropping : List (RequestKind × List (Option Disturbance)) :=
  [(.abortUpload, [none, some ⟨true, .fails (.unreachable "down")⟩])]

/-- Three uploads, of which the two that are not at `fo` are below the path. -/
def threeUploads : Context (Disturbed Store) :=
  cleaning ["root/foo/x", "root/fo", "root/foo"] lateDropping

def neighbours : Context (Disturbed Store) := cleaning ["root/foo/x", "root/foobar"] []

end Sample

theorem cleanup_within_foo :
    Sample.threeUploads.service.FailsOnly ∧
      (∀ u ∈ Sample.threeUploads.store.inFlight, ¬ Sample.volume.Beside "/foo" u.key) ∧
      ∀ key id, Touched
        ((Sample.volume.abortUploads 0 "/foo" none false).execute Sample.threeUploads).1
        (Sample.threeUploads.exchanges
          ((Sample.volume.abortUploads 0 "/foo" none false).execute Sample.threeUploads).2) key id →
        isWithin (Sample.volume.key "/foo") key = true := by
  have hf : Sample.threeUploads.service.FailsOnly := by
    intro q hq x hx
    rw [List.mem_singleton.mp hq] at hx ⊢
    have hx' : x = ⟨true, .fails (.unreachable "down")⟩ := by simpa using hx
    rw [hx']
    exact .error _ _ _
  have hnone : ∀ u ∈ Sample.threeUploads.store.inFlight, ¬ Sample.volume.Beside "/foo" u.key := by
    intro u hu
    have hkeys : ∀ u ∈ Sample.threeUploads.store.uploads,
        ¬ (Text.startsWith u.key (Sample.volume.key "/foo") = true ∧
          isWithin (Sample.volume.key "/foo") u.key = false) := by
      decide +kernel
    exact hkeys u (Store.mem_inFlight.mp hu).1
  have hrun := (Prod.eta
    ((Sample.volume.abortUploads 0 "/foo" none false).execute Sample.threeUploads)).symm
  obtain ⟨-, hstays, -⟩ := cleanup_stays_within hf hrun
  exact ⟨hf, hnone, hstays fun t _ u hu _ => hnone u hu⟩

/-- With nothing disturbed the upload of a neighbour is named in the result, and dropped. -/
theorem cleanup_reaches_neighbour :
    ¬ ∀ key id, Touched
        ((Sample.volume.abortUploads 0 "/foo" none false).execute Sample.neighbours).1
        (Sample.neighbours.exchanges
          ((Sample.volume.abortUploads 0 "/foo" none false).execute Sample.neighbours).2) key id →
        isWithin (Sample.volume.key "/foo") key = true := by
  intro h
  have hresult : ((Sample.volume.abortUploads 0 "/foo" none false).execute Sample.neighbours).1 =
      .ok [⟨"root/foo/x", "u1", .time 0⟩, ⟨"root/foobar", "u2", .time 0⟩] := by cbv
  have hwithin := h "root/foobar" "u2"
    (.inl ⟨_, hresult, _, List.mem_cons_of_mem _ List.mem_cons_self, rfl, rfl⟩)
  revert hwithin
  decide +kernel

end Volume

end ResumableStorage
