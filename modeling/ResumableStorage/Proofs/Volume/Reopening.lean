/-
  ResumableStorage/Proofs/Volume/Reopening.lean
  =============================================
  **Going on with an upload** — a writer that is to append takes up the open upload of its
  key.  The listing in which the upload is looked up may tell of longer keys, of other
  keys, and of several uploads of the key; it comes in pages, and so do the parts, in one
  order or the other.  None of this matters: the upload is the first one of exactly this
  key, the parts are all that are stored, in the order of their numbers, and no page of
  parts is asked for that is not needed.
-/
import ResumableStorage.Proofs.Client.Listings
import ResumableStorage.Proofs.Client.Lookups
import ResumableStorage.Proofs.Volume.Rounds

namespace ResumableStorage

variable {c c' : Context (Disturbed Store)}

/-! ## 1. The first upload of a key -/

namespace Store

variable {s : Store} {key : String} {u : StoredUpload}

theorem mem_openAt : u ∈ s.openAt key ↔ u ∈ s.inFlight ∧ u.key = key := by
  simp [openAt]

/-- Of the uploads of a key the one that is listed first has the least identifier. -/
theorem IdsInOrder.id_le_of_head? (h : s.IdsInOrder) (hu : (s.openAt key).head? = some u)
    {other : StoredUpload} (hother : other ∈ s.openAt key) : u.id ≤ other.id := by
  have hkey : ∀ w ∈ s.openAt key, w.key = key := fun w hw => (mem_openAt.mp hw).2
  have hascending : (s.openAt key).Pairwise StoredUpload.Precedes :=
    h.inFlight_ascending.filter _
  generalize s.openAt key = l at hu hother hkey hascending
  cases l with
  | nil => cases hu
  | cons w rest =>
    cases hu
    rcases List.mem_cons.mp hother with rfl | hrest
    · exact le_rfl
    · rcases (List.pairwise_cons.mp hascending).1 other hrest with hlt | ⟨-, hlt⟩
      · rw [hkey u List.mem_cons_self, hkey other hother] at hlt
        exact absurd hlt (lt_irrefl key)
      · exact hlt.le

end Store

/-! ## 2. Sessions -/

namespace Bucket

/-- What taking up the upload of a key can come to where nothing is disturbed, with the requests
that it makes. -/
inductive Resumed (b : Bucket) (key : String) (s : Store) :
    Except Error (Session × List Part) → List (Exchange (Disturbed Store)) → Prop
  | absent {xs : List (Exchange (Disturbed Store))} (hnone : s.openAt key = [])
      (hlist : ∀ x ∈ xs, x.request.kind = .listUploads) :
      Resumed b key s (.error (.pathNotFound key)) xs
  | found {u : StoredUpload} {xs ys : List (Exchange (Disturbed Store))}
      (hu : (s.openAt key).head? = some u) (hlist : ∀ x ∈ xs, x.request.kind = .listUploads)
      (hparts : ∀ y ∈ ys, y.request.kind = .listParts)
      (hcount : ys.length = pageCount u.parts.entries.length b.partPageSize.toNat) :
      Resumed b key s (.ok (⟨u.id, b.name, key⟩, Part.ofTable u.parts)) (xs ++ ys)

/-- Behind pages of uploads, the pages of parts are those that follow. -/
theorem filter_listParts {xs ys : List (Exchange (Disturbed Store))}
    (hlist : ∀ x ∈ xs, x.request.kind = .listUploads)
    (hparts : ∀ y ∈ ys, y.request.kind = .listParts) :
    ((xs ++ ys).filter fun x => x.request.kind = .listParts) = ys := by
  have hnone : xs.filter (fun x => decide (x.request.kind = .listParts)) = [] := by
    rw [List.filter_eq_nil_iff]
    intro x hx
    rw [hlist x hx]
    decide
  have hall : ys.filter (fun y => decide (y.request.kind = .listParts)) = ys :=
    List.filter_eq_self.mpr fun y hy => decide_eq_true (hparts y hy)
  rw [List.filter_append, hnone, hall, List.nil_append]

theorem resume_resumed (b : Bucket) (hcalm : c.service.IsCalm) (hregular : c.store.Regular)
    (hsize : 1 ≤ b.partPageSize) (hnumbers : ∀ u ∈ c.store.uploads, ∀ e ∈ u.parts.entries, 1 ≤ e.1)
    (key : String) : ∃ result c' xs, (b.resume key).execute c = (result, c') ∧ c.Leads c' ∧
      c'.store = c.store ∧ c.Asks c' xs ∧ b.Resumed key c.store result xs := by
  obtain ⟨c₁, hfind, hleads₁, hstore₁⟩ := b.findUpload_execute hcalm hregular key
  have hquiet : (b.findUpload key : Run (Disturbed Store) _).Quiet (·.kind = .listUploads) :=
    b.walkUploads_quiet key none
  obtain ⟨xs, hasks, -, -, hlist⟩ := hquiet c
  rw [hfind] at hasks
  rcases hhead : (c.store.openAt key).head? with _ | u <;> rw [hhead] at hfind
  · simp only [resume, Run.notFoundAs, Run.execute_bind, Run.execute_tryCatch, hfind, Option.map_none,
      Run.execute_throw]
    exact ⟨_, c₁, xs, rfl, hleads₁, hstore₁, hasks, .absent (List.head?_eq_none_iff.mp hhead) hlist⟩
  · obtain ⟨hflight, hkey⟩ := Store.mem_openAt.mp (List.mem_of_head? hhead)
    obtain ⟨hmem, hstatus⟩ := Store.mem_inFlight.mp hflight
    have hu : c₁.store.upload? (⟨u.id, b.name, key⟩ : Session).key
        (⟨u.id, b.name, key⟩ : Session).uploadId = some u := by
      rw [hstore₁]
      exact hregular.ids.upload?_eq_some_iff.mpr ⟨hmem, rfl, hkey, hstatus⟩
    obtain ⟨c₂, ys, hparts, hleads₂, hstore₂, hasks', hcount⟩ :=
      b.parts_eq hsize (hleads₁.calm hcalm) hu (hnumbers u hmem)
    obtain ⟨zs, hasks₂, -, -, hkinds⟩ := b.parts_quiet ⟨u.id, b.name, key⟩ c₁
    rw [hparts] at hasks₂
    rw [← hasks₂.exchanges_eq, hasks'.exchanges_eq] at hkinds
    have hleads := hleads₁.trans hleads₂
    have hrun : (b.resume key).execute c = (.ok (⟨u.id, b.name, key⟩, Part.ofTable u.parts),
        { c₂ with notices := c₂.notices ++ [.resumed key u.id (Part.ofTable u.parts).length] }) := by
      simp only [resume, Run.notFoundAs, Run.execute_bind, Run.execute_tryCatch, hfind,
        Option.map_some, StoredUpload.entry, hparts, Run.execute_pure, Run.execute_report]
    exact ⟨_, _, _, hrun, ⟨hleads.failsOnly, hleads.calm, hleads.capacity⟩, hstore₂.trans hstore₁,
      (hasks.trans hasks').then_nothing rfl rfl, .found hhead hlist hkinds hcount⟩

end Bucket

/-! ## 3. Writers -/

namespace Volume

variable {v : Volume} {path : String} {result : Except Error Writer}

/-- **Appending takes up the right upload, with all its parts.**  Where nothing is disturbed, a
writer that is to append is refused for want of an upload exactly when none is open at its key;
else it has the open upload of the key with the least identifier, and every stored part of it once,
in ascending order.  The pages of parts that were asked for are those that the parts fill, one at
least.  The store stays as it is. -/
theorem append_resolves (hcalm : c.service.IsCalm) (hregular : c.store.Regular)
    (hsize : 1 ≤ v.bucket.partPageSize)
    (hnumbers : ∀ u ∈ c.store.uploads, ∀ e ∈ u.parts.entries, 1 ≤ e.1)
    (hrun : (v.writer path true).execute c = (result, c')) :
    c'.store = c.store ∧
      (result = .error (.pathNotFound path) ↔ ∀ u ∈ c.store.inFlight, u.key ≠ v.key path) ∧
      ((∃ u ∈ c.store.inFlight, u.key = v.key path) → ∃ u ∈ c.store.inFlight, u.key = v.key path ∧
        (∀ other ∈ c.store.inFlight, other.key = v.key path → u.id ≤ other.id) ∧
        ((c.exchanges c').filter fun x => x.request.kind = .listParts).length =
          max 1 ((u.parts.entries.length + v.bucket.partPageSize.toNat - 1) /
            v.bucket.partPageSize.toNat) ∧
        (c.pool.capacity = v.policy.chunk → ∃ w, result = .ok w ∧
          w.session = ⟨u.id, v.bucket.name, v.key path⟩ ∧
          w.parts = u.parts.entries.map (fun e => ⟨e.1, Store.tag e.2, e.2.size⟩) ∧
          w.parts.Pairwise fun p q => p.number < q.number)) := by
  obtain ⟨found, _, exchanges, hresume, hleads, hstore, hasks, hresumed⟩ :=
    v.bucket.resume_resumed hcalm hregular hsize hnumbers (v.key path)
  have hwriter := v.writer_execute path true hresume
  rw [hrun, Prod.mk.injEq] at hwriter
  obtain ⟨hresult, rfl⟩ := hwriter
  have hopen : ∀ u ∈ c.store.inFlight, u.key = v.key path → u ∈ c.store.openAt (v.key path) :=
    fun u hu hkey => Store.mem_openAt.mpr ⟨hu, hkey⟩
  refine ⟨hstore, ?_⟩
  rw [hasks.exchanges_eq]
  cases hresumed with
  | absent hnone hlist =>
    have hno : ∀ u ∈ c.store.inFlight, u.key ≠ v.key path := by
      intro u hu hkey
      have hmem := hopen u hu hkey
      rw [hnone] at hmem
      cases hmem
    refine ⟨⟨fun _ => hno, fun _ => hresult⟩, ?_⟩
    rintro ⟨u, hu, hkey⟩
    exact absurd hkey (hno u hu)
  | @found u xs ys hu hlist hparts hcount =>
    obtain ⟨hflight, hkey⟩ := Store.mem_openAt.mp (List.mem_of_head? hu)
    refine ⟨⟨?_, fun hno => absurd hkey (hno u hflight)⟩, ?_⟩
    · intro hmissing
      rw [hmissing] at hresult
      simp only [Writer.make?] at hresult
      split at hresult <;> cases hresult
    · intro _
      refine ⟨u, hflight, hkey, ?_, ?_, ?_⟩
      · exact fun other hother hsame => hregular.ids.id_le_of_head? hu (hopen other hother hsame)
      · rw [Bucket.filter_listParts hlist hparts, hcount]
        rfl
      · intro hcapacity
        have hmade := hleads.capacity.trans hcapacity
        simp only [Writer.make?, hmade, if_true] at hresult
        refine ⟨_, hresult, rfl, rfl, ?_⟩
        exact List.pairwise_map.mpr u.parts.ascending

namespace Sample

/-- Ten uploads, of which the second and the last are of the path; as a text the identifier of the
last is the least. -/
def tenUploads : Store :=
  ["root/ab", "root/a", "root/Z", "root/a/", "root/b", "a", "root/A", "root/c", "root/aa",
    "root/a"].foldl Store.startUpload (Store.empty 0)

/-- The last of them has three parts; uploads are listed one by one, and parts backwards. -/
def resuming : Context (Disturbed Store) where
  service := Disturbed.calm
    { (((tenUploads.insertPart "u10" 3 ⟨#[99]⟩).insertPart "u10" 1 ⟨#[97, 98]⟩).insertPart "u10" 7
        ⟨#[]⟩) with
      uploadPageSize := 1
      reverseParts := true }
  pool := context.pool

theorem resuming_regular : resuming.store.Regular := by
  have hstart : ∀ (keys : List String) (s : Store), s.IdsInOrder →
      (keys.foldl Store.startUpload s).IdsInOrder := by
    intro keys
    induction keys with
    | nil => exact fun s h => h
    | cons key rest ih => exact fun s h => ih _ (h.startUpload key)
  have hten : tenUploads.IdsInOrder := hstart _ _ (Store.empty_idsInOrder 0)
  refine ⟨((hten.insertPart _ _ _).insertPart _ _ _).insertPart _ _ _, ?_, by decide⟩
  decide +kernel

end Sample

/-- The last of ten uploads is taken up, with its parts in order, by three pages. -/
theorem append_takes_tenth : ∃ w c',
    (Sample.volume.writer "/a" true).execute Sample.resuming = (.ok w, c') ∧
      w.session.uploadId = "u10" ∧ w.parts.map (·.number) = [1, 3, 7] ∧
      ((Sample.resuming.exchanges c').filter fun x => x.request.kind = .listParts).length = 3 := by
  have hnumbers : ∀ u ∈ Sample.resuming.store.uploads, ∀ e ∈ u.parts.entries, 1 ≤ e.1 := by
    decide +kernel
  have hkey : Sample.volume.key "/a" = "root/a" := by decide +kernel
  rcases hrun : (Sample.volume.writer "/a" true).execute Sample.resuming with ⟨result, c'⟩
  obtain ⟨-, -, hfound⟩ := append_resolves (Disturbed.calm_isCalm _) Sample.resuming_regular
    (by decide) hnumbers hrun
  have htenth : ∃ u ∈ Sample.resuming.store.uploads, u.status = .inFlight ∧ u.key = "root/a" ∧
      u.id = "u10" := by
    decide +kernel
  obtain ⟨tenth, hmem, hstatus, htenthKey, hid⟩ := htenth
  have hflight := Store.mem_inFlight.mpr ⟨hmem, hstatus⟩
  rw [hkey] at hfound
  obtain ⟨u, hu, hukey, hleast, hcount, hopened⟩ := hfound ⟨tenth, hflight, htenthKey⟩
  obtain ⟨w, hw, hsession, hparts, -⟩ := hopened rfl
  -- no other upload has an identifier that is not greater
  have honly : ∀ u ∈ Sample.resuming.store.uploads, u.key = "root/a" → u.id ≤ "u10" →
      u.id = "u10" ∧ u.parts.entries.map Prod.fst = [1, 3, 7] := by
    decide +kernel
  obtain ⟨hten, hentries⟩ := honly u (Store.mem_inFlight.mp hu).1 hukey
    (hid ▸ hleast tenth hflight htenthKey)
  have hlength : u.parts.entries.length = 3 := by
    simpa using congrArg List.length hentries
  refine ⟨w, c', by rw [hw], by rw [hsession]; exact hten, ?_, ?_⟩
  · rw [hparts, List.map_map]
    exact hentries
  · rw [hcount, hlength]
    rfl

end Volume

end ResumableStorage
