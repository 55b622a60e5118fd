/-
  ResumableStorage/Proofs/Volume/Rounds.lean
  ==========================================
  **Writing in rounds** — a path is written in any number of rounds.  At the end of each
  the writer is closed, and the next one finds the upload that it left by a listing and
  goes on with it.

  Any round may leave an upload without parts, or one whose last part is too small to
  append behind, so that the next write replaces the upload under a new identifier.  The
  invariant is that the path has one upload in flight, that its parts have no gaps, and
  that all of them but the last reach the floor.
-/
import ResumableStorage.Proofs.Client.Walks
import ResumableStorage.Proofs.Upload.Layout
import ResumableStorage.Volume.Basic

namespace ResumableStorage

variable {σ α : Type}

/-! ## 1. Rounds -/

/-- Steps of a writer as a run; the writer is given up then. -/
def Writing.toRun (x : Writing σ α) (w : Writer) : Run σ α :=
  ExceptT.mk fun c =>
    let (result, _, c) := x.execute w c
    (result, c)

theorem Run.execute_toRun {x : Writing σ α} {w w' : Writer} {c c' : Context σ}
    {result : Except Error α} (h : x.execute w c = (result, w', c')) :
    (x.toRun w).execute c = (result, c') := by
  change (let (result, _, c) := x.execute w c; (result, c)) = _
  rw [h]

namespace Volume

section

variable [Service σ]

/-- Rounds of writes to a path, the first of them with the writer that is given.  Gives the sizes
that the other writers start with, and the last writer. -/
def rounds (v : Volume) (path : String) : Writer → List (List Bytes) → Run σ (List Int × Writer)
  | w, [] => return ([], w)
  | w, writes :: rest => do
    (Writer.writeAll writes >>= fun _ => Writer.close).toRun w
    let w ← v.writer path true
    let (sizes, last) ← v.rounds path w rest
    return (w.size :: sizes, last)

/-- Writes to a path in rounds and once more, commits the last writer, and reads the path.  Gives
the sizes that the reopened writers start with, and the content. -/
def writeInRounds (v : Volume) (path : String) (writes : List (List Bytes)) (last : List Bytes) :
    Run σ (List Int × Bytes) := do
  let w ← v.writer path false
  let (sizes, w) ← v.rounds path w writes
  (Writer.writeAll last >>= fun _ => Writer.commit).toRun w
  return (sizes, ← v.content path)

end

variable {v : Volume} {path : String} {w : Writer} {c c' : Context (Disturbed Store)}
  {bodies : List Bytes}

/-! ## 2. The invariant -/

/-- Nothing is disturbed, and the store and the pool suit the volume: the store takes parts that
reach the floor and makes pages that are not empty, and buffers hold a chunk. -/
structure Suits (v : Volume) (c : Context (Disturbed Store)) : Prop where
  calm : c.service.IsCalm
  ids : c.store.IdsInOrder
  floor : c.store.minPartSize ≤ v.policy.floor
  uploadPages : 0 < c.store.uploadPageSize
  partPages : 1 ≤ v.bucket.partPageSize
  capacity : c.pool.capacity = v.policy.chunk

theorem Suits.leads (h : v.Suits c) (hleads : c.Leads c') (hids : c'.store.IdsInOrder)
    (hfloor : c'.store.minPartSize = c.store.minPartSize)
    (hpages : c'.store.uploadPageSize = c.store.uploadPageSize) : v.Suits c' :=
  ⟨hleads.calm h.calm, hids, hfloor ▸ h.floor, hpages ▸ h.uploadPages, h.partPages,
    hleads.capacity.trans h.capacity⟩

/-- All parts that have another one behind them reach the floor. -/
def Large (v : Volume) (bodies : List Bytes) : Prop :=
  ∀ size ∈ (Writer.sizesOf bodies).dropLast, v.policy.floor ≤ size

/-- The upload that a closed writer has left at a path, the only one in flight there. -/
structure Left (v : Volume) (path : String) (c : Context (Disturbed Store))
    (bodies : List Bytes) : Prop where
  suits : v.Suits c
  large : v.Large bodies
  upload : ∃ id u, c.store.Alone (v.key path) id ∧ c.store.upload? (v.key path) id = some u ∧
    u.parts = Part.table bodies

/-- A writer that was just opened at a path, on the only upload in flight there. -/
structure OpenedAt (v : Volume) (path : String) (w : Writer) (c : Context (Disturbed Store))
    (bodies : List Bytes) : Prop where
  suits : v.Suits c
  large : v.Large bodies
  opened : w.Opened c (Part.table bodies)
  policy : w.policy = v.policy
  key : w.session.key = v.key path
  alone : c.store.Alone w.session.key w.session.uploadId

/-! ## 3. Opening -/

theorem writer_of_session {append : Bool} {s : Session} {parts : List Part}
    (hcapacity : c'.pool.capacity = v.policy.chunk)
    (hsession : (v.bucket.session (v.key path) append).execute c = (.ok (s, parts), c')) :
    (v.writer path append).execute c = (.ok (Writer.ofSession v.policy s parts), c') := by
  simp only [writer, Run.execute_bind, Run.execute_attempt, hsession, Run.execute_get,
    Writer.make?, hcapacity, if_true, Run.execute_pure]

/-- At a path where no upload is in flight a writer starts one. -/
theorem Suits.open_fresh (h : v.Suits c) (hvacant : c.store.Vacant (v.key path)) :
    ∃ w c', (v.writer path false).execute c = (.ok w, c') ∧ v.OpenedAt path w c' [] := by
  obtain ⟨result, c', hcreate, hleads, hcases⟩ :=
    Client.createUpload_cases h.calm.failsOnly v.bucket.name (v.key path) opaqueContent
  rcases hcases with ⟨rfl, hstore⟩ | ⟨e, -, hnot, -⟩
  swap
  · exact absurd h.calm hnot
  have hids : c'.store.IdsInOrder := hstore ▸ h.ids.startUpload _
  have hsuits : v.Suits c' := h.leads hleads hids (by rw [hstore]; rfl) (by rw [hstore]; rfl)
  have hsession : (v.bucket.session (v.key path) false).execute c =
      (.ok (⟨c.store.nextId, v.bucket.name, v.key path⟩, []), c') := by
    simp only [Bucket.session, Bucket.start, Bool.false_eq_true, if_false, Run.execute_bind, hcreate,
      Run.execute_pure]
  refine ⟨_, c', writer_of_session hsuits.capacity hsession, hsuits, nofun, ?_, rfl, rfl, ?_⟩
  · have hu := h.ids.upload?_startUpload (v.key path)
    rw [← hstore] at hu
    exact ⟨hleads.failsOnly, hids, rfl, ⟨_, hu, rfl⟩⟩
  · rw [hstore]
    exact hvacant.startUpload

theorem Left.reopen (h : v.Left path c bodies) :
    ∃ w c', (v.writer path true).execute c = (.ok w, c') ∧ v.OpenedAt path w c' bodies := by
  obtain ⟨id, u, halone, hu, hparts⟩ := h.upload
  have hpositive : ∀ e ∈ u.parts.entries, 0 < e.1 := by
    intro e he
    rw [hparts] at he
    have hle := (Part.le_of_mem_numberedFrom he).1
    omega
  obtain ⟨c', hresume, hleads, hstore⟩ := v.bucket.resume_eq h.suits.calm h.suits.ids
    h.suits.uploadPages h.suits.partPages halone hu hpositive
  have hsuits : v.Suits c' :=
    h.suits.leads hleads (hstore ▸ h.suits.ids) (by rw [hstore]) (by rw [hstore])
  refine ⟨_, c', writer_of_session hsuits.capacity hresume, hsuits, h.large, ?_, rfl, rfl, ?_⟩
  · exact ⟨hleads.failsOnly, hsuits.ids, by rw [← hparts]; rfl, ⟨u, by rw [hstore]; exact hu, hparts⟩⟩
  · rw [hstore]
    exact halone

/-! ## 4. One round -/

theorem OpenedAt.minPartSize_le (h : v.OpenedAt path w c bodies) :
    ∀ size ∈ (Writer.sizesOf bodies).dropLast, c.store.minPartSize ≤ size := by
  intro size hsize
  exact h.suits.floor.trans (h.large size hsize)

theorem OpenedAt.large_of_writes (h : v.OpenedAt path w c bodies) {bodies' : List Bytes} {n : Nat}
    (hsizes : Writer.sizesOf bodies' = v.policy.layout (Writer.sizesOf bodies) n) :
    v.Large bodies' := by
  intro size hsize
  rw [hsizes] at hsize
  exact v.policy.floor_le_of_mem_layout h.large n size hsize

/-- Writes and a close return and leave an upload with what was written behind what was there. -/
theorem OpenedAt.close (h : v.OpenedAt path w c bodies) (writes : List Bytes) :
    ∃ c', ((Writer.writeAll writes >>= fun _ => Writer.close).toRun w).execute c = (.ok (), c') ∧
      ∃ bodies', v.Left path c' bodies' ∧
        Bytes.concat bodies' = Bytes.concat bodies ++ Bytes.concat writes := by
  obtain ⟨w₁, c₁, hwrites, hfollows, hroom, bodies₁, hholds⟩ :=
    h.opened.writes_return writes h.suits.calm h.minPartSize_le
  have hsizes := h.opened.sizes_of_holds hwrites hholds
  obtain ⟨hphase, -, hfits, -⟩ := h.opened.layout_of_writes hwrites
  obtain ⟨result, w', c', hclose, hleads, hcases⟩ :=
    Writer.close_of_attached hphase hholds.attached hfits
  rcases hcases with ⟨rfl, -, hstore⟩ | ⟨e, -, -, hnot⟩
  swap
  · exact absurd (hfollows.leads.calm h.suits.calm) hnot
  rw [ite_self, List.append_nil] at hstore
  refine ⟨c', Run.execute_toRun (Writing.execute_bind_eq_ok.mpr ⟨(), w₁, c₁, hwrites, hclose⟩),
    bodies₁ ++ w₁.flushed, ⟨?_, ?_, ?_⟩, ?_⟩
  · refine h.suits.leads (hfollows.leads.trans hleads) ?_ ?_ ?_ <;> rw [hstore]
    · exact hholds.attached.ids.setParts _ _
    · exact hfollows.minPartSize
    · exact hfollows.uploadPageSize
  · by_cases hsent : w₁.flushed = [] ∧ w₁.parts = []
    · -- a writer that has sent nothing leaves an upload without parts
      have hnone : bodies₁ = [] := by
        rw [← Part.ofBodies_eq_nil_iff, ← hholds.attached.parts]
        exact hsent.2
      rw [hsent.1, hnone]
      exact nofun
    · rw [Writer.committedBodies_of_ne (by tauto)] at hsizes
      rw [h.policy] at hsizes
      exact h.large_of_writes hsizes
  · obtain ⟨u, hu, -⟩ := hholds.attached.upload
    have hkey : w₁.session.key = v.key path := hfollows.key.trans h.key
    rw [hstore, ← hkey]
    exact ⟨_, _, (hfollows.alone h.alone).setParts _ _, Store.upload?_setParts hu _, rfl⟩
  · rw [Bytes.concat_append, Writer.concat_flushed_of_room hroom, hholds.bytes]

/-- Writes and a commit return and store what was written behind what was there. -/
theorem OpenedAt.commit (h : v.OpenedAt path w c bodies) (writes : List Bytes) :
    ∃ c', ((Writer.writeAll writes >>= fun _ => Writer.commit).toRun w).execute c = (.ok (), c') ∧
      c.Leads c' ∧ ∃ o, c'.store.objects.find? (v.key path) = some o ∧
        o.content = Bytes.concat bodies ++ Bytes.concat writes := by
  have hlayout : ∀ size ∈ (w.policy.layout (Writer.sizesOf bodies) (Bytes.concat writes).size).dropLast,
      c.store.minPartSize ≤ size := by
    intro size hsize
    rw [h.policy] at hsize
    exact h.suits.floor.trans (v.policy.floor_le_of_mem_layout h.large _ size hsize)
  obtain ⟨w', c', hrun, hleads⟩ :=
    h.opened.returns_of_sizes writes h.suits.calm h.minPartSize_le hlayout
  obtain ⟨hkey, _, -, -, o, ho, -, hcontent⟩ := h.opened.stored_of_ok hrun
  rw [hkey, h.key] at ho
  exact ⟨c', Run.execute_toRun hrun, hleads, o, ho, hcontent⟩

theorem content_eq (hcalm : c.service.IsCalm) {o : StoredObject}
    (ho : c.store.objects.find? (v.key path) = some o) :
    ∃ c', (v.content path).execute c = (.ok o.content, c') := by
  obtain ⟨result, c', hget, -, -, hcases⟩ :=
    Client.getObject_cases hcalm.failsOnly v.bucket.name (v.key path)
  rcases hcases with ⟨o', ho', rfl⟩ | ⟨_, _, -, hnot⟩ | ⟨_, -, hnone⟩
  · rw [ho, Option.some.injEq] at ho'
    subst ho'
    simp only [content, Run.notFoundAs, Run.execute_bind, Run.execute_tryCatch, hget,
      Writer.drain_stream]
    exact ⟨_, rfl⟩
  · exact absurd hcalm hnot
  · rw [hnone hcalm] at ho
    cases ho

/-! ## 5. All rounds -/

/-- Rounds return, and each writer that is reopened starts with the size of what was written. -/
theorem OpenedAt.rounds (h : v.OpenedAt path w c bodies) (writes : List (List Bytes)) :
    ∃ w' c', (v.rounds path w writes).execute c =
        (.ok (writes.inits.tail.map fun done =>
          (((Bytes.concat bodies ++ Bytes.concat done.flatten).size : Nat) : Int), w'), c') ∧
      ∃ bodies', v.OpenedAt path w' c' bodies' ∧
        Bytes.concat bodies' = Bytes.concat bodies ++ Bytes.concat writes.flatten := by
  induction writes generalizing w c bodies with
  | nil => exact ⟨w, c, rfl, bodies, h, by simp⟩
  | cons round rest ih =>
    obtain ⟨c₁, hclose, bodies₁, hleft, hbytes₁⟩ := h.close round
    obtain ⟨w₂, c₂, hreopen, hopened⟩ := hleft.reopen
    obtain ⟨w', c', hrest, bodies', hopened', hbytes'⟩ := ih hopened
    have hsize : w₂.size = ((Bytes.concat bodies ++ Bytes.concat round).size : Nat) := by
      rw [hopened.opened.size_eq, Part.values_table, hbytes₁]
    have hfronts : (round :: rest).inits.tail = [round] :: rest.inits.tail.map (round :: ·) := by
      cases rest <;> simp
    refine ⟨w', c', ?_, bodies', hopened', ?_⟩
    · simp only [Volume.rounds, Run.execute_bind, hclose, hreopen, hrest, Run.execute_pure, hsize,
        hbytes₁, hfronts, List.map_cons, List.map_map, Function.comp_def, List.flatten_cons,
        List.flatten_nil, List.append_nil, Bytes.concat_append, ByteArray.append_assoc]
    · rw [hbytes', hbytes₁, List.flatten_cons, Bytes.concat_append, ByteArray.append_assoc]

/-- However a path is written in rounds every step returns, each writer that is reopened starts
with the size of all that was written before it, and the path then holds everything that was
written, in order. -/
theorem Suits.writeInRounds_returns (h : v.Suits c) (hvacant : c.store.Vacant (v.key path))
    (writes : List (List Bytes)) (last : List Bytes) :
    ∃ c', (v.writeInRounds path writes last).execute c =
      (.ok (writes.inits.tail.map fun done => ((Bytes.concat done.flatten).size : Int),
        Bytes.concat writes.flatten ++ Bytes.concat last), c') := by
  obtain ⟨w₁, c₁, hfresh, hopened₁⟩ := h.open_fresh hvacant
  obtain ⟨w₂, c₂, hrounds, bodies, hopened₂, hbytes⟩ := hopened₁.rounds writes
  obtain ⟨c₃, hcommit, hleads, o, ho, hcontent⟩ := hopened₂.commit last
  obtain ⟨c', hread⟩ := content_eq (hleads.calm hopened₂.suits.calm) ho
  rw [Bytes.concat_nil, ByteArray.empty_append] at hbytes
  refine ⟨c', ?_⟩
  simp only [writeInRounds, Run.execute_bind, hfresh, hrounds, hcommit, hread, Run.execute_pure,
    hcontent, hbytes, Bytes.concat_nil, ByteArray.empty_append]

namespace Sample

def volume : Volume where
  bucket := ⟨"bucket", 1⟩
  policy := Writer.Sample.policy
  root := "root/"

/-- A store that lists uploads one by one and parts backwards, with an upload of another path. -/
def context : Context (Disturbed Store) where
  service := Disturbed.calm { (Store.empty 0).startUpload "root/ab" with
    minPartSize := 2
    uploadPageSize := 1
    reverseParts := true }
  pool := ⟨4, Writer.Sample.policy.chunk_pos, none, [], #[]⟩

theorem suits : volume.Suits context where
  calm := Disturbed.calm_isCalm _
  ids := (Store.empty_idsInOrder 0).startUpload "root/ab"
  floor := by decide
  uploadPages := by decide
  partPages := by decide
  capacity := rfl

end Sample

/-- The first round leaves a part that is too small, the second one writes nothing, and the third
one replaces the upload. -/
theorem writeInRounds_returns_three : ∃ c',
    (Sample.volume.writeInRounds "a" [[⟨#[97]⟩], [], [Writer.Sample.data, ⟨#[98]⟩]]
        [Writer.Sample.data]).execute Sample.context =
      (.ok ([1, 1, 10], ⟨#[97, 97, 98, 99, 100, 101, 102, 103, 104, 98, 97, 98, 99, 100, 101, 102,
        103, 104]⟩), c') := by
  have hvacant : Sample.context.store.Vacant (Sample.volume.key "a") := by
    intro u hu _
    rw [List.mem_singleton.mp hu]
    decide
  obtain ⟨c', hrun⟩ := Suits.writeInRounds_returns Sample.suits hvacant
    [[⟨#[97]⟩], [], [Writer.Sample.data, ⟨#[98]⟩]] [Writer.Sample.data]
  exact ⟨c', hrun.trans (by cbv)⟩

end Volume

end ResumableStorage
