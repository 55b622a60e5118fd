/-
  ResumableStorage/Proofs/Upload/Layout.lean
  ==========================================
  **How a stream is cut into parts** — where the parts of a committed upload end depends
  on the number of bytes that were written and on the parts that were there, and not on
  how the bytes came in: all parts but the last are full chunks, and the last one takes
  what is left, up to two chunks less a byte.
-/
import ResumableStorage.Proofs.Upload.Streams

namespace ResumableStorage

/-! ## 1. The layout -/

/-- The sizes of the parts of an upload that was resumed with parts of the sizes `resumed` and
given `n` bytes more.  A last part below the floor is not kept: with all the parts it is sent
again as a part of the stream, or copied into one part when they reach the floor together. -/
def Policy.layout (p : Policy) (resumed : List Nat) (n : Nat) : List Nat :=
  if n = 0 then if resumed = [] then [0] else resumed
  else if resumed.getLast?.any (fun last => decide (last < p.floor)) then
    if resumed.sum < p.floor then p.plan (resumed.sum + n) else resumed.sum :: p.plan n
  else resumed ++ p.plan n

/-- The last part is shorter than two chunks, unless no byte was written. -/
theorem Policy.layout_getLast_lt (p : Policy) {resumed : List Nat} {n : Nat}
    (h : resumed = [] ∨ n ≠ 0) : ∀ last ∈ (p.layout resumed n).getLast?, last < 2 * p.chunk := by
  have hpos := p.chunk_pos
  have happend : n ≠ 0 → ∀ (front : List Nat), ∀ last ∈ (front ++ p.plan n).getLast?,
      last < 2 * p.chunk := by
    intro hn front last hlast
    apply p.plan_getLast_lt n
    rwa [List.getLast?_append_of_ne_nil _ (mt p.plan_eq_nil_iff.mp hn)] at hlast
  unfold layout
  split
  · rename_i hn
    rw [if_pos (h.resolve_right (by simp [hn]))]
    intro last hlast
    simp only [List.getLast?_singleton, Option.mem_def, Option.some.injEq] at hlast
    omega
  · rename_i hn
    split
    · split
      · exact p.plan_getLast_lt _
      · exact happend hn [resumed.sum]
    · exact happend hn resumed

/-- Where all parts but the last reach the floor, so they do when more is written. -/
theorem Policy.floor_le_of_mem_layout (p : Policy) {resumed : List Nat}
    (h : ∀ size ∈ resumed.dropLast, p.floor ≤ size) (n : Nat) :
    ∀ size ∈ (p.layout resumed n).dropLast, p.floor ≤ size := by
  have hplan : ∀ m, ∀ size ∈ (p.plan m).dropLast, p.floor ≤ size := by
    intro m size hsize
    rw [p.eq_of_mem_plan_dropLast hsize]
    exact p.floor_le_chunk
  have happend : n ≠ 0 → ∀ front : List Nat, (∀ size ∈ front, p.floor ≤ size) →
      ∀ size ∈ (front ++ p.plan n).dropLast, p.floor ≤ size := by
    intro hn front hfront size hsize
    rw [List.dropLast_append_of_ne_nil (mt p.plan_eq_nil_iff.mp hn)] at hsize
    rcases List.mem_append.mp hsize with hsize | hsize
    · exact hfront size hsize
    · exact hplan n size hsize
  unfold layout
  split
  · split
    · simp
    · exact h
  · rename_i hn
    split
    · split
      · exact hplan _
      · apply happend hn [resumed.sum]
        intro size hsize
        rw [List.mem_singleton.mp hsize]
        omega
    · rename_i hlast
      apply happend hn
      intro size hsize
      rcases List.eq_nil_or_concat resumed with rfl | ⟨front, last, rfl⟩
      · cases hsize
      · rw [List.concat_eq_append] at h hlast hsize
        rw [List.dropLast_concat] at h
        simp only [List.getLast?_append, List.getLast?_singleton, Option.some_or, Option.any_some,
          decide_eq_true_eq, not_lt] at hlast
        rcases List.mem_append.mp hsize with hsize | hsize
        · exact h size hsize
        · rw [List.mem_singleton.mp hsize]
          exact hlast

namespace Writer

variable {w w' : Writer} {c c' : Context (Disturbed Store)} {bodies : List Bytes}
  {t : Keyed Int Bytes}

/-! ## 2. Sizes -/

def sizesOf (bodies : List Bytes) : List Nat := bodies.map ByteArray.size

theorem map_size_sizesOf (bodies : List Bytes) :
    (bodies.map fun b => (b.size : Int)) = (sizesOf bodies).map Nat.cast := by
  rw [sizesOf, List.map_map]
  rfl

theorem Opened.sizes_eq (h : w.Opened c t) :
    w.parts.map (·.size) = (sizesOf t.values).map Nat.cast := by
  rw [h.parts_eq, Part.map_size_ofTable, map_size_sizesOf]

/-- A resumed writer has to replace its upload exactly when the layout says so. -/
theorem Opened.repair_layout (h : w.Opened c t) : w.repair =
    if (sizesOf t.values).getLast?.any (fun last => decide (last < w.policy.floor))
    then .required false else .notNeeded := by
  rw [h.repair_eq, sizesOf, List.getLast?_map, Option.any_map]

/-- The parts that a writer has when its commit has sent the rest. -/
theorem Filled.layout {resumed : List Nat} {n count : Nat}
    (h : w.Filled (resumed.map Nat.cast) n count) :
    (w.parts.map (·.size) ++ w.committedBodies.map fun b => (b.size : Int)) =
      (if n = 0 then if resumed = [] then [0] else resumed
        else resumed ++ w.policy.plan n).map Nat.cast := by
  rw [h.committed_sizes]
  by_cases hn : n = 0
  · by_cases hresumed : resumed = []
    · simp [hn, hresumed]
    · simp [hn, hresumed, w.policy.plan_eq_nil_iff.mpr]
  · simp [hn]

theorem Repaired.policy_eq {data : Bytes} (h : w.Repaired c t data w' c') :
    w'.policy = w.policy := by
  obtain ⟨w₁, c₁, -, hreplaced, hcontinues⟩ := h.replaced
  obtain ⟨_, rfl⟩ := hreplaced.writer
  obtain ⟨_, _, _, rfl⟩ := hcontinues.advances
  rfl

/-- After the upload was replaced the stream begins with what was there, or a part that holds it
comes first. -/
theorem Repaired.filled_layout {data : Bytes} (h : w.Repaired c t data w' c')
    (hsize : w.size = (Bytes.concat t.values).size) :
    ∃ count, w'.Filled
      ((if (sizesOf t.values).sum < w.policy.floor then [] else [(sizesOf t.values).sum]).map Nat.cast)
      ((if (sizesOf t.values).sum < w.policy.floor then (sizesOf t.values).sum else 0) + data.size)
      count := by
  obtain ⟨count, hfilled⟩ := h.filled
  refine ⟨count, ?_⟩
  have hsum : (sizesOf t.values).sum = (Bytes.concat t.values).size := (Bytes.size_concat _).symm
  rw [map_size_sizesOf, repairBodies, hsize, repairMode] at hfilled
  simp only [Nat.cast_lt] at hfilled
  rw [hsum]
  by_cases hlt : (Bytes.concat t.values).size < w.policy.floor
  · simpa only [if_pos hlt, carried, leftOver, sizesOf, List.map_nil] using hfilled
  · simpa only [if_neg hlt, carried, leftOver, sizesOf, ByteArray.size_empty, List.map_cons,
      List.map_nil] using hfilled

/-- After writes that have returned, the parts that are there and what a commit sends have the sizes
of the layout. -/
theorem Opened.layout_of_writes (h : w.Opened c t) {writes : List Bytes}
    (hwrites : (writeAll writes).execute w c = (.ok (), w', c')) :
    w'.phase = .active ∧ w'.sourceCompleted = false ∧ w'.Fits ∧
      (w'.parts.map (·.size) ++ w'.committedBodies.map fun b => (b.size : Int)) =
        (w.policy.layout (sizesOf t.values) (Bytes.concat writes).size).map Nat.cast := by
  have hrepair := h.repair_layout
  have hfilled := h.filled
  rw [h.sizes_eq] at hfilled
  unfold Policy.layout
  split at hrepair
  · -- the upload has to be replaced before anything is written
    rename_i hsmall
    obtain ⟨_, _, _, hreturns, hcases⟩ := (h.stale hrepair).writeAll_returns h.phase_eq writes
    rw [hwrites] at hreturns
    obtain ⟨rfl, rfl, rfl⟩ := hreturns
    rcases hcases with ⟨-, ⟨hn, rfl, rfl⟩ | ⟨hn, hrepaired⟩⟩ | ⟨e, he, -⟩
    · refine ⟨h.phase_eq, sourceCompleted_iff hrepair, hfilled.fits, ?_⟩
      rw [if_pos hn, hfilled.layout, if_pos rfl]
    · obtain ⟨sent, hflowing⟩ := hrepaired.flowing
      obtain ⟨count, hfilled'⟩ := hrepaired.filled_layout h.size_eq
      refine ⟨hflowing.phase, hflowing.not_sourceCompleted, hfilled'.fits, ?_⟩
      rw [hfilled'.layout, hrepaired.policy_eq, if_neg hn, if_pos hsmall, if_neg (by omega)]
      split
      · rfl
      · rw [Nat.zero_add]
        rfl
    · cases he
  · -- the parts stay
    rename_i hlast
    obtain ⟨hsame, count, hfilled'⟩ :=
      hfilled.writeAll h.phase_eq (by simp [hrepair]) hwrites
    obtain ⟨_, _, _, rfl⟩ := hsame
    rw [Nat.zero_add] at hfilled'
    refine ⟨h.phase_eq, by simp [sourceCompleted, hrepair], hfilled'.fits, ?_⟩
    rw [hfilled'.layout, if_neg hlast]

/-! ## 3. Runs that return -/

theorem Opened.sizes_of_ok (h : w.Opened c t) {writes : List Bytes}
    (hrun : (writeAll writes >>= fun _ => commit).execute w c = (.ok (), w', c')) :
    w'.parts.map (·.size) =
      (w.policy.layout (sizesOf t.values) (Bytes.concat writes).size).map Nat.cast := by
  obtain ⟨⟨⟩, w₁, c₁, hwrites, hcommit⟩ := Writing.execute_bind_eq_ok.mp hrun
  obtain ⟨hphase, hsource, hfits, hsizes⟩ := h.layout_of_writes hwrites
  rw [← hsizes]
  exact commit_eq_ok hphase hsource hfits hcommit

/-- The bodies of a writer, and those that a commit sends behind them, after writes that have
returned. -/
theorem Opened.sizes_of_holds (h : w.Opened c (Part.table bodies)) {writes : List Bytes}
    (hwrites : (writeAll writes).execute w c = (.ok (), w', c')) {content : Bytes}
    {bodies' : List Bytes} (hholds : w'.Holds c' content bodies' []) :
    sizesOf (bodies' ++ w'.committedBodies) =
      w.policy.layout (sizesOf bodies) (Bytes.concat writes).size := by
  obtain ⟨-, -, -, hsizes⟩ := h.layout_of_writes hwrites
  rw [hholds.attached.parts, ← Part.ofTable_table, Part.map_size_ofTable, Part.values_table,
    Part.values_table, ← List.map_append, map_size_sizesOf] at hsizes
  exact List.map_injective_iff.mpr Nat.cast_injective hsizes

/-- Where the parts that were there have no gaps, the store has joined parts of the sizes of the
layout, to an object of the bytes that were there and those that were written. -/
theorem Opened.stored_of_ok (h : w.Opened c (Part.table bodies)) {writes : List Bytes}
    (hrun : (writeAll writes >>= fun _ => commit).execute w c = (.ok (), w', c')) :
    w'.session.key = w.session.key ∧ ∃ bodies',
      sizesOf bodies' = w.policy.layout (sizesOf bodies) (Bytes.concat writes).size ∧
      c'.store.Records w'.session.uploadId w'.session.key (Part.table bodies') ∧
      ∃ o, c'.store.objects.find? w'.session.key = some o ∧ o.content = Bytes.concat bodies' ∧
        o.content = Bytes.concat bodies ++ Bytes.concat writes := by
  obtain ⟨⟨⟩, w₁, c₁, hwrites, hcommit⟩ := Writing.execute_bind_eq_ok.mp hrun
  obtain ⟨hphase, hsource, hfits, -⟩ := h.layout_of_writes hwrites
  obtain ⟨_, _, _, hreturns, hcases⟩ := h.writeAll_returns writes
  rw [hwrites] at hreturns
  obtain ⟨rfl, rfl, rfl⟩ := hreturns
  rcases hcases with ⟨-, hfollows, hroom, bodies₁, hholds⟩ | ⟨e, he, -⟩
  swap
  · cases he
  obtain ⟨_, _, _, hreturns, -, hcases⟩ := commit_of_attached hphase hsource hholds.attached hfits
  rw [hcommit] at hreturns
  obtain ⟨rfl, rfl, rfl⟩ := hreturns
  rcases hcases with ⟨e, _, he, -⟩ | ⟨rfl, ⟨-, hstore⟩ | ⟨e, he, -⟩⟩
  · cases he
  · rw [ite_self, List.append_nil] at hstore
    have hobject := Store.complete_find? (w₁.storeHolding c₁ (bodies₁ ++ w₁.committedBodies))
      w₁.session.uploadId w₁.session.key (Bytes.concat (bodies₁ ++ w₁.committedBodies))
    rw [← hstore] at hobject
    refine ⟨hfollows.key, _, h.sizes_of_holds hwrites hholds, ?_, _, hobject, rfl, ?_⟩
    · rw [hstore]
      obtain ⟨u, hu, -⟩ := hholds.attached.upload
      obtain ⟨hmem, hid, hkey, -⟩ := (hholds.attached.ids.setParts _ _).upload?_eq_some_iff.mp
        (Store.upload?_setParts hu (Part.table (bodies₁ ++ w₁.committedBodies)))
      exact Store.Records.complete ⟨_, hmem, hid, hkey, rfl⟩ _ _ _
    · rw [Bytes.concat_append, concat_committedBodies, concat_flushed_of_room hroom, hholds.bytes]
  · cases he

/-- With nothing disturbed writes return, when the parts that were there can be joined. -/
theorem Opened.writes_return (h : w.Opened c (Part.table bodies)) (writes : List Bytes)
    (hcalm : c.service.IsCalm) (hresumed : ∀ n ∈ (sizesOf bodies).dropLast, c.store.minPartSize ≤ n) :
    ∃ w' c', (writeAll writes).execute w c = (.ok (), w', c') ∧ w.Follows c w' c' ∧ ¬ w'.IsStuck ∧
      ∃ bodies', w'.Holds c' (Bytes.concat bodies ++ Bytes.concat writes) bodies' [] := by
  obtain ⟨result, w', c', hwrites, hcases⟩ := h.writeAll_returns writes
  rcases hcases with ⟨rfl, hholds⟩ | ⟨e, -, hwhy⟩
  · exact ⟨w', c', hwrites, hholds⟩
  · apply absurd _ (hwhy hcalm)
    intro b hb
    apply hresumed
    rw [sizesOf, ← List.map_dropLast]
    exact List.mem_map_of_mem hb

/-- So does a commit behind them, when no part that is joined before another one is below the
store's least size. -/
theorem Opened.returns_of_sizes (h : w.Opened c (Part.table bodies)) (writes : List Bytes)
    (hcalm : c.service.IsCalm)
    (hresumed : ∀ n ∈ (sizesOf bodies).dropLast, c.store.minPartSize ≤ n)
    (hlayout : ∀ n ∈ (w.policy.layout (sizesOf bodies) (Bytes.concat writes).size).dropLast,
      c.store.minPartSize ≤ n) :
    ∃ w' c', (writeAll writes >>= fun _ => commit).execute w c = (.ok (), w', c') ∧
      c.Leads c' := by
  obtain ⟨w₁, c₁, hwrites, hfollows, -, bodies', hholds⟩ := h.writes_return writes hcalm hresumed
  obtain ⟨hphase, hsource, hfits, -⟩ := h.layout_of_writes hwrites
  rw [← h.sizes_of_holds hwrites hholds, sizesOf, ← List.map_dropLast] at hlayout
  have hsize : ∀ b ∈ (bodies' ++ w₁.committedBodies).dropLast, c₁.store.minPartSize ≤ b.size := by
    intro b hb
    rw [hfollows.minPartSize]
    exact hlayout _ (List.mem_map_of_mem hb)
  obtain ⟨w', c', hcommit, hleads⟩ :=
    commit_returns hphase hsource hholds.attached hfits (hfollows.leads.calm hcalm) hsize
  exact ⟨w', c', Writing.execute_bind_eq_ok.mpr ⟨(), w₁, c₁, hwrites, hcommit⟩,
    hfollows.leads.trans hleads⟩

/-- However bytes are split into writes, a commit that returns has made parts of the sizes of the
layout, which depends on their number alone; the last part is shorter than two chunks unless it was
there before.  Where the parts that were there have no gaps, the parts are those that the store has
joined, and with nothing disturbed the run returns unless one of them is refused as too small. -/
theorem Opened.commit_layout (h : w.Opened c t) (writes : List Bytes) :
    ∃ result w' c', (writeAll writes >>= fun _ => commit).execute w c = (result, w', c') ∧
      (result = .ok () → w'.parts.map (·.size) =
        (w.policy.layout (sizesOf t.values) (Bytes.concat writes).size).map Nat.cast) ∧
      (t.values = [] ∨ (Bytes.concat writes).size ≠ 0 →
        ∀ last ∈ (w.policy.layout (sizesOf t.values) (Bytes.concat writes).size).getLast?,
          last < 2 * w.policy.chunk) ∧
      ∀ bodies, t = Part.table bodies →
        (result = .ok () → ∃ bodies',
          sizesOf bodies' = w.policy.layout (sizesOf bodies) (Bytes.concat writes).size ∧
          c'.store.Records w'.session.uploadId w'.session.key (Part.table bodies') ∧
          ∃ o, c'.store.objects.find? w'.session.key = some o ∧
            o.content = Bytes.concat bodies' ∧
            o.content = Bytes.concat bodies ++ Bytes.concat writes) ∧
        (c.service.IsCalm →
          (∀ n ∈ (sizesOf bodies).dropLast ++
            (w.policy.layout (sizesOf bodies) (Bytes.concat writes).size).dropLast,
              c.store.minPartSize ≤ n) → result = .ok ()) := by
  rcases hrun : (writeAll writes >>= fun _ => commit).execute w c with ⟨result, w', c'⟩
  refine ⟨result, w', c', rfl, ?_, ?_, ?_⟩
  · rintro rfl
    exact h.sizes_of_ok hrun
  · intro hnew
    apply w.policy.layout_getLast_lt
    exact hnew.imp_left fun hnil => by rw [hnil]; rfl
  · rintro bodies rfl
    constructor
    · rintro rfl
      exact (h.stored_of_ok hrun).2
    · intro hcalm hall
      obtain ⟨w₁, c₁, hreturns, -⟩ := h.returns_of_sizes writes hcalm
        (fun n hn => hall n (List.mem_append_left _ hn))
        (fun n hn => hall n (List.mem_append_right _ hn))
      rw [hrun] at hreturns
      exact congrArg Prod.fst hreturns

theorem commit_layout_of_two_writes : ∃ w' c',
    (writeAll [Sample.data, ByteArray.empty, Sample.data] >>= fun _ => commit).execute
      Sample.writer (Sample.context []) = (.ok (), w', c') ∧
    w'.parts.map (·.size) = [4, 4, 4, 4] := by
  have hcalm : (Sample.context []).service.IsCalm := by
    intro q hq
    cases hq
  obtain ⟨result, w', c', hrun, hsizes, -, hstored⟩ := Opened.commit_layout
    (Sample.opened hcalm.failsOnly) [Sample.data, ByteArray.empty, Sample.data]
  obtain ⟨-, hreturns⟩ := hstored [] rfl
  have hresult := hreturns hcalm (by decide)
  rw [hresult] at hrun
  exact ⟨w', c', hrun, (hsizes hresult).trans (by decide)⟩

end Writer

end ResumableStorage
