/-
  ResumableStorage/Proofs/Upload/Streams.lean
  ===========================================
  **Streams that do not fail** — writes one after the other, up to the first that fails.
  Nothing is left over between them: the upload holds the bodies that the writer counts,
  and the slots have room.

  Every statement has two halves: what holds when the writes return, under any plan of
  failures, and that they do return when nothing is disturbed.
-/
import ResumableStorage.Proofs.Upload.Finish
import ResumableStorage.Proofs.Upload.Sizes

namespace ResumableStorage

namespace Writer

variable {w w' w₁ : Writer} {c c' c₁ : Context (Disturbed Store)} {bodies sent spare : List Bytes}
  {t : Keyed Int Bytes} {completed : Bool} {content : Bytes}

/-! ## 1. An upload in flight -/

/-- What stays the same from one operation of a writer to the next: its session, its policy, and
the store but for the bodies of its upload. -/
structure Continues (w : Writer) (c : Context (Disturbed Store)) (w' : Writer)
    (c' : Context (Disturbed Store)) : Prop where
  leads : c.Leads c'
  advances : w.Advances w'
  store : ∃ bodies, c'.store = w.storeHolding c bodies

theorem Attached.continues_refl (h : w.Attached c bodies spare) : w.Continues c w c :=
  ⟨.refl h.failsOnly, .refl w, _, h.storeHolding_self.symm⟩

theorem Continues.session_eq (h : w.Continues c w' c') : w'.session = w.session :=
  h.advances.session_eq

theorem Continues.trans (h : w.Continues c w₁ c₁) (h' : w₁.Continues c₁ w' c') :
    w.Continues c w' c' := by
  obtain ⟨bodies₁, hstore₁⟩ := h.store
  obtain ⟨bodies', hstore'⟩ := h'.store
  exact ⟨h.leads.trans h'.leads, h.advances.trans h'.advances, bodies',
    by rw [hstore', storeHolding_storeHolding h.session_eq hstore₁]⟩

theorem Took.continues {data : Bytes} {taken : Nat} {spare' : List Bytes}
    (htook : Took w c bodies [] data (.ok data.size) w' c' sent taken spare')
    (h : w.Holds c content bodies []) (hphase : w.phase = .active)
    (hrepair : ∀ b, w.repair ≠ .required b) :
    w.Continues c w' c' ∧ w'.Flowing c' (content ++ data) false (bodies ++ sent) [] := by
  have hflowing := htook.flowing h hphase hrepair (.inl rfl)
  obtain ⟨slots, hw'⟩ := htook.writer
  rcases htook.outcome with ⟨-, rfl, -, hspare⟩ | ⟨e, he, -⟩
  · rw [ite_self] at hspare
    rw [ByteArray.extract_zero_size, hspare] at hflowing
    exact ⟨⟨htook.leads, ⟨_, _, _, hw'⟩, _, htook.store⟩, hflowing⟩
  · cases he

theorem Flowing.write_returns (h : w.Flowing c content false bodies []) (data : Bytes) :
    ∃ result w' c', (Writer.write data).execute w c = (result, w', c') ∧
      (result = .ok data.size ∧ w.Continues c w' c' ∧
          (∃ sent, w'.Flowing c' (content ++ data) false (bodies ++ sent) []) ∨
        ∃ e, result = .error e ∧ ¬ c.service.IsCalm) := by
  by_cases hempty : data.size = 0
  · have hdata : data = ByteArray.empty := ByteArray.size_eq_zero_iff.mp hempty
    refine ⟨_, _, _, write_of_empty h.phase hempty, .inl ⟨by rw [hempty],
      h.holds.attached.continues_refl, [], ?_⟩⟩
    rwa [hdata, ByteArray.append_empty, List.append_nil]
  · obtain ⟨result, w', c', sent, taken, spare', hrun, htook⟩ :=
      write_of_attached h.phase h.repair h.holds.attached h.holds.fits hempty
    refine ⟨result, w', c', hrun, ?_⟩
    rcases htook.outcome with ⟨rfl, -⟩ | ⟨e, rfl, hcalm, -⟩
    · obtain ⟨hcontinues, hflowing⟩ := htook.continues h.holds h.phase h.repair
      exact .inl ⟨rfl, hcontinues, sent, hflowing⟩
    · exact .inr ⟨e, rfl, hcalm⟩

theorem Flowing.writeAll_returns (h : w.Flowing c content false bodies []) (writes : List Bytes) :
    ∃ result w' c', (Writer.writeAll writes).execute w c = (result, w', c') ∧
      (result = .ok () ∧ w.Continues c w' c' ∧
          (∃ sent, w'.Flowing c' (content ++ Bytes.concat writes) false (bodies ++ sent) []) ∨
        ∃ e, result = .error e ∧ ¬ c.service.IsCalm) := by
  induction writes generalizing w c content bodies with
  | nil =>
    refine ⟨_, _, _, rfl, .inl ⟨rfl, h.holds.attached.continues_refl, [], ?_⟩⟩
    simpa using h
  | cons data rest ih =>
    obtain ⟨result, w₁, c₁, hrun, hcases⟩ := h.write_returns data
    simp only [Writer.writeAll, Writing.execute_bind, Writing.execute_discard, hrun]
    rcases hcases with ⟨rfl, hcontinues, sent, hflowing⟩ | ⟨e, rfl, hcalm⟩
    swap
    · exact ⟨_, _, _, rfl, .inr ⟨e, rfl, hcalm⟩⟩
    obtain ⟨result, w', c', hrest, hcases⟩ := ih hflowing
    refine ⟨result, w', c', hrest, ?_⟩
    rcases hcases with ⟨rfl, hcontinues', sent', hflowing'⟩ | ⟨e, rfl, hcalm⟩
    · refine .inl ⟨rfl, hcontinues.trans hcontinues', sent ++ sent', ?_⟩
      rwa [Bytes.concat_cons, ← ByteArray.append_assoc, ← List.append_assoc]
    · exact .inr ⟨e, rfl, fun hc => hcalm (hcontinues.leads.calm hc)⟩

/-! ## 2. An upload to be replaced -/

/-- A writer that was just opened has counted nothing but the parts that were there. -/
theorem Opened.filled (h : w.Opened c t) : w.Filled (w.parts.map (·.size)) 0 0 := by
  have hpos := w.policy.chunk_pos
  have hslots := h.slots_eq
  refine ⟨.of_empty ?_ ?_, ?_, by simp, by simp [staged_of_none hslots], by simp⟩
  · simp [ready, hslots]
  · simp [pending, hslots]
  · simp only [IsStuck, pending, hslots, ByteArray.size_empty]
    omega

theorem Replaced.filled (hreplaced : w.Replaced c t.values w₁ c₁) (h : w.Stale c t completed) :
    w₁.Filled ((w.repairBodies t.values).map fun b => (b.size : Int))
      (leftOver (repairMode w.policy w.size) (Bytes.concat t.values)).size 0 := by
  have hpos := w₁.policy.chunk_pos
  refine ⟨(hreplaced.holds h).fits, ?_, ?_, ?_, by simp⟩
  · simp only [IsStuck, hreplaced.pending, ByteArray.size_empty]
    omega
  · rw [hreplaced.attached.parts, ← Part.ofTable_table, Part.map_size_ofTable, Part.values_table]
    simp
  · simp [staged, hreplaced.ready, hreplaced.pending]

/-- What a write of at least one byte has made of a writer that had to replace its upload. -/
structure Repaired (w : Writer) (c : Context (Disturbed Store)) (t : Keyed Int Bytes)
    (data : Bytes) (w' : Writer) (c' : Context (Disturbed Store)) : Prop where
  replaced : ∃ w₁ c₁, c.Leads c₁ ∧ w.Replaced c t.values w₁ c₁ ∧ w₁.Continues c₁ w' c'
  flowing : ∃ sent, w'.Flowing c' (Bytes.concat t.values ++ data) false
    (w.repairBodies t.values ++ sent) []
  filled : ∃ count, w'.Filled ((w.repairBodies t.values).map fun b => (b.size : Int))
    ((leftOver (repairMode w.policy w.size) (Bytes.concat t.values)).size + data.size) count

/-- A write of at least one byte replaces the upload first; with nothing disturbed it can only fail
because the old upload cannot be completed. -/
theorem Stale.write_returns (h : w.Stale c t completed) (hphase : w.phase = .active)
    {data : Bytes} (hne : data.size ≠ 0) :
    ∃ result w' c', (Writer.write data).execute w c = (result, w', c') ∧
      (result = .ok data.size ∧ w.Repaired c t data w' c' ∨
        ∃ e, result = .error e ∧ (c.service.IsCalm → completed = false ∧
          ¬ w.Completable c t.values)) := by
  obtain ⟨result, w₁, c₁, hreplace, hleads, hcases⟩ := replaceSession_cases h
  simp only [write_of_required hphase h.repair hne, Writing.execute_bind, hreplace]
  rcases hcases with ⟨rfl, hreplaced⟩ | ⟨e, completed', rfl, -, -, hwhy⟩
  swap
  · exact ⟨_, _, _, rfl, .inr ⟨e, rfl, hwhy⟩⟩
  have hholds := hreplaced.holds h
  obtain ⟨slots₁, hw₁⟩ := hreplaced.writer
  obtain ⟨result, w', c', sent, taken, spare', htake, htook⟩ :=
    takeIn_took hreplaced.attached hholds.fits hne
  simp only [htake]
  rcases htook.outcome with ⟨hresult, -⟩ | ⟨e, hresult, hcalm, -⟩
  · subst hresult
    obtain ⟨hcontinues, hflowing⟩ := htook.continues hholds (by rw [hw₁]; exact hphase)
      (by simp [hw₁])
    obtain ⟨-, count, hfilled⟩ := (hreplaced.filled h).takeIn hne htake
    exact ⟨_, _, _, rfl, .inl ⟨rfl, ⟨w₁, c₁, hleads, hreplaced, hcontinues⟩, ⟨sent, hflowing⟩,
      count, hfilled⟩⟩
  · subst hresult
    exact ⟨_, _, _, rfl, .inr ⟨e, rfl, fun hc => absurd (hleads.calm hc) hcalm⟩⟩

/-- Writes leave the writer as it is when they are all empty; else the first that is not replaces
the upload, and the rest goes on from there. -/
theorem Stale.writeAll_returns (h : w.Stale c t completed) (hphase : w.phase = .active)
    (writes : List Bytes) :
    ∃ result w' c', (Writer.writeAll writes).execute w c = (result, w', c') ∧
      (result = .ok () ∧
          ((Bytes.concat writes).size = 0 ∧ w' = w ∧ c' = c ∨
            (Bytes.concat writes).size ≠ 0 ∧ w.Repaired c t (Bytes.concat writes) w' c') ∨
        ∃ e, result = .error e ∧ (c.service.IsCalm → completed = false ∧
          ¬ w.Completable c t.values)) := by
  induction writes with
  | nil => exact ⟨_, _, _, rfl, .inl ⟨rfl, .inl ⟨rfl, rfl, rfl⟩⟩⟩
  | cons data rest ih =>
    simp only [Writer.writeAll, Writing.execute_bind, Writing.execute_discard, Bytes.concat_cons,
      ByteArray.size_append]
    by_cases hempty : data.size = 0
    · -- an empty write does nothing
      rw [write_of_empty hphase hempty]
      have hdata : data = ByteArray.empty := ByteArray.size_eq_zero_iff.mp hempty
      simpa only [Except.map, hdata, ByteArray.size_empty, Nat.zero_add, ByteArray.empty_append]
        using ih
    obtain ⟨result, w₁, c₁, hrun, hcases⟩ := h.write_returns hphase hempty
    rw [hrun]
    rcases hcases with ⟨rfl, hrepaired⟩ | ⟨e, rfl, hwhy⟩
    swap
    · exact ⟨_, _, _, rfl, .inr ⟨e, rfl, hwhy⟩⟩
    obtain ⟨⟨w₂, c₂, hleads, hreplaced, hcontinues⟩, ⟨sent, hflowing⟩, count, hfilled⟩ := hrepaired
    obtain ⟨result, w', c', hrest, hcases⟩ := hflowing.writeAll_returns rest
    refine ⟨result, w', c', hrest, ?_⟩
    rcases hcases with ⟨rfl, hcontinues', sent', hflowing'⟩ | ⟨e, rfl, hcalm⟩
    · obtain ⟨-, count', hfilled'⟩ := hfilled.writeAll hflowing.phase hflowing.repair hrest
      refine .inl ⟨rfl, .inr ⟨by omega, ⟨w₂, c₂, hleads, hreplaced, hcontinues.trans hcontinues'⟩,
        ⟨sent ++ sent', ?_⟩, count', ?_⟩⟩
      · rwa [← ByteArray.append_assoc, ← List.append_assoc]
      · rwa [ByteArray.size_append, ← Nat.add_assoc]
    · exact .inr ⟨e, rfl, fun hc => absurd (hcontinues.leads.calm (hleads.calm hc)) hcalm⟩

/-! ## 3. What is kept of the store -/

/-- What writes keep of a writer and of the store: the upload may be another one, but it is at the
same key, and when the old one was the only one there so is the new one. -/
structure Follows (w : Writer) (c : Context (Disturbed Store)) (w' : Writer)
    (c' : Context (Disturbed Store)) : Prop where
  leads : c.Leads c'
  policy : w'.policy = w.policy
  key : w'.session.key = w.session.key
  minPartSize : c'.store.minPartSize = c.store.minPartSize
  uploadPageSize : c'.store.uploadPageSize = c.store.uploadPageSize
  alone : c.store.Alone w.session.key w.session.uploadId →
    c'.store.Alone w'.session.key w'.session.uploadId

theorem Follows.refl (w : Writer) (hf : c.service.FailsOnly) : w.Follows c w c :=
  ⟨.refl hf, rfl, rfl, rfl, rfl, id⟩

theorem Follows.trans (h : w.Follows c w₁ c₁) (h' : w₁.Follows c₁ w' c') : w.Follows c w' c' :=
  ⟨h.leads.trans h'.leads, h'.policy.trans h.policy, h'.key.trans h.key,
    h'.minPartSize.trans h.minPartSize, h'.uploadPageSize.trans h.uploadPageSize,
    fun ha => h'.alone (h.alone ha)⟩

theorem Continues.follows (h : w.Continues c w' c') : w.Follows c w' c' := by
  obtain ⟨hleads, ⟨_, _, _, rfl⟩, ⟨bodies, hstore⟩⟩ := h
  refine ⟨hleads, rfl, rfl, ?_, ?_, ?_⟩ <;> rw [hstore]
  · rfl
  · rfl
  · intro halone
    exact halone.setParts _ _

/-- A replaced upload was completed, so that the new one is the only one in flight at the key when
the old one was. -/
theorem Replaced.follows (h : w.Replaced c bodies w' c') (hsource : w.sourceCompleted = false)
    (hleads : c.Leads c') : w.Follows c w' c' := by
  have hstore := h.store
  rw [repairBase, hsource, if_neg Bool.false_ne_true] at hstore
  obtain ⟨_, hw'⟩ := h.writer
  rw [repairBase, hsource, if_neg Bool.false_ne_true] at hw'
  refine ⟨hleads, by rw [hw'], by rw [hw'], by rw [hstore]; rfl, by rw [hstore]; rfl, ?_⟩
  intro halone
  rw [hstore, hw']
  exact (halone.complete _).startUpload.setParts _ _

/-- Writes return with the upload in flight and room in the slots, or a request has failed.  With
nothing disturbed that can only be the completion of an upload that has to be replaced. -/
theorem Opened.writeAll_returns (h : w.Opened c (Part.table bodies)) (writes : List Bytes) :
    ∃ result w' c', (writeAll writes).execute w c = (result, w', c') ∧
      (result = .ok () ∧ w.Follows c w' c' ∧ ¬ w'.IsStuck ∧
          (∃ bodies', w'.Holds c' (Bytes.concat bodies ++ Bytes.concat writes) bodies' []) ∨
        ∃ e, result = .error e ∧
          (c.service.IsCalm → ¬ ∀ b ∈ bodies.dropLast, c.store.minPartSize ≤ b.size)) := by
  have hrepair := h.repair_eq
  split at hrepair
  · obtain ⟨result, w', c', hrun, hcases⟩ := (h.stale hrepair).writeAll_returns h.phase_eq writes
    rw [Part.values_table] at hcases
    refine ⟨result, w', c', hrun, ?_⟩
    rcases hcases with ⟨rfl, ⟨hn, rfl, rfl⟩ | ⟨-, hrepaired⟩⟩ | ⟨e, rfl, hwhy⟩
    · refine .inl ⟨rfl, .refl w' h.failsOnly, h.filled.room, bodies, ?_⟩
      rw [ByteArray.size_eq_zero_iff.mp hn, ByteArray.append_empty]
      exact h.holds
    · obtain ⟨w₁, c₁, hleads, hreplaced, hcontinues⟩ := hrepaired.replaced
      obtain ⟨sent, hflowing⟩ := hrepaired.flowing
      have hholds := hflowing.holds
      rw [Part.values_table] at hholds
      exact .inl ⟨rfl, (hreplaced.follows (sourceCompleted_iff hrepair) hleads).trans
        hcontinues.follows, by simpa using hflowing.stuck, _, hholds⟩
    · exact .inr ⟨e, rfl, fun hcalm hsize => (hwhy hcalm).2
        ⟨h.upload.imp fun u hu => hu.1, hsize⟩⟩
  · obtain ⟨result, w', c', hrun, hcases⟩ := (h.flowing hrepair).writeAll_returns writes
    refine ⟨result, w', c', hrun, ?_⟩
    rcases hcases with ⟨rfl, hcontinues, sent, hflowing⟩ | ⟨e, rfl, hcalm⟩
    · exact .inl ⟨rfl, hcontinues.follows, by simpa using hflowing.stuck, _, hflowing.holds⟩
    · exact .inr ⟨e, rfl, fun hc => absurd hc hcalm⟩

end Writer

end ResumableStorage
