/-
  ResumableStorage/Proofs/Upload/Sending.lean
  ===========================================
  **Sending parts** — what becomes of the store and of a writer when it sends a part,
  sends what is staged, or takes in bytes.

  While an upload is in flight the store holds the bodies of the writer's parts under the
  numbers from one on.  A request that failed after it took effect has left one body more,
  under the number that the writer's next part gets.
-/
import ResumableStorage.Proofs.Client.Requests
import ResumableStorage.Proofs.Upload.Staging

namespace ResumableStorage

theorem Pool.capacity_acquire (p : Pool) : p.acquire.2.capacity = p.capacity := by
  unfold Pool.acquire
  split <;> rfl

theorem Pool.capacity_release (p : Pool) (id : BufferId) : (p.release id).capacity = p.capacity := by
  unfold Pool.release
  dsimp only
  split
  · rfl
  · split <;> rfl

namespace Writer

variable {w w' : Writer} {c c' : Context (Disturbed Store)} {bodies spare : List Bytes}

/-! ## 1. The upload of a writer -/

/-- The upload of a writer is in flight and holds `bodies`, those of the writer's parts, and behind
them at most one that the writer does not count. -/
structure Attached (w : Writer) (c : Context (Disturbed Store)) (bodies spare : List Bytes) :
    Prop where
  failsOnly : c.service.FailsOnly
  ids : c.store.IdsInOrder
  parts : w.parts = Part.ofBodies bodies
  upload : ∃ u, c.store.upload? w.session.key w.session.uploadId = some u ∧
    u.parts = Part.table (bodies ++ spare)
  spare : spare.length ≤ 1

def storeHolding (w : Writer) (c : Context (Disturbed Store)) (bodies : List Bytes) : Store :=
  c.store.setParts w.session.uploadId (Part.table bodies)

theorem Attached.storeHolding_self (h : w.Attached c bodies spare) :
    w.storeHolding c (bodies ++ spare) = c.store := by
  obtain ⟨u, hu, hparts⟩ := h.upload
  obtain ⟨hmem, hid, -, -⟩ := h.ids.upload?_eq_some_iff.mp hu
  rw [storeHolding, ← hparts, ← hid]
  exact h.ids.setParts_self hmem

/-- The next body of the writer replaces the one that it does not count. -/
theorem Attached.insertPart (h : w.Attached c bodies spare) (body : Bytes) :
    c.store.insertPart w.session.uploadId (bodies.length + 1) body =
      w.storeHolding c (bodies ++ [body]) := by
  conv_lhs => rw [← h.storeHolding_self]
  rw [storeHolding, Store.insertPart_setParts, Part.insert_table h.spare]
  rfl

/-- After a run that changed no more than the bodies of the upload, and the parts of the writer
with them. -/
theorem Attached.next (h : w.Attached c bodies spare) (hleads : c.Leads c') {bodies' spare'}
    (hstore : c'.store = w.storeHolding c (bodies' ++ spare')) (hsession : w'.session = w.session)
    (hparts : w'.parts = Part.ofBodies bodies') (hspare : spare'.length ≤ 1) :
    w'.Attached c' bodies' spare' := by
  obtain ⟨u, hu, -⟩ := h.upload
  refine ⟨hleads.failsOnly, ?_, hparts,
    ⟨{ u with parts := Part.table (bodies' ++ spare') }, ?_, rfl⟩, hspare⟩
  · rw [hstore]
    exact h.ids.setParts _ _
  · rw [hsession, hstore]
    exact Store.upload?_setParts hu _

theorem storeHolding_storeHolding (hsession : w'.session = w.session) {bodies'}
    (hstore : c'.store = w.storeHolding c bodies') (bodies : List Bytes) :
    w'.storeHolding c' bodies = w.storeHolding c bodies := by
  rw [storeHolding, hstore, hsession, storeHolding, Store.setParts_setParts, storeHolding]

/-! ## 2. One part -/

/-- A part is sent and counted, or nothing is counted and its body may have been stored. -/
theorem sendPart_cases (h : w.Attached c bodies spare) (body : Bytes) :
    ∃ result w' c', (sendPart body).execute w c = (result, w', c') ∧ c.Leads c' ∧
      (result = .ok () ∧ w' = { w with parts := Part.ofBodies (bodies ++ [body]) } ∧
          c'.store = w.storeHolding c (bodies ++ [body]) ∨
        ∃ e spare', result = .error e ∧ w' = w ∧ ¬ c.service.IsCalm ∧ spare'.length ≤ 1 ∧
          c'.store = w.storeHolding c (bodies ++ spare')) := by
  obtain ⟨u, hu, -⟩ := h.upload
  have hlength : (w.parts.length : Int) = bodies.length := by rw [h.parts, Part.length_ofBodies]
  obtain ⟨result, c', hrun, hleads, hcases⟩ :=
    Client.uploadPart_cases h.failsOnly hu (w.parts.length + 1) body
  rw [hlength, h.insertPart body] at hcases
  rw [hlength] at hrun
  simp only [sendPart, Writing.execute_bind, Writing.execute_writer, Writing.execute_ofRun, hlength,
    hrun]
  rcases hcases with ⟨rfl, hstore⟩ | ⟨e, rfl, hcalm, hstore⟩
  · refine ⟨_, _, _, rfl, ⟨hleads.failsOnly, hleads.calm, hleads.capacity⟩, .inl ⟨rfl, ?_, hstore⟩⟩
    simp only [h.parts, Part.ofBodies_append_singleton]
  · refine ⟨_, _, _, rfl, hleads, .inr ?_⟩
    rcases hstore with hstore | hstore
    · exact ⟨e, spare, rfl, rfl, hcalm, h.spare, by rw [hstore, h.storeHolding_self]⟩
    · exact ⟨e, [body], rfl, rfl, hcalm, by simp, hstore⟩

/-! ## 3. What is staged -/

def ready (w : Writer) : Bytes :=
  match w.slots with
  | none => ByteArray.empty
  | some slots => slots.ready.held

def pending (w : Writer) : Bytes :=
  match w.slots with
  | none => ByteArray.empty
  | some slots => slots.pending.held

/-- The bytes that a writer has taken in and not sent. -/
def staged (w : Writer) : Bytes := w.ready ++ w.pending

theorem staged_of_slots {slots : Slots} (hslots : w.slots = some slots) :
    w.staged = slots.staged := by
  rw [staged, ready, pending, hslots]
  rfl

theorem staged_of_none (hslots : w.slots = none) : w.staged = ByteArray.empty := by
  rw [staged, ready, pending, hslots]
  rfl

/-- The slots that are lent hold what the writer has staged; the service is not asked. -/
theorem borrow_lends {σ : Type} (w : Writer) (c : Context σ) :
    ∃ slots c', borrow.execute w c = (.ok slots, { w with slots := some slots }, c') ∧
      c'.service = c.service ∧ c'.pool.capacity = c.pool.capacity ∧ slots.ready.held = w.ready ∧
      slots.pending.held = w.pending := by
  simp only [borrow, Writing.execute_bind, Writing.execute_writer]
  rcases hslots : w.slots with _ | slots
  · simp only [ready, pending, hslots]
    exact ⟨_, _, rfl, rfl, by rw [Pool.capacity_acquire, Pool.capacity_acquire], rfl, rfl⟩
  · simp only [ready, pending, hslots]
    exact ⟨slots, c, by rw [← hslots]; rfl, rfl, rfl, rfl, rfl⟩

theorem borrow_cases (hf : c.service.FailsOnly) :
    ∃ slots c', borrow.execute w c = (.ok slots, { w with slots := some slots }, c') ∧
      c.Leads c' ∧ c'.store = c.store ∧ slots.ready.held = w.ready ∧
      slots.pending.held = w.pending := by
  obtain ⟨slots, c', hrun, hservice, hcapacity, hheld⟩ := borrow_lends w c
  exact ⟨slots, c', hrun, ⟨hservice ▸ hf, fun hc => hservice ▸ hc, hcapacity⟩,
    congrArg (·.service) hservice, hheld⟩

theorem flush_of_staged_empty {σ : Type} [Service σ] {c : Context σ}
    (hstaged : w.staged = ByteArray.empty) : flush.execute w c = (.ok (), w, c) := by
  simp only [flush, Writing.execute_bind, Writing.execute_writer]
  rcases hslots : w.slots with _ | slots
  · rfl
  · rw [staged_of_slots hslots] at hstaged
    simp only [Slots.isEmpty_iff.mpr hstaged, if_true]
    rfl

theorem flush_cases (h : w.Attached c bodies spare) {slots : Slots} (hslots : w.slots = some slots)
    (hstaged : slots.staged ≠ ByteArray.empty) :
    ∃ result w' c', flush.execute w c = (result, w', c') ∧ c.Leads c' ∧
      (result = .ok () ∧
          w' = { w with
            parts := Part.ofBodies (bodies ++ [(slots.nextPart w.policy.chunk).1])
            slots := some (slots.afterPart (slots.nextPart w.policy.chunk).2) } ∧
          c'.store = w.storeHolding c (bodies ++ [(slots.nextPart w.policy.chunk).1]) ∨
        ∃ e spare', result = .error e ∧ w' = w ∧ ¬ c.service.IsCalm ∧ spare'.length ≤ 1 ∧
          c'.store = w.storeHolding c (bodies ++ spare')) := by
  obtain ⟨result, w', c', hrun, hleads, hcases⟩ :=
    sendPart_cases h (slots.nextPart w.policy.chunk).1
  have hempty : slots.isEmpty = false := by
    rw [Bool.eq_false_iff]
    exact fun he => hstaged (Slots.isEmpty_iff.mp he)
  simp only [flush, Writing.execute_bind, Writing.execute_writer, hslots, hempty,
    Bool.false_eq_true, if_false, hrun]
  rcases hcases with ⟨rfl, rfl, hstore⟩ | ⟨e, spare', rfl, rfl, hrest⟩
  · exact ⟨_, _, _, rfl, hleads, .inl ⟨rfl, rfl, hstore⟩⟩
  · exact ⟨_, _, _, rfl, hleads, .inr ⟨e, spare', rfl, rfl, hrest⟩⟩

/-! ## 4. Taking in bytes -/

section Feed

variable {σ : Type} [Service σ] {policy : Policy} {data : Bytes} {slots : Slots} {offset : Nat}

/-- A round that fills both slots sends the first of them, and more is taken in. -/
theorem feed_execute_of_full (hlt : offset < data.size)
    (hfull : (slots.fill policy.chunk data offset).1.pending.isFull policy.chunk = true)
    (w : Writer) (c : Context σ) :
    (feed policy data slots offset).execute w c =
      (do
        sendPart (slots.fill policy.chunk data offset).1.ready.held
        Writing.change fun w =>
          { w with slots := some (slots.fill policy.chunk data offset).1.shift }
        feed policy data (slots.fill policy.chunk data offset).1.shift
          (offset + (slots.fill policy.chunk data offset).2) : Writing σ Nat).execute
        { w with
          slots := some (slots.fill policy.chunk data offset).1
          size := w.size + (slots.fill policy.chunk data offset).2 }
        { c with pool := c.pool.putBoth slots policy.chunk data offset } := by
  rw [feed, if_pos hlt]
  rw [if_pos hfull, Writing.execute_bind, execute_stage]

/-- A round that leaves room has taken in all that was left. -/
theorem feed_execute_of_room (hlt : offset < data.size)
    (hroom : (slots.fill policy.chunk data offset).1.pending.isFull policy.chunk = false)
    (w : Writer) (c : Context σ) :
    (feed policy data slots offset).execute w c =
      (.ok data.size, { w with
        slots := some (slots.fill policy.chunk data offset).1
        size := w.size + (slots.fill policy.chunk data offset).2 },
        { c with pool := c.pool.putBoth slots policy.chunk data offset }) := by
  have hall := Slots.fill_count_of_room hlt.le hroom
  rw [feed, if_pos hlt]
  rw [if_neg (by rw [hroom]; decide), Writing.execute_bind, execute_stage]
  rw [feed, if_neg (by omega), hall]
  rfl

theorem feed_execute_of_done (hge : ¬ offset < data.size) (w : Writer) (c : Context σ) :
    (feed policy data slots offset).execute w c = (.ok offset, w, c) := by
  rw [feed, if_neg hge]
  rfl

/-- A feed that returns has taken in all that was left, and tells so. -/
theorem feed_tells {policy : Policy} {data : Bytes} {slots : Slots} {offset : Nat} {told : Nat}
    {w w' : Writer} {c c' : Context σ} (hle : offset ≤ data.size)
    (hrun : (feed policy data slots offset).execute w c = (.ok told, w', c')) :
    told = data.size := by
  induction slots, offset using feed.induct policy data generalizing w c with
  | case1 slots offset hlt filled hfull =>
    rename_i ih
    rw [feed_execute_of_full hlt hfull] at hrun
    obtain ⟨_, w₁, c₁, -, hrun⟩ := Writing.execute_bind_eq_ok.mp hrun
    obtain ⟨_, w₂, c₂, -, hrun⟩ := Writing.execute_bind_eq_ok.mp hrun
    exact ih (Slots.fill_count_le slots _ hle) hrun
  | case2 slots offset hlt filled hroom =>
    rw [feed_execute_of_room hlt (eq_false_of_ne_true hroom)] at hrun
    cases hrun
    rfl
  | case3 slots offset hge =>
    rw [feed_execute_of_done hge] at hrun
    cases hrun
    omega

end Feed

/-- What a writer and a context have become after bytes of `data` from `offset` on were taken in:
`taken` of them, of which `sent` went out in full chunks and the rest is staged. -/
structure Fed (w : Writer) (c : Context (Disturbed Store)) (bodies : List Bytes) (slots : Slots)
    (data : Bytes) (offset : Nat) (w' : Writer) (c' : Context (Disturbed Store))
    (sent : List Bytes) (taken : Nat) (slots' : Slots) (spare' : List Bytes) : Prop where
  leads : c.Leads c'
  store : c'.store = w.storeHolding c (bodies ++ sent ++ spare')
  writer : w' = { w with
    parts := Part.ofBodies (bodies ++ sent)
    size := w.size + taken
    slots := some slots' }
  spare : spare'.length ≤ 1
  fits : slots'.Fits w.policy.chunk
  chunks : ∀ b ∈ sent, b.size = w.policy.chunk
  taken_le : offset + taken ≤ data.size
  bytes : Bytes.concat sent ++ slots'.staged = slots.staged ++ data.extract offset (offset + taken)

theorem Fed.nothing (h : w.Attached c bodies spare) {slots : Slots} (hslots : w.slots = some slots)
    (hfits : slots.Fits w.policy.chunk) {data : Bytes} {offset : Nat} (hle : offset ≤ data.size) :
    Fed w c bodies slots data offset w c [] 0 slots spare := by
  refine ⟨.refl h.failsOnly, ?_, ?_, h.spare, hfits, by simp, hle, by simp⟩
  · rw [List.append_nil, h.storeHolding_self]
  · rw [List.append_nil, ← h.parts, ← hslots]
    simp

theorem Fed.fill (h : w.Attached c bodies spare) {slots : Slots}
    (hfits : slots.Fits w.policy.chunk) {data : Bytes} {offset : Nat} (hle : offset ≤ data.size)
    (hleads : c.Leads c') {spare'} (hspare : spare'.length ≤ 1)
    (hstore : c'.store = w.storeHolding c (bodies ++ spare')) :
    Fed w c bodies slots data offset
      { w with
        slots := some (slots.fill w.policy.chunk data offset).1
        size := w.size + (slots.fill w.policy.chunk data offset).2 }
      c' [] (slots.fill w.policy.chunk data offset).2 (slots.fill w.policy.chunk data offset).1
      spare' := by
  refine ⟨hleads, ?_, ?_, hspare, hfits.fill data offset, by simp, Slots.fill_count_le _ _ hle, ?_⟩
  · rw [List.append_nil, hstore]
  · rw [List.append_nil, ← h.parts]
  · simpa using hfits.staged_fill data offset

/-- A fill that filled both slots, the part that `ready` made, and what was taken in then. -/
theorem Fed.cons {slots : Slots} (hfits : slots.Fits w.policy.chunk) {data : Bytes} {offset : Nat}
    (hfull : (slots.fill w.policy.chunk data offset).1.pending.isFull w.policy.chunk = true)
    {body : Bytes} (hbody : body = (slots.fill w.policy.chunk data offset).1.ready.held)
    {w₁ : Writer} {c₁ : Context (Disturbed Store)} (hleads : c.Leads c₁)
    (hstore : c₁.store = w.storeHolding c (bodies ++ [body]))
    (hw₁ : w₁ = { w with
      parts := Part.ofBodies (bodies ++ [body])
      size := w.size + (slots.fill w.policy.chunk data offset).2
      slots := some (slots.fill w.policy.chunk data offset).1.shift })
    {sent : List Bytes} {taken : Nat} {slots' : Slots} {spare' : List Bytes}
    (h : Fed w₁ c₁ (bodies ++ [body]) (slots.fill w.policy.chunk data offset).1.shift data
      (offset + (slots.fill w.policy.chunk data offset).2) w' c' sent taken slots' spare') :
    Fed w c bodies slots data offset w' c' (body :: sent)
      ((slots.fill w.policy.chunk data offset).2 + taken) slots' spare' := by
  have hfits₁ := hfits.fill data offset
  have hbytes := hfits.staged_fill data offset
  generalize slots.fill w.policy.chunk data offset = filled at *
  obtain ⟨filled, n⟩ := filled
  simp only at *
  have hlist : bodies ++ [body] ++ sent = bodies ++ body :: sent := by simp
  have hsession : w₁.session = w.session := by rw [hw₁]
  have hchunk : w₁.policy.chunk = w.policy.chunk := by rw [hw₁]
  obtain ⟨hleads', hstore', hwriter, hspare, hfits', hchunks, hle, hrest⟩ := h
  rw [hlist] at hstore' hwriter
  rw [hchunk] at hfits' hchunks
  refine ⟨hleads.trans hleads', ?_, ?_, hspare, hfits', ?_, by omega, ?_⟩
  · rw [hstore', storeHolding_storeHolding hsession hstore]
  · rw [hwriter, hw₁]
    simp only [Nat.cast_add, Int.add_assoc]
  · intro b hb
    rcases List.mem_cons.mp hb with rfl | hb
    · rw [hbody]
      exact hfits₁.ready_eq hfull
    · exact hchunks b hb
  · rw [Bytes.concat_cons, ByteArray.append_assoc, hrest, Slots.staged_shift, hbody,
      ← ByteArray.append_assoc]
    change filled.staged ++ _ = _
    rw [hbytes, ByteArray.append_assoc, ByteArray.extract_append_extract]
    congr 2 <;> omega

/-- Bytes are taken in until none is left, and all of them are told, or until both slots are full and a part fails. -/
theorem feed_fed (policy : Policy) (data : Bytes) (slots : Slots) (offset : Nat)
    (hpolicy : w.policy = policy) (h : w.Attached c bodies spare) (hslots : w.slots = some slots)
    (hfits : slots.Fits policy.chunk) (hle : offset ≤ data.size) :
    ∃ result w' c' sent taken slots' spare',
      (feed policy data slots offset).execute w c = (result, w', c') ∧
      Fed w c bodies slots data offset w' c' sent taken slots' spare' ∧
      (result = .ok data.size ∧ offset + taken = data.size ∧ spare' = (if sent = [] then spare else []) ∧
          (offset < data.size ∨ slots.pending.isFull policy.chunk = false →
            slots'.pending.isFull policy.chunk = false) ∨
        ∃ e, result = .error e ∧ ¬ c.service.IsCalm ∧
          slots'.pending.isFull policy.chunk = true) := by
  induction slots, offset using feed.induct policy data
    generalizing w c bodies spare with
  | case1 slots offset hlt filled hfull =>
    rename_i ih
    subst hpolicy
    let staged : Context (Disturbed Store) :=
      { c with pool := c.pool.putBoth slots w.policy.chunk data offset }
    have hstaged : c.Leads staged := .withPool h.failsOnly rfl
    have hkept : { w with slots := some filled.1, size := w.size + filled.2 }.Attached staged bodies
        spare :=
      h.next hstaged h.storeHolding_self.symm rfl h.parts h.spare
    obtain ⟨result, w₁, c₁, hrun, hleads, hcases⟩ := sendPart_cases hkept filled.1.ready.held
    rw [feed_execute_of_full hlt hfull, Writing.execute_bind, hrun]
    rcases hcases with ⟨rfl, rfl, hstore⟩ | ⟨e, spare', rfl, rfl, hcalm, hspare, hstore⟩
    · -- the part is counted, and the rest is taken in with room in the slots
      have hsent : Attached { w with
          parts := Part.ofBodies (bodies ++ [filled.1.ready.held])
          size := w.size + filled.2
          slots := some filled.1.shift } c₁ (bodies ++ [filled.1.ready.held]) [] :=
        h.next (hstaged.trans hleads) (by rw [List.append_nil]; exact hstore) rfl rfl (by simp)
      obtain ⟨result, w', c', sent, taken, slots', spare', hfeed, hfed, hcases⟩ :=
        ih (by rfl) hsent rfl (hfits.fill data offset).shift (Slots.fill_count_le slots _ hle)
      refine ⟨result, w', c', _, _, slots', spare', hfeed,
        .cons hfits hfull rfl (hstaged.trans hleads) hstore rfl hfed, ?_⟩
      rcases hcases with ⟨rfl, htaken, hspare, hroom⟩ | ⟨e, rfl, hcalm, hpending⟩
      · refine .inl ⟨rfl, ?_, ?_, fun _ => hroom (.inr ?_)⟩
        · simp only [filled] at htaken
          omega
        · simpa using hspare
        · exact Slots.pending_shift_not_full _ w.policy.chunk_pos
      · exact .inr ⟨e, rfl, fun hc => hcalm (hleads.calm hc), hpending⟩
    · exact ⟨.error e, _, c₁, [], _, _, spare', rfl,
        .fill h hfits hle (hstaged.trans hleads) hspare hstore, .inr ⟨e, rfl, hcalm, hfull⟩⟩
  | case2 slots offset hlt filled hroom =>
    subst hpolicy
    have hroom : filled.1.pending.isFull w.policy.chunk = false := by simpa using hroom
    have hall := Slots.fill_count_of_room hle hroom
    have hstaged : c.Leads { c with pool := c.pool.putBoth slots w.policy.chunk data offset } :=
      .withPool h.failsOnly rfl
    rw [feed_execute_of_room hlt hroom]
    exact ⟨_, _, _, [], _, _, spare, rfl,
      .fill h hfits hle hstaged h.spare h.storeHolding_self.symm,
      .inl ⟨rfl, hall, rfl, fun _ => hroom⟩⟩
  | case3 slots offset hge =>
    subst hpolicy
    rw [feed_execute_of_done hge]
    have hall : offset = data.size := by omega
    refine ⟨_, _, _, [], 0, slots, spare, rfl, .nothing h hslots hfits hle,
      .inl ⟨congrArg _ hall, hall, rfl, ?_⟩⟩
    rintro (hlt | hroom)
    · exact absurd hlt hge
    · exact hroom

end Writer

end ResumableStorage
