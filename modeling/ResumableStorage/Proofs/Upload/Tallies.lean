/-
  ResumableStorage/Proofs/Upload/Tallies.lean
  ===========================================
  **Counting the parts that are sent** — behind the parts that a writer goes on from every
  full chunk that was taken in makes a part, and less than one does when there would be
  none otherwise.  So the number of the next part, and of the last one, is known from how
  many bytes were taken in.

  This holds for every service, and also of calls that raise.
-/
import ResumableStorage.Proofs.Upload.Appending
import ResumableStorage.Proofs.Upload.Counting

namespace ResumableStorage

/-! ## 1. Numbers -/

/-- The highest number that the store takes for a part. -/
def partNumberLimit : Nat := 10000

/-- The number of the last part when `total` bytes stand behind `base` parts.  What does not come
out even goes with the last chunk, and one part is sent in any case. -/
def Policy.lastNumber (p : Policy) (base total : Nat) : Nat :=
  base + max 1 (total / p.chunk)

theorem Policy.lastNumber_mono (p : Policy) (base : Nat) {total total' : Nat} (h : total ≤ total') :
    p.lastNumber base total ≤ p.lastNumber base total' := by
  have hdiv := Nat.div_le_div_right (c := p.chunk) h
  simp only [lastNumber]
  omega

theorem Policy.one_le_lastNumber (p : Policy) (base total : Nat) : 1 ≤ p.lastNumber base total := by
  simp only [lastNumber]
  omega

namespace Exchange

variable {σ : Type} {x : Exchange σ} {limit limit' : Nat}

/-- A part that the request stores has a positive number that is not above `limit`. -/
def NumberedTo (x : Exchange σ) (limit : Nat) : Prop :=
  ∀ id number, x.request.Stores id number → 1 ≤ number ∧ number ≤ limit

theorem NumberedTo.mono (h : x.NumberedTo limit) (hle : limit ≤ limit') : x.NumberedTo limit' := by
  intro id number hstores
  obtain ⟨hpos, hlimit⟩ := h id number hstores
  exact ⟨hpos, by omega⟩

theorem numberedTo_of_kind (h : x.request.kind ≠ .uploadPart ∧ x.request.kind ≠ .copyPart) :
    x.NumberedTo limit := by
  intro id number hstores
  rcases hstores.kind_cases with hkind | hkind
  · exact absurd hkind h.1
  · exact absurd hkind h.2

theorem numberedTo_of_part {bucket key id : String} {n : Nat} {body : Bytes}
    (h : x.request = .uploadPart bucket key id (n + 1) body) (hle : n + 1 ≤ limit) :
    x.NumberedTo limit := by
  rintro id number (⟨_, _, _, hr⟩ | ⟨_, _, _, _, hr⟩)
  · rw [h] at hr
    cases hr
    omega
  · rw [h] at hr
    cases hr

theorem CarriesTo.numberedTo {old new : Session} (h : x.request.CarriesTo old new)
    (hle : 1 ≤ limit) : x.NumberedTo limit := by
  rintro id number (⟨_, _, _, hr⟩ | ⟨_, _, _, _, hr⟩)
  · rcases h with h | h | h <;> rw [h] at hr <;> cases hr
  · rcases h with h | h | h <;> rw [h] at hr <;> cases hr
    omega

end Exchange

theorem Turn.run_eq {σ : Type} [Service σ] (turn : Turn σ) :
    turn.operation.run.execute turn.writer turn.context =
      (turn.result, turn.writerAfter, turn.contextAfter) := rfl

namespace Writer

variable {σ : Type} [Service σ] {w w' w₁ : Writer} {c c' : Context σ} {base total count : Nat}
  {slots : Slots} {data : Bytes}

/-! ## 2. Counting chunks -/

/-- Behind `base` parts a writer has sent full chunks; these and what is staged make `total` bytes.
Once a chunk was sent the first slot is full. -/
structure Tallied (w : Writer) (base total count : Nat) : Prop where
  fits : w.Fits
  length : w.parts.length = base + count
  total_eq : count * w.policy.chunk + w.staged.size = total
  ready : count ≠ 0 → w.ready.size = w.policy.chunk

theorem staged_size (w : Writer) : w.staged.size = w.ready.size + w.pending.size :=
  ByteArray.size_append

/-- A part that is sent while something is staged has no higher number than the last one. -/
theorem Tallied.next_le (h : w.Tallied base total count) (hstaged : w.staged ≠ ByteArray.empty) :
    w.parts.length + 1 ≤ w.policy.lastNumber base total := by
  have hpos := w.policy.chunk_pos
  have hsize := w.staged_size
  have hne := ByteArray.size_eq_zero_iff.not.mpr hstaged
  rw [h.length, Policy.lastNumber]
  rcases Nat.eq_zero_or_pos count with rfl | hcount
  · omega
  · have hready := h.ready (by omega)
    have htotal := h.total_eq
    have hdiv : count + 1 ≤ total / w.policy.chunk := by
      rw [Nat.le_div_iff_mul_le hpos, Nat.add_mul]
      omega
    omega

/-- It is the last one when there is room in the slots. -/
theorem Tallied.next_eq (h : w.Tallied base total count) (hroom : ¬ w.IsStuck) :
    w.parts.length + 1 = w.policy.lastNumber base total := by
  have hpos := w.policy.chunk_pos
  have hsize := w.staged_size
  have htotal := h.total_eq
  have hready := h.fits.ready_le
  have hpending := h.fits.pending_le
  have hlt : total / w.policy.chunk < count + 2 := by
    rw [Nat.div_lt_iff_lt_mul hpos, Nat.add_mul]
    simp only [IsStuck] at hroom
    omega
  rw [h.length, Policy.lastNumber]
  rcases Nat.eq_zero_or_pos count with rfl | hcount
  · omega
  · have hfull := h.ready (by omega)
    have hle : count + 1 ≤ total / w.policy.chunk := by
      rw [Nat.le_div_iff_mul_le hpos, Nat.add_mul]
      omega
    omega

theorem Filled.tallied {sizes : List Int} (h : w.Filled sizes total count) :
    w.Tallied sizes.length total count := by
  refine ⟨h.fits, ?_, h.total_eq, h.ready⟩
  have hlength := congrArg List.length h.sizes
  simpa using hlength

/-- Two writers that hold the same bytes for the same parts count alike. -/
theorem Tallied.congr (h : w.Tallied base total count) (hpolicy : w'.policy = w.policy)
    (hparts : w'.parts = w.parts) (hready : w'.ready = w.ready)
    (hpending : w'.pending = w.pending) : w'.Tallied base total count := by
  obtain ⟨hfits, hlength, htotal, hfull⟩ := h
  refine ⟨⟨?_, ?_, ?_⟩, ?_, ?_, ?_⟩
  · rw [hready, hpolicy]
    exact hfits.ready_le
  · rw [hpending, hpolicy]
    exact hfits.pending_le
  · rw [hready, hpending, hpolicy]
    exact hfits.inOrder
  · rwa [hparts]
  · rwa [staged, hready, hpending, hpolicy]
  · rwa [hready, hpolicy]

theorem Tallied.fill (h : w.Tallied base total count) (hslots : w.slots = some slots) (data : Bytes)
    (offset : Nat) :
    Tallied { w with
        slots := some (slots.fill w.policy.chunk data offset).1
        size := w.size + (slots.fill w.policy.chunk data offset).2 }
      base (total + (slots.fill w.policy.chunk data offset).2) count := by
  have hready : w.ready = slots.ready.held := by rw [Writer.ready, hslots]
  have hpending : w.pending = slots.pending.held := by rw [Writer.pending, hslots]
  have hfits := (h.fits.slots hready.symm hpending.symm).fill data offset
  have hsize₁ := Slots.fill_ready_size slots w.policy.chunk data offset
  have hsize₂ := Slots.fill_pending_size slots w.policy.chunk data offset
  have htotal := h.total_eq
  refine ⟨.of_slots rfl hfits, h.length, ?_, ?_⟩
  · rw [staged_size, hready, hpending] at htotal
    rw [staged_of_slots rfl, Slots.staged_size, Slots.fill_count]
    simp only
    omega
  · intro hcount
    have hfull := h.ready hcount
    rw [hready] at hfull
    exact Slots.fill_ready_of_full hfull data offset

/-- The first of two full slots becomes a part. -/
theorem Tallied.shift (h : w.Tallied base total count) (hslots : w.slots = some slots)
    (hfull : slots.pending.isFull w.policy.chunk = true) (part : Part) :
    Tallied { w with parts := w.parts ++ [part], slots := some slots.shift } base total
      (count + 1) := by
  have hready : w.ready = slots.ready.held := by rw [Writer.ready, hslots]
  have hpending : w.pending = slots.pending.held := by rw [Writer.pending, hslots]
  have hfits := h.fits.slots hready.symm hpending.symm
  have htotal := h.total_eq
  refine ⟨.of_slots rfl hfits.shift, ?_, ?_, ?_⟩
  · simp [h.length]
    omega
  · rw [staged_size, hready, hpending, hfits.ready_eq hfull] at htotal
    rw [staged_of_slots rfl, Slots.staged_shift, Nat.add_mul]
    simp only
    omega
  · intro _
    exact hfits.pending_eq hfull

/-- What has become of a writer that took in `taken` bytes: it has sent parts up to the last one
that these make. -/
structure Grows (w : Writer) (base total : Nat) (result : Except Error Unit) (w' : Writer)
    (xs : List (Exchange σ)) (taken count : Nat) : Prop where
  advances : w.Advances w'
  policy : w'.policy = w.policy
  size : w'.size = w.size + taken
  tallied : w'.Tallied base (total + taken) count
  numbers : ∀ x ∈ xs, x.NumberedTo (w.policy.lastNumber base (total + taken))
  room : result = .ok () → ¬ w'.IsStuck

omit [Service σ] in
/-- Some bytes are taken in first, and parts sent that these make; the rest comes behind them. -/
theorem Grows.behind {result : Except Error Unit} {xs ys : List (Exchange σ)} {n taken : Nat}
    (hrest : w₁.Grows base (total + n) result w' ys taken count) (hadvances : w.Advances w₁)
    (hpolicy : w₁.policy = w.policy) (hsize : w₁.size = w.size + n)
    (hnumbers : ∀ x ∈ xs, x.NumberedTo (w.policy.lastNumber base (total + n))) :
    w.Grows base total result w' (xs ++ ys) (n + taken) count := by
  refine ⟨hadvances.trans hrest.advances, hrest.policy.trans hpolicy, ?_, ?_, ?_, hrest.room⟩
  · rw [hrest.size, hsize, Nat.cast_add, ← Int.add_assoc]
  · rw [← Nat.add_assoc]
    exact hrest.tallied
  · intro x hx
    rw [← Nat.add_assoc]
    rcases List.mem_append.mp hx with hx | hx
    · exact (hnumbers x hx).mono (w.policy.lastNumber_mono base (Nat.le_add_right _ _))
    · rw [← hpolicy]
      exact hrest.numbers x hx

theorem isStuck_of_slots (hslots : w.slots = some slots) (h : w.Fits) :
    w.IsStuck ↔ slots.pending.isFull w.policy.chunk = true := by
  have hle := h.pending_le
  simp only [IsStuck, pending, hslots, Slot.isFull, decide_eq_true_eq] at hle ⊢
  omega

theorem sendPart_asking (w : Writer) (c : Context σ) (body : Bytes) {limit : Nat}
    (h : w.parts.length + 1 ≤ limit) :
    (sendPart body).Asking (fun x => x.NumberedTo limit) w c := by
  apply Writing.Asking.of_asks (sendPart_exchange w c body)
  intro x hx
  rw [List.mem_singleton.mp hx]
  exact Exchange.numberedTo_of_part rfl h

/-- A feed sends parts with the numbers that the bytes taken in make, whatever comes of it. -/
theorem feed_grows (policy : Policy) (data : Bytes) (slots : Slots) (offset : Nat)
    (hpolicy : w.policy = policy) (hslots : w.slots = some slots) (h : w.Tallied base total count)
    (hle : offset ≤ data.size) (hstart : offset < data.size ∨ ¬ w.IsStuck) (c : Context σ) :
    ∃ result w' c' xs taken count', (feed policy data slots offset).execute w c = (result, w', c') ∧
      c.Asks c' xs ∧ w.Grows base total result w' xs taken count' := by
  induction slots, offset using feed.induct policy data generalizing w c total count with
  | case1 slots offset hlt filled hfull =>
    rename_i ih
    subst hpolicy
    have hfilled := h.fill hslots data offset
    -- the part that is sent has a full chunk behind it
    have hnumber := hfilled.next_le (by
      apply staged_ne_empty_of_stuck
      rw [isStuck_of_slots rfl hfilled.fits]
      exact hfull)
    obtain ⟨xs₁, hasks, hnumbers⟩ := sendPart_asking
      { w with slots := some filled.1, size := w.size + filled.2 }
      { c with pool := c.pool.putBoth slots w.policy.chunk data offset } filled.1.ready.held hnumber
    have hstaged : c.Asks { c with pool := c.pool.putBoth slots w.policy.chunk data offset } [] :=
      .nothing rfl rfl
    rw [feed_execute_of_full hlt hfull, Writing.execute_bind]
    rcases hsend : (sendPart filled.1.ready.held).execute
      { w with slots := some filled.1, size := w.size + filled.2 }
      { c with pool := c.pool.putBoth slots w.policy.chunk data offset } with ⟨sent, w₁, c₁⟩
    rw [hsend] at hasks
    rcases sendPart_surplus hsend with ⟨rfl, hfailed⟩ | ⟨rfl, part, rfl, -⟩
    · rcases sent with e | ⟨⟩
      · exact ⟨_, _, _, _, _, _, rfl, hstaged.trans hasks,
          ⟨_, _, _, rfl⟩, rfl, rfl, hfilled, hnumbers, by simp⟩
      · exact absurd rfl hfailed
    · have hshifted := hfilled.shift rfl hfull part
      have hroom : ¬ Writer.IsStuck { w with
          parts := w.parts ++ [part], slots := some filled.1.shift
          size := w.size + filled.2 } := by
        rw [isStuck_of_slots rfl hshifted.fits]
        simp [Slots.pending_shift_not_full _ w.policy.chunk_pos]
      obtain ⟨result, w', c', xs, taken, count', hfeed, hasks', hgrows⟩ :=
        ih (by rfl) (by rfl) hshifted (Slots.fill_count_le slots _ hle) (.inr hroom) c₁
      exact ⟨result, w', c', _, _, count', hfeed,
        (hstaged.trans hasks).trans hasks', hgrows.behind ⟨_, _, _, rfl⟩ rfl rfl hnumbers⟩
  | case2 slots offset hlt filled hroom =>
    subst hpolicy
    have hfilled := h.fill hslots data offset
    have hroom : filled.1.pending.isFull w.policy.chunk = false := by simpa using hroom
    rw [feed_execute_of_room hlt hroom]
    refine ⟨_, _, _, [], _, _, rfl, .nothing rfl rfl, ⟨_, _, _, rfl⟩, rfl, rfl, hfilled, by simp,
      ?_⟩
    intro _
    rw [isStuck_of_slots rfl hfilled.fits]
    simpa using hroom
  | case3 slots offset hge =>
    subst hpolicy
    rw [feed_execute_of_done hge]
    exact ⟨_, _, _, [], 0, _, rfl, .refl c, .refl w, rfl, by simp, h, by simp,
      fun _ => hstart.resolve_left hge⟩

theorem takeIn_grows (h : w.Tallied base total count) (hne : data.size ≠ 0) (c : Context σ) :
    ∃ result w' c' xs taken count', (takeIn data).execute w c = (result, w', c') ∧
      c.Asks c' xs ∧ w.Grows base total result w' xs taken count' := by
  obtain ⟨slots, c₁, hborrow, hasks, hready, hpending⟩ := borrow_asks w c
  have hlent : Tallied { w with slots := some slots } base total count :=
    h.congr rfl rfl hready hpending
  obtain ⟨result, w', c', xs, taken, count', hfeed, hasks', hgrows⟩ :=
    feed_grows (w := { w with slots := some slots }) w.policy data slots 0 rfl rfl hlent
      (Nat.zero_le _) (.inl (by omega)) c₁
  have hgrows' : w.Grows base total result w' ([] ++ xs) (0 + taken) count' :=
    Grows.behind hgrows ⟨_, _, _, rfl⟩ rfl (by simp) (by simp)
  refine ⟨result, w', c', _, _, count', ?_, hasks.trans hasks', hgrows'⟩
  simp only [takeIn, Writing.execute_bind, hborrow, Writing.execute_writer, hfeed]

/-! ## 3. Finishing -/

/-- With something staged a flush is one part, and the writer is the same then but for the slots. -/
theorem flush_of_staged (hstaged : w.staged ≠ ByteArray.empty) :
    ∃ body slots', ∀ c : Context σ, flush.execute w c =
      (sendPart body >>= fun _ => Writing.change fun w => { w with slots := slots' } :
        Writing σ Unit).execute w c := by
  rcases hslots : w.slots with _ | slots
  · exact absurd (staged_of_none hslots) hstaged
  have hempty : slots.isEmpty = false := by
    rw [staged_of_slots hslots] at hstaged
    rw [Bool.eq_false_iff]
    exact fun he => hstaged (Slots.isEmpty_iff.mp he)
  refine ⟨(slots.nextPart w.policy.chunk).1,
    some (slots.afterPart (slots.nextPart w.policy.chunk).2), ?_⟩
  intro c
  simp only [flush, Writing.execute_bind, Writing.execute_writer, hslots, hempty,
    Bool.false_eq_true, if_false]

theorem flush_asking (w : Writer) (c : Context σ) {limit : Nat}
    (h : w.staged ≠ ByteArray.empty → w.parts.length + 1 ≤ limit) :
    flush.Asking (fun x => x.NumberedTo limit) w c := by
  by_cases hstaged : w.staged = ByteArray.empty
  · apply Writing.Asking.of_nothing
    rw [flush_of_staged_empty hstaged]
    exact .refl c
  · obtain ⟨body, slots', hflush⟩ := flush_of_staged (σ := σ) hstaged
    rw [Writing.Asking, hflush]
    exact (sendPart_asking w c body (h hstaged)).bind fun _ _ _ _ => Writing.asking_change _

theorem sendRest_asking (w : Writer) (c : Context σ) {limit : Nat}
    (h : w.staged ≠ ByteArray.empty ∨ w.parts = [] → w.parts.length + 1 ≤ limit) :
    sendRest.Asking (fun x => x.NumberedTo limit) w c := by
  apply (flush_asking w c fun hstaged => h (.inl hstaged)).bind
  intro _ w₁ c₁ hrun
  apply Writing.asking_writer.bind
  rintro _ _ _ hwriter
  cases hwriter
  by_cases hempty : w₁.parts = []
  · have hsame : w₁ = w := by
      by_cases hstaged : w.staged = ByteArray.empty
      · rw [flush_of_staged_empty hstaged] at hrun
        cases hrun
        rfl
      · -- a part was sent
        obtain ⟨body, slots', hflush⟩ := flush_of_staged (σ := σ) hstaged
        rw [hflush, Writing.execute_bind_eq_ok] at hrun
        obtain ⟨⟨⟩, w₂, c₂, hsend, hchange⟩ := hrun
        obtain ⟨part, rfl, -⟩ := sendPart_eq_ok hsend
        cases hchange
        simp at hempty
    subst hsame
    simp only [hempty, List.isEmpty_nil, if_true]
    exact sendPart_asking w₁ c₁ _ (h (.inr hempty))
  · simp only [List.isEmpty_eq_false_iff.mpr hempty, Bool.false_eq_true, if_false]
    exact Writing.asking_pure ()

/-- A commit sends a part under the next number, unless there are parts and nothing is staged. -/
theorem sendRest_asks_next (w : Writer) (c : Context σ)
    (h : w.staged ≠ ByteArray.empty ∨ w.parts = []) :
    ∃ xs, c.Asks (sendRest.execute w c).2.2 xs ∧
      ∃ x ∈ xs, x.request.Stores w.session.uploadId (w.parts.length + 1) := by
  by_cases hstaged : w.staged = ByteArray.empty
  · have hempty : w.parts = [] := h.resolve_left (not_not_intro hstaged)
    have hnil : w.parts.isEmpty = true := by rw [hempty]; rfl
    simp only [sendRest, Writing.execute_bind, flush_of_staged_empty hstaged,
      Writing.execute_writer, hnil, if_true]
    exact ⟨_, sendPart_exchange w c _, _, List.mem_singleton_self _, .inl ⟨_, _, _, rfl⟩⟩
  · obtain ⟨body, slots', hflush⟩ := flush_of_staged (σ := σ) hstaged
    have hasks := sendPart_exchange w c body
    rw [sendRest, Writing.execute_bind, hflush, Writing.execute_bind]
    rcases hsend : (sendPart body).execute w c with ⟨e | ⟨⟩, w₁, c₁⟩ <;> rw [hsend] at hasks
    · exact ⟨_, hasks, _, List.mem_singleton_self _, .inl ⟨_, _, _, rfl⟩⟩
    · obtain ⟨part, rfl, -⟩ := sendPart_eq_ok hsend
      have hnonempty : (w.parts ++ [part]).isEmpty = false := by simp
      simp only [Writing.execute_change, Writing.execute_bind, Writing.execute_writer, hnonempty,
        Bool.false_eq_true, if_false, Writing.execute_pure]
      exact ⟨_, hasks, _, List.mem_singleton_self _, .inl ⟨_, _, _, rfl⟩⟩

theorem commit_asks_next (hphase : w.phase = .active) (hsource : w.sourceCompleted = false)
    (h : w.staged ≠ ByteArray.empty ∨ w.parts = []) (c : Context σ) :
    ∃ xs, c.Asks (commit.execute w c).2.2 xs ∧
      ∃ x ∈ xs, x.request.Stores w.session.uploadId (w.parts.length + 1) := by
  obtain ⟨xs, hasks, x, hx, hstores⟩ := sendRest_asks_next w c h
  rw [commit_eq hphase hsource, Writing.execute_bind]
  rcases hrest : sendRest.execute w c with ⟨e | ⟨⟩, w₁, c₁⟩ <;> rw [hrest] at hasks
  · exact ⟨xs, hasks, x, hx, hstores⟩
  · obtain ⟨c₂, hrelease, hasks₂⟩ := release_asks { w₁ with phase := .committed } c₁
    have hall := hasks.trans hasks₂
    simp only [enter, Writing.execute_bind, Writing.execute_change, hrelease]
    rcases complete_asks { w₁ with phase := .committed, slots := none } c₂ with
      ⟨c₃, hrun, hasks₃, -⟩ | ⟨e, y, c₃, hrun, hasks₃, -⟩ <;> rw [hrun]
    · exact ⟨_, hall.trans hasks₃, x, by simp [hx], hstores⟩
    · exact ⟨_, hall.trans hasks₃, x, by simp [hx], hstores⟩

/-! The size of a writer is left alone by the calls that finish it. -/

theorem flush_size (w : Writer) (c : Context σ) : (flush.execute w c).2.1.size = w.size := by
  by_cases hstaged : w.staged = ByteArray.empty
  · rw [flush_of_staged_empty hstaged]
  · obtain ⟨body, slots', hflush⟩ := flush_of_staged (σ := σ) hstaged
    rw [hflush, Writing.execute_bind]
    rcases hsend : (sendPart body).execute w c with ⟨e | ⟨⟩, w₁, c₁⟩ <;>
      rcases sendPart_surplus hsend with ⟨rfl, -⟩ | ⟨-, part, rfl, -⟩ <;> rfl

theorem sendRest_size (w : Writer) (c : Context σ) : (sendRest.execute w c).2.1.size = w.size := by
  have hflush := flush_size w c
  rw [sendRest, Writing.execute_bind]
  rcases hrun : flush.execute w c with ⟨e | ⟨⟩, w₁, c₁⟩ <;> rw [hrun] at hflush
  · exact hflush
  · simp only [Writing.execute_bind, Writing.execute_writer]
    split
    · rcases hsend : (sendPart ByteArray.empty).execute w₁ c₁ with ⟨sent, w₂, c₂⟩
      rcases sendPart_surplus hsend with ⟨rfl, -⟩ | ⟨-, part, rfl, -⟩ <;> exact hflush
    · exact hflush

theorem flushRelease_writer (w : Writer) (c : Context σ) : (flushRelease.execute w c).2.1 =
    { (flush.execute w c).2.1 with slots := none } := by
  obtain ⟨c₁, hrelease, -⟩ := release_asks (flush.execute w c).2.1 (flush.execute w c).2.2
  simp only [flushRelease, Writing.execute_bind, Writing.execute_attempt, hrelease, countEnding,
    Writing.execute_ofRun, Run.execute_count]
  rcases (flush.execute w c).1 with e | ⟨⟩ <;> rfl

theorem close_size (hphase : w.phase = .active) (c : Context σ) :
    (close.execute w c).2.1.size = w.size := by
  have hflush : ∀ c : Context σ,
      (flushRelease.execute { w with phase := .closed } c).2.1.size = w.size := by
    intro c
    rw [flushRelease_writer]
    exact flush_size _ c
  simp only [close, enter, Writing.execute_bind, ensureActive_of_active hphase,
    Writing.execute_writer, Writing.execute_change]
  rcases w.sourceCompleted
  · exact hflush c
  · exact hflush _

/-- A call that finishes a writer, or leaves it as it is, takes nothing in. -/
theorem finish_takes_nothing {op : Operation} {result : Except Error Unit}
    (hphase : w.phase = .active) (hop : ∀ data, op ≠ .write data)
    (hrun : op.run.execute w c = (result, w', c')) :
    w'.size = w.size ∧ (w'.phase = .active → w' = w) := by
  obtain ⟨xs, -, hstep⟩ := step_of_run hphase op hrun
  have hsize := close_size hphase c
  have hrest := sendRest_size w c
  cases hstep with
  | closed hsends =>
    change close.execute w c = _ at hrun
    rw [hrun] at hsize
    exact ⟨hsize, fun hactive => by simp [hsends.advances.phase_eq] at hactive⟩
  | committedBefore => exact ⟨rfl, by simp⟩
  | restNotSent => exact ⟨rfl, fun _ => rfl⟩
  | committed _ hsent =>
    rw [hsent] at hrest
    exact ⟨hrest, by simp⟩
  | notCommitted _ hsent =>
    rw [hsent] at hrest
    exact ⟨hrest, by simp⟩
  | cancelledBefore => exact ⟨rfl, by simp⟩
  | cancelled => exact ⟨rfl, by simp⟩
  | _ => exact absurd rfl (hop _)

end Writer

end ResumableStorage
