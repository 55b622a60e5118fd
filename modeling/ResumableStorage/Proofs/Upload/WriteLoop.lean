/-
  ResumableStorage/Proofs/Upload/WriteLoop.lean
  =============================================
  **The loop of a write** — bytes are taken in by rounds, each of which fills the slots and
  sends the first of them when both are full.  A round may take in nothing, when it meets
  two full slots that an earlier write has left; the part that it sends makes room, so the
  next round takes in something.  This ends the loop from whatever the slots hold.

  How many parts go out, what they hold and what is left in the slots is followed round by
  round, on any service, also when a part fails.
-/
import ResumableStorage.Proofs.Upload.Numbering

namespace ResumableStorage

namespace Writer

variable {σ : Type} [Service σ] {w w' : Writer} {c c' : Context σ} {policy : Policy} {data : Bytes}
  {slots slots' : Slots} {offset offset' : Nat} {takes : List Nat} {result : Except Error Nat}

/-! ## 1. Rounds -/

/-- One round of the loop.  Gives the slots and the offset that the next round meets. -/
def round (policy : Policy) (data : Bytes) (slots : Slots) (offset : Nat) :
    Writing σ (Slots × Nat) := do
  let filled := slots.fill policy.chunk data offset
  stage policy data slots offset
  if filled.1.pending.isFull policy.chunk then do
    sendPart filled.1.ready.held
    Writing.change fun w => { w with slots := some filled.1.shift }
    return (filled.1.shift, offset + filled.2)
  else return (filled.1, offset + filled.2)

/-- The loop is its rounds, until all bytes are taken in. -/
theorem feed_eq_rounds (policy : Policy) (data : Bytes) (slots : Slots) (offset : Nat) :
    (feed policy data slots offset : Writing σ Nat) =
      if offset < data.size then
        round policy data slots offset >>= fun next => feed policy data next.1 next.2
      else pure offset := by
  rw [feed]
  by_cases hfull : (slots.fill policy.chunk data offset).1.pending.isFull policy.chunk = true
  · simp only [round, hfull, if_true, bind_assoc, pure_bind]
  · simp only [round, hfull, if_false, Bool.false_eq_true, bind_assoc, pure_bind]

/-- A run of the loop, round by round, with the number of bytes that each has taken in. -/
inductive Rounds (policy : Policy) (data : Bytes) : Slots → Nat → Writer → Context σ → List Nat →
    Except Error Nat → Writer → Context σ → Prop
  | done {slots : Slots} {offset : Nat} {w : Writer} {c : Context σ} (hall : data.size ≤ offset) :
      Rounds policy data slots offset w c [] (.ok offset) w c
  | raised {slots : Slots} {offset : Nat} {w w' : Writer} {c c' : Context σ} {e : Error}
      (hleft : offset < data.size)
      (hround : (round policy data slots offset).execute w c = (.error e, w', c')) :
      Rounds policy data slots offset w c [(slots.fill policy.chunk data offset).2] (.error e) w' c'
  | next {slots slots₁ : Slots} {offset offset₁ : Nat} {w w₁ w' : Writer} {c c₁ c' : Context σ}
      {takes : List Nat} {result : Except Error Nat} (hleft : offset < data.size)
      (hround : (round policy data slots offset).execute w c = (.ok (slots₁, offset₁), w₁, c₁))
      (rest : Rounds policy data slots₁ offset₁ w₁ c₁ takes result w' c') :
      Rounds policy data slots offset w c ((slots.fill policy.chunk data offset).2 :: takes) result
        w' c'

/-- A round goes on from the bytes that it has taken in: with room in the slots, or with the second of
them moved to the first after a part was sent. -/
theorem round_eq_ok {w₁ : Writer} {c₁ : Context σ}
    (h : (round policy data slots offset).execute w c = (.ok (slots', offset'), w₁, c₁)) :
    offset' = offset + (slots.fill policy.chunk data offset).2 ∧
      ((slots.fill policy.chunk data offset).1.pending.isFull policy.chunk = false ∧
          slots' = (slots.fill policy.chunk data offset).1 ∨
        (slots.fill policy.chunk data offset).1.pending.isFull policy.chunk = true ∧
          slots' = (slots.fill policy.chunk data offset).1.shift) := by
  simp only [round, Writing.execute_bind, execute_stage] at h
  split at h
  · rename_i hfull
    obtain ⟨_, w₂, c₂, -, h⟩ := Writing.execute_bind_eq_ok.mp h
    obtain ⟨_, w₃, c₃, -, h⟩ := Writing.execute_bind_eq_ok.mp h
    cases h
    exact ⟨rfl, .inr ⟨hfull, rfl⟩⟩
  · rename_i hroom
    cases h
    exact ⟨rfl, .inl ⟨eq_false_of_ne_true hroom, rfl⟩⟩

/-- The loop always ends, whatever the slots hold and whatever becomes of the parts. -/
theorem feed_rounds (policy : Policy) (data : Bytes) (slots : Slots) (offset : Nat) (w : Writer)
    (c : Context σ) : ∃ takes result w' c',
      (feed policy data slots offset).execute w c = (result, w', c') ∧
        Rounds policy data slots offset w c takes result w' c' := by
  induction slots, offset using feed.induct policy data generalizing w c with
  | case1 slots offset hlt filled hfull ih =>
    rw [feed_eq_rounds, if_pos hlt, Writing.execute_bind]
    rcases hround : (round policy data slots offset).execute w c with ⟨e | ⟨slots₁, offset₁⟩, w₁, c₁⟩
    · exact ⟨_, _, _, _, rfl, .raised hlt hround⟩
    · obtain ⟨rfl, ⟨hroom, -⟩ | ⟨-, rfl⟩⟩ := round_eq_ok hround
      · rw [hfull] at hroom
        cases hroom
      · obtain ⟨takes, result, w', c', hfeed, hrounds⟩ := ih w₁ c₁
        exact ⟨_, result, w', c', hfeed, .next hlt hround hrounds⟩
  | case2 slots offset hlt filled hroom ih =>
    rw [feed_eq_rounds, if_pos hlt, Writing.execute_bind]
    rcases hround : (round policy data slots offset).execute w c with ⟨e | ⟨slots₁, offset₁⟩, w₁, c₁⟩
    · exact ⟨_, _, _, _, rfl, .raised hlt hround⟩
    · obtain ⟨rfl, ⟨-, rfl⟩ | ⟨hfull, -⟩⟩ := round_eq_ok hround
      · obtain ⟨takes, result, w', c', hfeed, hrounds⟩ := ih w₁ c₁
        exact ⟨_, result, w', c', hfeed, .next hlt hround hrounds⟩
      · exact absurd hfull hroom
  | case3 slots offset hge =>
    rw [feed_eq_rounds, if_neg hge]
    exact ⟨[], _, _, _, rfl, .done (Nat.le_of_not_lt hge)⟩

/-! ## 2. Progress -/

/-- When bytes are left there is a round, and what it takes in is what the slots have room for. -/
theorem Rounds.exists_first (h : Rounds policy data slots offset w c takes result w' c')
    (hleft : offset < data.size) :
    ∃ rest, takes = (slots.fill policy.chunk data offset).2 :: rest := by
  cases h with
  | done hall => omega
  | raised => exact ⟨[], rfl⟩
  | @next _ _ _ _ _ _ _ _ _ _ takes => exact ⟨takes, rfl⟩

/-- A round that returns leaves room in the slots. -/
theorem room_after_round {w₁ : Writer} {c₁ : Context σ}
    (hround : (round policy data slots offset).execute w c = (.ok (slots', offset'), w₁, c₁)) :
    slots'.pending.isFull policy.chunk = false := by
  rcases (round_eq_ok hround).2 with ⟨hroom, rfl⟩ | ⟨-, rfl⟩
  · exact hroom
  · exact Slots.pending_shift_not_full _ policy.chunk_pos

/-- A round that returns and has taken in nothing is followed by one that takes in something. -/
theorem fill_after_idle_round {w₁ : Writer} {c₁ : Context σ} (hleft : offset < data.size)
    (hround : (round policy data slots offset).execute w c = (.ok (slots', offset'), w₁, c₁))
    (hidle : (slots.fill policy.chunk data offset).2 = 0) :
    offset' = offset ∧ 0 < (slots'.fill policy.chunk data offset').2 := by
  obtain rfl : offset' = offset := by rw [(round_eq_ok hround).1, hidle, Nat.add_zero]
  refine ⟨rfl, Nat.pos_of_ne_zero fun hzero => ?_⟩
  have hfull := Slots.pending_full_of_count_eq_zero hzero hleft
  rw [room_after_round hround] at hfull
  cases hfull

/-- Each round takes in something, or the next one does, unless it is the last one and raises. -/
theorem Rounds.progress (h : Rounds policy data slots offset w c takes result w' c') (i : Nat)
    (hi : i < takes.length) : 0 < takes.getD i 0 ∨ 0 < takes.getD (i + 1) 0 ∨
      i + 1 = takes.length ∧ ∃ e, result = .error e := by
  induction h generalizing i with
  | done => simp at hi
  | @raised slots offset w w' c c' e hleft hround =>
    right
    right
    rw [List.length_singleton] at hi ⊢
    exact ⟨by omega, e, rfl⟩
  | @next slots slots₁ offset offset₁ w w₁ w' c c₁ c' takes result hleft hround rest ih =>
    rcases i with _ | i
    · rcases Nat.eq_zero_or_pos (slots.fill policy.chunk data offset).2 with hidle | hpos
      · obtain ⟨rfl, hpos⟩ := fill_after_idle_round hleft hround hidle
        obtain ⟨more, rfl⟩ := rest.exists_first hleft
        exact .inr (.inl hpos)
      · exact .inl hpos
    · rw [List.length_cons] at hi ⊢
      rcases ih i (by omega) with hthis | hnext | ⟨hlast, hraised⟩
      · exact .inl hthis
      · exact .inr (.inl hnext)
      · exact .inr (.inr ⟨by omega, hraised⟩)

/-- The rounds are no more than twice the bytes that are left, and one more for two full slots. -/
theorem Rounds.length_le (h : Rounds policy data slots offset w c takes result w' c') :
    takes.length ≤ 2 * (data.size - offset) + (slots.pending.isFull policy.chunk).toNat := by
  induction h with
  | done => simp
  | raised hleft =>
    rw [List.length_singleton]
    omega
  | @next slots slots₁ offset offset₁ w w₁ w' c c₁ c' takes result hleft hround rest ih =>
    rw [room_after_round hround, (round_eq_ok hround).1] at ih
    rw [List.length_cons]
    rcases Nat.eq_zero_or_pos (slots.fill policy.chunk data offset).2 with hidle | hpos
    · rw [hidle] at ih
      rw [Slots.pending_full_of_count_eq_zero hidle hleft]
      simp only [Bool.toNat_false, Bool.toNat_true] at ih ⊢
      omega
    · simp only [Bool.toNat_false] at ih
      omega

/-! ## 3. One round -/

/-- The request for the next part of a writer. -/
def nextPartRequest (w : Writer) (body : Bytes) : Request :=
  .uploadPart w.session.bucket w.session.key w.session.uploadId (w.parts.length + 1) body

/-- How a round can end that has taken in `n` bytes: nothing was to be sent, or the first slot became
a part, or that failed and both slots are full. -/
inductive RoundEnds (w : Writer) (filled : Slots) (n offset : Nat) :
    Except Error (Slots × Nat) → Writer → List Request → Prop
  | filled (hroom : filled.pending.isFull w.policy.chunk = false) :
      RoundEnds w filled n offset (.ok (filled, offset + n))
        { w with slots := some filled, size := w.size + n } []
  | sent (hfull : filled.pending.isFull w.policy.chunk = true) (part : Part) :
      RoundEnds w filled n offset (.ok (filled.shift, offset + n))
        { w with parts := w.parts ++ [part], slots := some filled.shift, size := w.size + n }
        [w.nextPartRequest filled.ready.held]
  | failed (hfull : filled.pending.isFull w.policy.chunk = true) (e : Error) :
      RoundEnds w filled n offset (.error e) { w with slots := some filled, size := w.size + n }
        [w.nextPartRequest filled.ready.held]

/-- The inversion of a round that meets slots in order, while bytes are left. -/
theorem round_ends {next : Except Error (Slots × Nat)} (hfits : slots.Fits w.policy.chunk)
    (hleft : offset < data.size)
    (hround : (round w.policy data slots offset).execute w c = (next, w', c')) :
    ∃ filled n xs, slots.fill w.policy.chunk data offset = (filled, n) ∧
      filled.Fits w.policy.chunk ∧ offset + n ≤ data.size ∧ c.Asks c' xs ∧
      RoundEnds w filled n offset next w' (xs.map (·.request)) := by
  have hfits' := hfits.fill data offset
  have hle := Slots.fill_count_le slots w.policy.chunk hleft.le
  rcases hfill : slots.fill w.policy.chunk data offset with ⟨filled, n⟩
  rw [hfill] at hfits' hle
  simp only [round, execute_stage, hfill, Writing.execute_bind] at hround
  have hstaged : c.Asks { c with pool := c.pool.putBoth slots w.policy.chunk data offset } [] :=
    .nothing rfl rfl
  generalize { c with pool := c.pool.putBoth slots w.policy.chunk data offset } = c₀ at hround hstaged
  split at hround
  · rename_i hfull
    have hasks := hstaged.trans (sendPart_exchange
      { w with slots := some filled, size := w.size + n } c₀ filled.ready.held)
    rw [Writing.execute_bind] at hround
    rcases hsend : (sendPart filled.ready.held).execute
      { w with slots := some filled, size := w.size + n } c₀ with ⟨e | ⟨⟩, w₁, c₁⟩
    · rw [hsend] at hround hasks
      obtain ⟨rfl, -⟩ | ⟨hsent, -⟩ := sendPart_surplus hsend
      · cases hround
        exact ⟨filled, n, _, rfl, hfits', hle, hasks, .failed hfull e⟩
      · cases hsent
    · rw [hsend] at hround hasks
      obtain ⟨part, rfl, -⟩ := sendPart_eq_ok hsend
      cases hround
      exact ⟨filled, n, _, rfl, hfits', hle, hasks, .sent hfull part⟩
  · rename_i hroom
    cases hround
    exact ⟨filled, n, [], rfl, hfits', hle, hstaged, .filled (eq_false_of_ne_true hroom)⟩

/-! ## 4. All rounds -/

/-- The requests for the next parts of a writer, one behind the other. -/
def partRequests (w : Writer) (bodies : List Bytes) : List Request :=
  (Part.numberedFrom (w.parts.length + 1) bodies).map fun e =>
    .uploadPart w.session.bucket w.session.key w.session.uploadId e.1 e.2

theorem partRequests_cons (w : Writer) (part : Part) (slots? : Option Slots) (size : Int)
    (body : Bytes) (bodies : List Bytes) : w.partRequests (body :: bodies) =
      w.nextPartRequest body ::
        partRequests { w with parts := w.parts ++ [part], slots := slots?, size := size } bodies := by
  simp only [partRequests, Part.numberedFrom, List.map_cons, nextPartRequest, List.length_append,
    List.length_singleton, Nat.cast_add, Nat.cast_one]

/-- What has become of a writer when `taken` bytes of `data` from `offset` on went through its slots:
so many parts were sent, full chunks all of them, and the rest is in the slots. -/
structure Poured (w : Writer) (data : Bytes) (slots : Slots) (offset : Nat) (w' : Writer)
    (slots' : Slots) (sent : List Bytes) (taken : Nat) : Prop where
  writer : ∃ parts, parts.length = sent.length ∧ w' = { w with
    parts := w.parts ++ parts, slots := some slots', size := w.size + taken }
  fits : slots'.Fits w.policy.chunk
  chunks : ∀ body ∈ sent, body.size = w.policy.chunk
  taken_le : offset + taken ≤ data.size
  bytes : Bytes.concat sent ++ slots'.staged = slots.staged ++ data.extract offset (offset + taken)
  /-- Once the first slot is full it is never left half full. -/
  ready : sent ≠ [] ∨ slots.ready.held.size = w.policy.chunk → slots'.ready.held.size = w.policy.chunk

theorem Poured.nothing (hslots : w.slots = some slots) (hfits : slots.Fits w.policy.chunk)
    (hle : offset ≤ data.size) : Poured w data slots offset w slots [] 0 := by
  refine ⟨⟨[], rfl, ?_⟩, hfits, by simp, hle, by simp, fun h => h.resolve_left (by simp)⟩
  simp [← hslots]

/-- Some bytes are taken in and then others. -/
theorem Poured.behind {filled : Slots} {n taken : Nat} {sent : List Bytes}
    (hfill : slots.fill w.policy.chunk data offset = (filled, n)) (hfits : slots.Fits w.policy.chunk)
    (h : Poured { w with slots := some filled, size := w.size + n } data filled (offset + n) w' slots'
      sent taken) : Poured w data slots offset w' slots' sent (n + taken) := by
  have hstaged := hfits.staged_fill data offset
  have hready : slots.ready.held.size = w.policy.chunk →
      (slots.fill w.policy.chunk data offset).1.ready.held.size = w.policy.chunk :=
    fun hfull => Slots.fill_ready_of_full hfull data offset
  rw [hfill] at hstaged hready
  obtain ⟨⟨parts, hlength, hw'⟩, hfits', hchunks, hle, hbytes, hkept⟩ := h
  refine ⟨⟨parts, hlength, ?_⟩, hfits', hchunks, by omega, ?_, ?_⟩
  · rw [hw', Nat.cast_add, ← Int.add_assoc]
  · rw [hbytes, hstaged, ByteArray.append_assoc, ByteArray.extract_append_extract]
    congr 2 <;> omega
  · rintro (hsent | hfull)
    · exact hkept (.inl hsent)
    · exact hkept (.inr (hready hfull))

/-- The first of two full slots becomes a part, and then bytes are taken in. -/
theorem Poured.sent {taken : Nat} {part : Part} {sent : List Bytes}
    (hfull : slots.pending.isFull w.policy.chunk = true) (hfits : slots.Fits w.policy.chunk)
    (h : Poured { w with parts := w.parts ++ [part], slots := some slots.shift } data slots.shift
      offset w' slots' sent taken) :
    Poured w data slots offset w' slots' (slots.ready.held :: sent) taken := by
  obtain ⟨⟨parts, hlength, hw'⟩, hfits', hchunks, hle, hbytes, hkept⟩ := h
  refine ⟨⟨part :: parts, by simp [hlength], ?_⟩, hfits', ?_, hle, ?_, ?_⟩
  · rw [hw', List.append_assoc, List.singleton_append]
  · exact List.forall_mem_cons.mpr ⟨hfits.ready_eq hfull, hchunks⟩
  · rw [Bytes.concat_cons, ByteArray.append_assoc, hbytes, Slots.staged_shift,
      ← ByteArray.append_assoc]
    rfl
  · intro _
    exact hkept (.inr (hfits.pending_eq hfull))

/-- How the loop can end: all bytes were taken in, which it tells, and there is room in the slots, or a
part has failed and both slots are full. -/
inductive LoopEnds (w : Writer) (data : Bytes) (offset taken : Nat) (sent : List Bytes)
    (slots' : Slots) : Except Error Nat → List Request → Prop
  | returned (hall : offset + taken = data.size)
      (hroom : slots'.pending.isFull w.policy.chunk = false) :
      LoopEnds w data offset taken sent slots' (.ok data.size) (w.partRequests sent)
  | raised (hfull : slots'.pending.isFull w.policy.chunk = true) (e : Error) :
      LoopEnds w data offset taken sent slots' (.error e)
        (w.partRequests (sent ++ [slots'.ready.held]))

theorem LoopEnds.behind {n taken : Nat} {sent : List Bytes} {slots? : Option Slots}
    {requests : List Request}
    (h : LoopEnds { w with slots := slots?, size := w.size + n } data (offset + n) taken sent slots'
      result requests) : LoopEnds w data offset (n + taken) sent slots' result requests := by
  cases h with
  | returned hall hroom => exact LoopEnds.returned (w := w) (by omega) hroom
  | raised hfull e => exact LoopEnds.raised (w := w) hfull e

theorem LoopEnds.sent {n taken : Nat} {part : Part} {body : Bytes} {sent : List Bytes}
    {slots? : Option Slots} {requests : List Request}
    (h : LoopEnds { w with parts := w.parts ++ [part], slots := slots?, size := w.size + n } data
      (offset + n) taken sent slots' result requests) :
    LoopEnds w data offset (n + taken) (body :: sent) slots' result
      (w.nextPartRequest body :: requests) := by
  cases h with
  | returned hall hroom =>
    rw [← partRequests_cons]
    exact LoopEnds.returned (w := w) (by omega) hroom
  | raised hfull e =>
    rw [← partRequests_cons]
    exact LoopEnds.raised (w := w) hfull e

/-- The invariant of the loop, carried from round to round. -/
theorem Rounds.poured (h : Rounds policy data slots offset w c takes result w' c')
    (hpolicy : w.policy = policy) (hslots : w.slots = some slots) (hfits : slots.Fits policy.chunk)
    (hle : offset ≤ data.size)
    (hstart : offset < data.size ∨ slots.pending.isFull policy.chunk = false) :
    ∃ slots' sent xs, Poured w data slots offset w' slots' sent takes.sum ∧ c.Asks c' xs ∧
      LoopEnds w data offset takes.sum sent slots' result (xs.map (·.request)) := by
  induction h with
  | @done slots offset w c hall =>
    subst hpolicy
    obtain rfl : offset = data.size := by omega
    exact ⟨slots, [], [], .nothing hslots hfits hle, .refl c,
      .returned (by simp) (hstart.resolve_left (by omega))⟩
  | @raised slots offset w w' c c' e hleft hround =>
    subst hpolicy
    obtain ⟨filled, n, xs, hfill, hfits₁, hle₁, hasks, hends⟩ := round_ends hfits hleft hround
    rw [hfill]
    generalize hxs : xs.map (·.request) = requests at hends
    cases hends with
    | failed hfull =>
      refine ⟨filled, [], xs, ?_, hasks, ?_⟩
      · exact Poured.behind hfill hfits (.nothing rfl hfits₁ hle₁)
      · rw [hxs]
        exact .raised hfull e
  | @next slots slots₁ offset offset₁ w w₁ w' c c₁ c' takes result hleft hround rest ih =>
    subst hpolicy
    have hroom₁ := room_after_round hround
    obtain ⟨filled, n, xs, hfill, hfits₁, hle₁, hasks, hends⟩ := round_ends hfits hleft hround
    rw [hfill]
    generalize hxs : xs.map (·.request) = requests at hends
    cases hends with
    | filled hroom =>
      obtain ⟨slots', sent, ys, hpoured, hasks', hrest⟩ := ih rfl rfl hfits₁ hle₁ (.inr hroom₁)
      refine ⟨slots', sent, xs ++ ys, ?_, hasks.trans hasks', ?_⟩
      · exact hpoured.behind hfill hfits
      · rw [List.map_append, hxs]
        exact hrest.behind
    | sent hfull part =>
      obtain ⟨slots', sent, ys, hpoured, hasks', hrest⟩ :=
        ih rfl rfl hfits₁.shift hle₁ (.inr hroom₁)
      refine ⟨slots', filled.ready.held :: sent, xs ++ ys, ?_, hasks.trans hasks', ?_⟩
      · exact Poured.behind hfill hfits (.sent hfull hfits₁ hpoured)
      · rw [List.map_append, hxs]
        exact hrest.sent

/-- Of full chunks in front of a rest with room in the slots there are as many as the bytes make, less
the one that is held back. -/
theorem Poured.length_eq {sent : List Bytes} {taken : Nat}
    (h : Poured w data slots offset w' slots' sent taken)
    (hroom : slots'.pending.isFull w.policy.chunk = false) :
    sent.length = (slots.staged.size + taken) / w.policy.chunk - 1 := by
  have hle := h.taken_le
  have hsent : sent.map ByteArray.size = List.replicate sent.length w.policy.chunk := by
    rw [List.map_eq_replicate_iff]
    exact h.chunks
  have htotal : sent.length * w.policy.chunk + slots'.staged.size = slots.staged.size + taken := by
    have hbytes := congrArg ByteArray.size h.bytes
    rw [ByteArray.size_append, Bytes.size_concat, hsent, List.sum_replicate, smul_eq_mul,
      ByteArray.size_append, ByteArray.size_extract] at hbytes
    omega
  have hready := h.fits.ready_le
  rw [Slot.isFull, decide_eq_false_iff_not] at hroom
  have hstaged : slots'.staged.size = slots'.ready.held.size + slots'.pending.held.size :=
    ByteArray.size_append
  symm
  apply w.policy.count_eq htotal
  · omega
  · intro hne
    have hfull := h.ready (.inl (by simpa using hne))
    omega

/-- What the loop makes of a writer, from two slots on: `takes` is what its rounds have taken in of
`data`, and `sent` are the parts that they have sent. -/
structure Loops (w : Writer) (c : Context σ) (data : Bytes) (slots : Slots) (takes : List Nat)
    (sent : List Bytes) (result : Except Error Nat) (w' : Writer) (c' : Context σ) : Prop where
  rounds : Rounds w.policy data slots 0 w c takes result w' c'
  /-- A round that does not raise takes in something, or the next one does. -/
  progress : ∀ i < takes.length, 0 < takes.getD i 0 ∨ 0 < takes.getD (i + 1) 0 ∨
    i + 1 = takes.length ∧ ∃ e, result = .error e
  ends : takes.length ≤ 2 * data.size + 1
  size : w'.size = w.size + takes.sum
  taken_le : takes.sum ≤ data.size
  /-- The bytes of the slots and those that were taken in are sent, or staged still. -/
  bytes : Bytes.concat sent ++ w'.staged = w.staged ++ data.extract 0 takes.sum
  chunks : ∀ body ∈ sent, body.size = w.policy.chunk
  parts : w'.parts.length = w.parts.length + sent.length
  /-- All bytes were taken in, and that is what is told.  All chunks were sent that they make, less the
  one that is held back. -/
  returned : ∀ told, result = .ok told → told = data.size ∧ takes.sum = data.size ∧
    w'.pending.size < w.policy.chunk ∧
    sent.length = (w.staged.size + data.size) / w.policy.chunk - 1 ∧
    ∃ xs, c.Asks c' xs ∧ xs.map (·.request) = w.partRequests sent
  /-- The part that failed is in the first of two full slots. -/
  raised : ∀ e, result = .error e →
    w'.ready.size = w.policy.chunk ∧ w'.pending.size = w.policy.chunk ∧
    ∃ xs, c.Asks c' xs ∧ xs.map (·.request) = w.partRequests (sent ++ [w'.ready])

theorem feed_loops (hslots : w.slots = some slots) (hfits : slots.Fits w.policy.chunk)
    (hdata : data.size ≠ 0) (c : Context σ) : ∃ takes sent result w' c',
      (feed w.policy data slots 0).execute w c = (result, w', c') ∧
        Loops w c data slots takes sent result w' c' := by
  obtain ⟨takes, result, w', c', hfeed, hrounds⟩ := feed_rounds w.policy data slots 0 w c
  obtain ⟨slots', sent, xs, hpoured, hasks, hends⟩ :=
    hrounds.poured rfl hslots hfits (Nat.zero_le _) (.inl (by omega))
  have hlength := hrounds.length_le
  have hle := hpoured.taken_le
  have hbytes := hpoured.bytes
  obtain ⟨new, hnew, hw'⟩ := hpoured.writer
  have hslots' : w'.slots = some slots' := by rw [hw']
  have hready : w'.ready = slots'.ready.held := by rw [ready, hslots']
  have hpending : w'.pending = slots'.pending.held := by rw [pending, hslots']
  rw [Nat.zero_add] at hle hbytes
  rw [← staged_of_slots hslots, ← staged_of_slots hslots'] at hbytes
  refine ⟨takes, sent, result, w', c', hfeed, hrounds, hrounds.progress, ?_, ?_, hle, hbytes,
    hpoured.chunks, ?_, ?_, ?_⟩
  · have hbit := Bool.toNat_le (slots.pending.isFull w.policy.chunk)
    omega
  · rw [hw']
  · rw [hw', List.length_append, hnew]
  · rintro told rfl
    generalize hxs : xs.map (·.request) = requests at hends
    cases hends with
    | returned hall hroom =>
      have hcount := hpoured.length_eq hroom
      rw [Nat.zero_add] at hall
      rw [hall, ← staged_of_slots hslots] at hcount
      rw [Slot.isFull, decide_eq_false_iff_not, ← hpending] at hroom
      exact ⟨rfl, hall, Nat.not_le.mp hroom, hcount, xs, hasks, hxs⟩
  · rintro e rfl
    generalize hxs : xs.map (·.request) = requests at hends
    cases hends with
    | raised hfull =>
      rw [hready, hpending]
      exact ⟨hpoured.fits.ready_eq hfull, hpoured.fits.pending_eq hfull, xs, hasks, hxs⟩

/-! ## 5. Writes -/

/-- What stands in front of the loop: an upload that has to be replaced is, and slots are lent. -/
def prepare : Writing σ Slots := do
  if (← Writing.writer).repair matches .required _ then replaceSession
  borrow

theorem prepare_of_settled (hrepair : ∀ b, w.repair ≠ .required b) :
    prepare.execute w c = borrow.execute w c := by
  rcases hw : w.repair with _ | b | _
  · simp [prepare, Writing.execute_bind, hw]
  · exact absurd hw (hrepair b)
  · simp [prepare, Writing.execute_bind, hw]

theorem prepare_of_required {b : Bool} (hrepair : w.repair = .required b) :
    prepare.execute w c = (replaceSession >>= fun _ => borrow).execute w c := by
  simp [prepare, Writing.execute_bind, hrepair]

theorem write_eq_prepare (hphase : w.phase = .active) (hdata : data.size ≠ 0) :
    (write data).execute w c =
      (prepare >>= fun slots => Writing.writer >>= fun w => feed w.policy data slots 0).execute
        w c := by
  by_cases hrepair : ∃ b, w.repair = .required b
  · obtain ⟨b, hrepair⟩ := hrepair
    rw [write_of_required hphase hrepair hdata, Writing.execute_bind prepare,
      prepare_of_required hrepair, ← Writing.execute_bind]
    simp only [takeIn, bind_assoc]
  · rw [not_exists] at hrepair
    rw [write_of_settled hphase hrepair hdata, Writing.execute_bind prepare,
      prepare_of_settled hrepair, ← Writing.execute_bind]
    simp only [takeIn]

/-- What the loop meets: slots in which the bytes lie in order. -/
structure Prepared (w w₁ : Writer) (slots : Slots) : Prop where
  slots_eq : w₁.slots = some slots
  fits : slots.Fits w.policy.chunk
  policy : w₁.policy = w.policy
  size : w₁.size = w.size
  /-- Nothing is staged again unless the upload was replaced. -/
  kept : (∀ b, w.repair ≠ .required b) → w₁.staged = w.staged

omit [Service σ] in
theorem borrow_prepared (hfits : w.Fits) (c : Context σ) :
    ∃ slots w₁ c₁, borrow.execute w c = (.ok slots, w₁, c₁) ∧ Prepared w w₁ slots := by
  obtain ⟨slots, c₁, hborrow, -, -, hready, hpending⟩ := borrow_lends w c
  refine ⟨slots, _, c₁, hborrow, rfl, hfits.slots hready hpending, rfl, rfl, fun _ => ?_⟩
  simp only [staged, ready, pending] at hready hpending ⊢
  rw [hready, hpending]

theorem Standing.prepare {w₀ : Writer} (h : Standing w₀ w) (c : Context σ) :
    (∃ e w' c', prepare.execute w c = (.error e, w', c') ∧ w'.size = w.size) ∨
      ∃ slots w₁ c₁, prepare.execute w c = (.ok slots, w₁, c₁) ∧ Prepared w w₁ slots := by
  cases h with
  | flowing hrepair hpolicy hsize htallied =>
    right
    rw [prepare_of_settled hrepair]
    exact borrow_prepared htallied.fits c
  | waiting hrepair hslots hpolicy hsize hparts hne hhead =>
    rw [prepare_of_required hrepair, Writing.execute_bind]
    rcases hreplace : replaceSession.execute w c with ⟨e | ⟨⟩, w₁, c₁⟩
    · left
      refine ⟨e, w₁, c₁, rfl, ?_⟩
      rcases replaceSession_waits hreplace with rfl | rfl <;> rfl
    · right
      obtain ⟨htallied, -, hsame, hkept, -⟩ := replaceSession_tallied hrepair hslots hreplace
      obtain ⟨slots, w₂, c₂, hborrow, hprepared⟩ := borrow_prepared htallied.fits c₁
      refine ⟨slots, w₂, c₂, hborrow, hprepared.slots_eq, ?_, hprepared.policy.trans hkept,
        hprepared.size.trans hsame, fun hsettled => absurd hrepair (hsettled _)⟩
      rw [← hkept]
      exact hprepared.fits

/-- A write of a writer in use, whatever its earlier calls were and whatever came of them.  If its upload
is to be replaced first and that fails, nothing is taken in.  Else the loop runs, and what comes of it
comes of the write. -/
theorem Course.write_loop {policy : Policy} {session : Session} {parts : List Part}
    {turns : List (Turn σ)} (h : Course (ofSession policy session parts) turns w)
    (hphase : w.phase = .active) (hdata : data.size ≠ 0) (c : Context σ) :
    (∃ e w' c', prepare.execute w c = (.error e, w', c') ∧
        (write data).execute w c = (.error e, w', c') ∧ w'.size = w.size) ∨
      ∃ slots w₁ c₁ takes sent result w' c',
        prepare.execute w c = (.ok slots, w₁, c₁) ∧ Prepared w w₁ slots ∧
        (write data).execute w c = (result, w', c') ∧
        Loops w₁ c₁ data slots takes sent result w' c' := by
  have hstanding := (h.standing (fresh_ofSession policy session parts).standing).1 hphase
  rw [write_eq_prepare hphase hdata, Writing.execute_bind]
  rcases hstanding.prepare c with
    ⟨e, w', c', hprepare, hsize⟩ | ⟨slots, w₁, c₁, hprepare, hprepared⟩
  · left
    exact ⟨e, w', c', hprepare, by rw [hprepare], hsize⟩
  · right
    have hfits := hprepared.fits
    rw [← hprepared.policy] at hfits
    obtain ⟨takes, sent, result, w', c', hfeed, hloops⟩ :=
      feed_loops hprepared.slots_eq hfits hdata c₁
    refine ⟨slots, w₁, c₁, takes, sent, result, w', c', hprepare, hprepared, ?_, hloops⟩
    rw [hprepare]
    simp only [Writing.execute_bind, Writing.execute_writer, hfeed]

namespace Sample

theorem failedWrite_course :
    Course writer [⟨.write Sample.data, writer, context onePartFails⟩] failedWrite.2.1 :=
  Course.start.call ⟨.write Sample.data, writer, context onePartFails⟩

theorem failedWrite_settled (b : Bool) : failedWrite.2.1.repair ≠ .required b := by
  have hrepair : failedWrite.2.1.repair = .notNeeded := by cbv
  rw [hrepair]
  exact Repair.noConfusion

end Sample

/-- A write that meets two full slots sends what an earlier one could not. -/
theorem write_loop_from_full_slots :
    Sample.failedWrite.2.1.phase = .active ∧ Sample.failedWrite.2.1.IsStuck ∧
      Sample.data.size ≠ 0 ∧ ∃ slots w₁ c₁ takes w' c' sent,
        (write Sample.data).execute Sample.failedWrite.2.1 Sample.failedWrite.2.2 =
          (.ok 8, w', c') ∧
        Rounds Sample.policy Sample.data slots 0 w₁ c₁ takes (.ok 8) w' c' ∧ takes.sum = 8 ∧
        sent.length = 3 ∧
        Bytes.concat sent ++ w'.staged = Sample.failedWrite.2.1.staged ++ Sample.data.extract 0 8 := by
  have hactive : Sample.failedWrite.2.1.phase = .active := by cbv
  have hstuck : Sample.failedWrite.2.1.IsStuck := by decide +kernel
  have hdata : Sample.data.size = 8 := by decide
  have hstaged : Sample.failedWrite.2.1.staged.size = 8 := by decide +kernel
  have hreturns : ((write Sample.data).execute Sample.failedWrite.2.1
      Sample.failedWrite.2.2).1.isOk = true := by cbv
  have hne : Sample.data.size ≠ 0 := by omega
  refine ⟨hactive, hstuck, hne, ?_⟩
  rcases Course.write_loop Sample.failedWrite_course hactive hne Sample.failedWrite.2.2 with
    ⟨e, w', c', -, hraised, -⟩ | ⟨slots, w₁, c₁, takes, sent, result, w', c', -, hprepared, hwrite,
      hloops⟩
  · rw [hraised] at hreturns
    cases hreturns
  · rw [hwrite] at hreturns
    rcases result with e | told
    · cases hreturns
    obtain ⟨rfl, hall, -, hcount, -⟩ := hloops.returned told rfl
    have hbytes := hloops.bytes
    have hkept := hprepared.kept Sample.failedWrite_settled
    have hpolicy : w₁.policy = Sample.policy := hprepared.policy.trans (by cbv)
    rw [hdata] at hall
    rw [hkept, hall] at hbytes
    rw [hkept, hstaged, hdata, hpolicy] at hcount
    have hrounds := hloops.rounds
    rw [hpolicy, hdata] at hrounds
    rw [hwrite, hdata]
    exact ⟨slots, w₁, c₁, takes, w', c', sent, rfl, hrounds, hall, hcount, hbytes⟩

end Writer

end ResumableStorage
