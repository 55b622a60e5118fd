/-
  ResumableStorage/Proofs/Upload/Sizes.lean
  =========================================
  **Sizes of the parts that are sent** — a writer cuts its stream by what it has counted
  itself, and asks the service for nothing but tags.  So the sizes of the parts follow
  from the calls that have returned, whatever the service is and whatever numbers the
  parts had that were there before.
-/
import ResumableStorage.Proofs.Upload.Steps

namespace ResumableStorage

/-! ## 1. The plan -/

namespace Policy

/-- The sizes of the parts that a stream of `n` bytes is cut into. -/
def plan (p : Policy) (n : Nat) : List Nat :=
  List.replicate (n / p.chunk - 1) p.chunk ++
    if n = 0 then [] else [n - (n / p.chunk - 1) * p.chunk]

theorem plan_eq_nil_iff (p : Policy) {n : Nat} : p.plan n = [] ↔ n = 0 := by
  by_cases hn : n = 0 <;> simp [plan, hn]

/-- How many full chunks are cut off when less than two are left, and one at least behind others. -/
theorem count_eq (p : Policy) {k rest n : Nat} (htotal : k * p.chunk + rest = n)
    (hlt : rest < 2 * p.chunk) (hle : k ≠ 0 → p.chunk ≤ rest) : n / p.chunk - 1 = k := by
  have hpos := p.chunk_pos
  rcases Nat.eq_zero_or_pos k with rfl | hk
  · have hdiv : n / p.chunk < 2 := (Nat.div_lt_iff_lt_mul hpos).mpr (by omega)
    omega
  · have hrest := hle (by omega)
    have hdiv : n / p.chunk = k + 1 := by
      rw [Nat.div_eq_iff hpos, Nat.add_mul]
      omega
    omega

/-- Full chunks and a rest that is not ready to be cut make the plan of their total. -/
theorem plan_eq (p : Policy) {k rest n : Nat} (htotal : k * p.chunk + rest = n)
    (hlt : rest < 2 * p.chunk) (hle : k ≠ 0 → p.chunk ≤ rest) :
    p.plan n = List.replicate k p.chunk ++ if rest = 0 then [] else [rest] := by
  have hpos := p.chunk_pos
  have hcount := p.count_eq htotal hlt hle
  have hzero : n = 0 ↔ rest = 0 := by
    constructor
    · omega
    · rintro rfl
      rcases Nat.eq_zero_or_pos k with rfl | hk
      · omega
      · have hrest := hle (by omega)
        omega
  rw [plan, hcount]
  by_cases hn : n = 0
  · rw [if_pos hn, if_pos (hzero.mp hn)]
  · rw [if_neg hn, if_neg (mt hzero.mpr hn), ← htotal, Nat.add_sub_cancel_left]

theorem eq_of_mem_plan_dropLast (p : Policy) {n size : Nat} (h : size ∈ (p.plan n).dropLast) :
    size = p.chunk := by
  by_cases hn : n = 0
  · simp [plan, hn] at h
  · simp only [plan, if_neg hn, List.dropLast_concat] at h
    exact List.eq_of_mem_replicate h

theorem plan_getLast_lt (p : Policy) (n : Nat) : ∀ last ∈ (p.plan n).getLast?, last < 2 * p.chunk := by
  intro last hlast
  have hpos := p.chunk_pos
  by_cases hn : n = 0
  · simp [plan, hn] at hlast
  · simp only [plan, if_neg hn, List.getLast?_append, List.getLast?_singleton, Option.some_or,
      Option.mem_def, Option.some.injEq] at hlast
    have hdiv := Nat.div_add_mod n p.chunk
    have hmod := Nat.mod_lt n hpos
    rcases hq : n / p.chunk with _ | q
    · rw [hq] at hlast hdiv
      omega
    · rw [hq, Nat.add_sub_cancel] at hlast
      rw [hq, Nat.mul_add, Nat.mul_comm] at hdiv
      omega

end Policy

/-! ## 2. One part -/

variable {σ : Type} [Service σ]

theorem Client.uploadPart_size {s : Session} {number : Int} {body : Bytes} {c c' : Context σ}
    {p : Part} (hrun : (uploadPart s number body).execute c = (.ok p, c')) : p.size = body.size := by
  obtain ⟨answer, c₁, -, hrun⟩ := Run.execute_bind_eq_ok.mp hrun
  obtain ⟨etag, c₂, -, hrun⟩ := Run.execute_bind_eq_ok.mp hrun
  split at hrun
  · simp only [Run.execute_pure, Prod.mk.injEq, Except.ok.injEq] at hrun
    rw [← hrun.1]
  · cases hrun

namespace Writer

variable {w w' : Writer} {c c' : Context σ}

theorem sendPart_eq_ok {body : Bytes} (hrun : (sendPart body).execute w c = (.ok (), w', c')) :
    ∃ part, w' = { w with parts := w.parts ++ [part] } ∧ part.size = body.size := by
  simp only [sendPart, Writing.execute_bind, Writing.execute_writer, Writing.execute_ofRun] at hrun
  rcases hpart : (Client.uploadPart w.session (w.parts.length + 1) body).execute c with ⟨_ | part, c₁⟩
  · rw [hpart] at hrun
    cases hrun
  · simp only [hpart, Writing.execute_change, Prod.mk.injEq] at hrun
    exact ⟨part, hrun.2.1.symm, Client.uploadPart_size hpart⟩

/-! ## 3. Full chunks -/

/-- What a writer has become when `n` bytes were taken in: `count` full chunks have left the slots,
and there is room in them. -/
structure Cut (w : Writer) (slots : Slots) (n : Nat) (w' : Writer) (count : Nat) (slots' : Slots) :
    Prop where
  writer : ∃ parts size, w' = { w with parts := parts, size := size, slots := some slots' }
  sizes : w'.parts.map (·.size) =
    w.parts.map (·.size) ++ List.replicate count (w.policy.chunk : Int)
  fits : slots'.Fits w.policy.chunk
  room : slots'.pending.isFull w.policy.chunk = false
  total : count * w.policy.chunk + slots'.staged.size = slots.staged.size + n
  /-- Once `ready` is full it is never left half full. -/
  ready : slots.ready.held.size = w.policy.chunk ∨ count ≠ 0 →
    slots'.ready.held.size = w.policy.chunk

/-- A feed that returns has cut full chunks off the front. -/
theorem feed_cut (policy : Policy) (data : Bytes) (slots : Slots) (offset : Nat)
    (hpolicy : w.policy = policy) (hslots : w.slots = some slots) (hfits : slots.Fits policy.chunk)
    (hle : offset ≤ data.size)
    (hstart : offset < data.size ∨ slots.pending.isFull policy.chunk = false)
    {told : Nat} (hrun : (feed policy data slots offset).execute w c = (.ok told, w', c')) :
    ∃ count slots', Cut w slots (data.size - offset) w' count slots' := by
  induction slots, offset using feed.induct policy data generalizing w c with
  | case1 slots offset hlt filled hfull =>
    rename_i ih
    subst hpolicy
    have hfits₁ := hfits.fill data offset
    have hstaged := congrArg ByteArray.size (hfits.staged_fill data offset)
    have hle₁ := Slots.fill_count_le slots w.policy.chunk hle
    rw [feed_execute_of_full hlt hfull, Writing.execute_bind] at hrun
    rcases hsend : (sendPart filled.1.ready.held).execute
      { w with slots := some filled.1, size := w.size + filled.2 }
      { c with pool := c.pool.putBoth slots w.policy.chunk data offset } with ⟨_ | _, w₁, c₁⟩
    · rw [hsend] at hrun
      cases hrun
    · rw [hsend] at hrun
      obtain ⟨part, rfl, hpart⟩ := sendPart_eq_ok hsend
      obtain ⟨count, slots', ⟨parts, size, hw'⟩, hsizes, hfits', hroom', htotal, hready⟩ :=
        ih (by rfl) rfl hfits₁.shift hle₁
          (.inr (Slots.pending_shift_not_full _ w.policy.chunk_pos)) hrun
      simp only [Slots.staged_shift] at htotal hready hsizes
      rw [ByteArray.size_append, ByteArray.size_extract, Slots.staged_size] at hstaged
      have hfirst := hfits₁.ready_eq hfull
      refine ⟨count + 1, slots', ⟨parts, size, hw'⟩, ?_, hfits', hroom', ?_, ?_⟩
      · rw [hsizes, List.map_append, List.map_singleton, List.append_assoc, hpart, hfirst]
        rfl
      · rw [Nat.add_mul]
        simp only [filled] at htotal
        omega
      · intro _
        exact hready (.inl (hfits₁.pending_eq hfull))
  | case2 slots offset hlt filled hroom =>
    subst hpolicy
    have hroom : filled.1.pending.isFull w.policy.chunk = false := by simpa using hroom
    have hall := Slots.fill_count_of_room hle hroom
    have hstaged := congrArg ByteArray.size (hfits.staged_fill data offset)
    rw [feed_execute_of_room hlt hroom] at hrun
    obtain ⟨-, rfl, -⟩ := hrun
    refine ⟨0, filled.1, ⟨_, _, rfl⟩, by simp, hfits.fill data offset, hroom, ?_, ?_⟩
    · rw [ByteArray.size_append, ByteArray.size_extract] at hstaged
      simp only [filled]
      omega
    · rintro (hfull | hne)
      · exact Slots.fill_ready_of_full hfull data offset
      · exact absurd rfl hne
  | case3 slots offset hge =>
    subst hpolicy
    rw [feed_execute_of_done hge] at hrun
    cases hrun
    refine ⟨0, slots, ⟨w'.parts, w'.size, by rw [← hslots]⟩, by simp, hfits,
      hstart.resolve_left hge, by omega, fun hfull => hfull.resolve_right (by simp)⟩

/-! ## 4. Writes -/

/-- Behind parts of the sizes `base` a writer has sent full chunks; these and what is staged, less
than two chunks, make `total` bytes.  Once a chunk was sent the first slot is full. -/
structure Filled (w : Writer) (base : List Int) (total count : Nat) : Prop where
  fits : w.Fits
  room : ¬ w.IsStuck
  sizes : w.parts.map (·.size) = base ++ List.replicate count (w.policy.chunk : Int)
  total_eq : count * w.policy.chunk + w.staged.size = total
  ready : count ≠ 0 → w.ready.size = w.policy.chunk

variable {base : List Int} {total count : Nat}

theorem Filled.takeIn (h : w.Filled base total count) {data : Bytes} (hne : data.size ≠ 0)
    {told : Nat} (hrun : (Writer.takeIn data).execute w c = (.ok told, w', c')) :
    w.Advances w' ∧ ∃ count', w'.Filled base (total + data.size) count' := by
  obtain ⟨slots, c₁, hborrow, -, -, hready, hpending⟩ := borrow_lends w c
  simp only [Writer.takeIn, Writing.execute_bind, hborrow, Writing.execute_writer] at hrun
  obtain ⟨more, slots', ⟨parts, size, hw'⟩, hsizes, hfits', hroom, htotal, hfull⟩ :=
    feed_cut (w := { w with slots := some slots }) w.policy data slots 0 rfl rfl
      (h.fits.slots hready hpending) (Nat.zero_le _) (.inl (by omega)) hrun
  have hslots' : w'.slots = some slots' := by rw [hw']
  have hpolicy : w'.policy = w.policy := by rw [hw']
  have hstaged : slots.staged = w.staged := by rw [Slots.staged, hready, hpending, staged]
  have hstaged' : w'.staged = slots'.staged := staged_of_slots hslots'
  refine ⟨⟨parts, size, some slots', hw'⟩, count + more, ?_, ?_, ?_, ?_, ?_⟩
  · exact .of_slots hslots' (by rwa [hpolicy])
  · simp only [Slot.isFull, decide_eq_false_iff_not] at hroom
    simp only [IsStuck, pending, hslots', hpolicy]
    omega
  · rw [hsizes, h.sizes, List.append_assoc, hpolicy, List.replicate_append_replicate]
  · have htotal₀ := h.total_eq
    rw [hstaged] at htotal
    rw [hpolicy, hstaged', Nat.add_mul]
    simp only at htotal
    omega
  · intro hcount
    have hready' : w'.ready = slots'.ready.held := by rw [Writer.ready, hslots']
    rw [hready', hpolicy]
    apply hfull
    by_cases hzero : count = 0
    · exact .inr (by omega)
    · exact .inl ((congrArg ByteArray.size hready).trans (h.ready hzero))

theorem Filled.write (h : w.Filled base total count) (hphase : w.phase = .active)
    (hrepair : ∀ b, w.repair ≠ .required b) {data : Bytes} {n : Nat}
    (hrun : (Writer.write data).execute w c = (.ok n, w', c')) :
    w.Advances w' ∧ ∃ count', w'.Filled base (total + data.size) count' := by
  by_cases hempty : data.size = 0
  · rw [write_of_empty hphase hempty] at hrun
    obtain ⟨-, rfl, -⟩ := hrun
    exact ⟨.refl w, count, by rwa [hempty]⟩
  · rw [write_of_settled hphase hrepair hempty] at hrun
    exact h.takeIn hempty hrun

/-- Writes one after the other, up to the first that fails. -/
def writeAll : List Bytes → Writing σ Unit
  | [] => pure ()
  | data :: rest => do
    discard (write data)
    writeAll rest

theorem Filled.writeAll (h : w.Filled base total count) (hphase : w.phase = .active)
    (hrepair : ∀ b, w.repair ≠ .required b) {writes : List Bytes}
    (hrun : (Writer.writeAll writes).execute w c = (.ok (), w', c')) :
    w.Advances w' ∧ ∃ count', w'.Filled base (total + (Bytes.concat writes).size) count' := by
  induction writes generalizing w c total count with
  | nil =>
    cases hrun
    exact ⟨.refl _, count, by simpa using h⟩
  | cons data rest ih =>
    obtain ⟨⟨⟩, w₁, c₁, hwrite, hrest⟩ := Writing.execute_bind_eq_ok.mp hrun
    rcases hanswer : (Writer.write data).execute w c with ⟨_ | n, w₂, c₂⟩
    · rw [Writing.execute_discard, hanswer] at hwrite
      cases hwrite
    · rw [Writing.execute_discard, hanswer] at hwrite
      cases hwrite
      obtain ⟨hsame, count₁, hfilled⟩ := h.write hphase hrepair hanswer
      have hkept := hsame
      obtain ⟨_, _, _, rfl⟩ := hsame
      obtain ⟨hsame', count', hfilled'⟩ := ih hfilled hphase hrepair hrest
      refine ⟨hkept.trans hsame', count', ?_⟩
      rwa [Bytes.concat_cons, ByteArray.size_append, ← Nat.add_assoc]

/-! ## 5. Commits -/

theorem flush_eq_ok (hfits : w.Fits) (hrun : flush.execute w c = (.ok (), w', c')) :
    w'.parts.map (·.size) = w.parts.map (·.size) ++ w.flushed.map fun b => (b.size : Int) := by
  simp only [flush, Writing.execute_bind, Writing.execute_writer] at hrun
  rcases hslots : w.slots with _ | slots
  · simp only [hslots] at hrun
    cases hrun
    simp [flushed, staged_of_none hslots]
  · by_cases hempty : slots.isEmpty = true
    · simp only [hslots, hempty, if_true] at hrun
      cases hrun
      simp [flushed, staged_of_slots hslots, Slots.isEmpty_iff.mp hempty]
    · have hstaged : w.staged ≠ ByteArray.empty := by
        rwa [staged_of_slots hslots, ne_eq, ← Slots.isEmpty_iff]
      simp only [hslots, hempty, Writing.execute_bind, nextPart_eq_finalBody hslots hfits,
        Bool.false_eq_true, if_false] at hrun
      rcases hsend : (sendPart w.finalBody).execute w c with ⟨_ | _, w₁, c₁⟩
      · rw [hsend] at hrun
        cases hrun
      · rw [hsend] at hrun
        obtain ⟨part, rfl, hpart⟩ := sendPart_eq_ok hsend
        cases hrun
        simp [flushed, hstaged, hpart]

theorem sendRest_eq_ok (hfits : w.Fits) (hrun : sendRest.execute w c = (.ok (), w', c')) :
    w'.parts.map (·.size) =
      w.parts.map (·.size) ++ w.committedBodies.map fun b => (b.size : Int) := by
  simp only [sendRest, Writing.execute_bind, Writing.execute_writer] at hrun
  rcases hflush : flush.execute w c with ⟨_ | _, w₁, c₁⟩
  · rw [hflush] at hrun
    cases hrun
  rw [hflush] at hrun
  have hsizes := flush_eq_ok hfits hflush
  have hnil : w₁.parts = [] ↔ w.parts = [] ∧ w.flushed = [] := by
    rw [← List.map_eq_nil_iff, hsizes, List.append_eq_nil_iff, List.map_eq_nil_iff,
      List.map_eq_nil_iff]
  by_cases hnone : w.parts = [] ∧ w.flushed = []
  · -- the upload has no parts, so it gets an empty one
    have hempty : w₁.parts = [] := hnil.mpr hnone
    simp only [hempty, List.isEmpty_nil, if_true] at hrun
    obtain ⟨part, rfl, hpart⟩ := sendPart_eq_ok hrun
    rw [committedBodies_of_nil hnone.2 hnone.1, hnone.1]
    simp [hempty, hpart]
  · have hnonempty : w₁.parts.isEmpty = false := List.isEmpty_eq_false_iff.mpr (mt hnil.mp hnone)
    simp only [hnonempty, Bool.false_eq_true, if_false] at hrun
    cases hrun
    rw [committedBodies_of_ne (by tauto)]
    exact hsizes

theorem commit_eq_ok (hphase : w.phase = .active) (hsource : w.sourceCompleted = false)
    (hfits : w.Fits) (hrun : commit.execute w c = (.ok (), w', c')) :
    w'.parts.map (·.size) =
      w.parts.map (·.size) ++ w.committedBodies.map fun b => (b.size : Int) := by
  obtain ⟨xs, -, hstep⟩ := step_of_run hphase .commit hrun
  cases hstep with
  | committedBefore hcompleted =>
    rw [hsource] at hcompleted
    cases hcompleted
  | committed _ hrest hsends hx =>
    have hsizes := sendRest_eq_ok hfits hrest
    exact hsizes

/-- What a commit sends is the rest of the plan; an upload that would have no parts gets an empty
one. -/
theorem Filled.committed_sizes (h : w.Filled base total count) :
    (w.parts.map (·.size) ++ w.committedBodies.map fun b => (b.size : Int)) =
      if base = [] ∧ total = 0 then [0] else base ++ (w.policy.plan total).map Nat.cast := by
  have hpos := w.policy.chunk_pos
  have htotal := h.total_eq
  have hsize : w.staged.size = w.ready.size + w.pending.size := ByteArray.size_append
  have hready := h.fits.ready_le
  have hpending := h.fits.pending_le
  have hroom := h.room
  have hrest : w.policy.plan total = List.replicate count w.policy.chunk ++
      if w.staged.size = 0 then [] else [w.staged.size] := by
    simp only [IsStuck] at hroom
    apply w.policy.plan_eq htotal (by omega)
    intro hcount
    have hfull := h.ready hcount
    omega
  have hflushed : w.flushed.map (fun b => (b.size : Int)) =
      (if w.staged.size = 0 then [] else [w.staged.size]).map Nat.cast := by
    rw [flushed, finalBody, if_neg hroom]
    simp only [← ByteArray.size_eq_zero_iff]
    split <;> rfl
  have hall : (w.parts.map (·.size) ++ w.flushed.map fun b => (b.size : Int)) =
      base ++ (w.policy.plan total).map Nat.cast := by
    rw [h.sizes, hflushed, hrest, List.map_append, List.map_replicate, List.append_assoc]
  have hnil : w.parts = [] ∧ w.flushed = [] ↔ base = [] ∧ total = 0 := by
    have hiff := congrArg (· = []) hall
    simpa [Policy.plan_eq_nil_iff] using hiff
  by_cases hnone : base = [] ∧ total = 0
  · obtain ⟨hparts, hsent⟩ := hnil.mpr hnone
    rw [if_pos hnone, committedBodies_of_nil hsent hparts, hparts]
    rfl
  · rw [if_neg hnone, committedBodies_of_ne (by tauto), hall]

end Writer

end ResumableStorage
