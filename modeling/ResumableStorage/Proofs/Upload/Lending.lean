/-
  ResumableStorage/Proofs/Upload/Lending.lean
  ===========================================
  **Who has which buffer** — buffers go from the pool to a writer when it stages its first
  bytes, change places in it while it writes, and go back when it is finished.  No buffer
  is in two places: every operation of a writer keeps its buffers apart from those that
  are idle and from those that others hold.  So what a writer has staged is what its
  buffers begin with, whatever was in them when they were lent, and what others have in
  theirs is left alone.

  The service may answer what it likes: no request touches the pool.
-/
import ResumableStorage.Proofs.Client.Lookups
import ResumableStorage.Proofs.Upload.Steps

namespace ResumableStorage

variable {σ α β : Type}

/-! ## 1. Runs leave the pool alone -/

namespace Run

def KeepsPool (x : Run σ α) : Prop := ∀ c, (x.execute c).2.pool = c.pool

theorem keepsPool_report (n : Notice) : (report n : Run σ Unit).KeepsPool := fun _ => rfl

theorem keepsPool_count (f : Meters → Meters) : (count f : Run σ Unit).KeepsPool := fun _ => rfl

variable [Service σ]

theorem Decodes.keepsPool {x : Run σ α} {action : Action} {r : Request}
    {decode : Value → Except Error α} (h : x.Decodes action r decode) : x.KeepsPool := by
  intro c
  rw [h c]
  rfl

theorem AsksOnly.keepsPool {x : Run σ α} {p : Request → Prop} (h : x.AsksOnly p) : x.KeepsPool := by
  intro c
  obtain ⟨xs, -, hpool, -⟩ := h c
  exact hpool

end Run

open Run

section

variable [Service σ]

/-- A writer that was opened holds no buffer, and the pool is as it was. -/
theorem Volume.writer_lends (v : Volume) (path : String) (append : Bool) (c : Context σ) :
    ((v.writer path append).execute c).2.pool = c.pool ∧
      ∀ w, ((v.writer path append).execute c).1 = .ok w → w.slots = none := by
  refine ⟨(v.writer_quiet path append).asksOnly.keepsPool c, ?_⟩
  intro w hw
  obtain ⟨s, parts, rfl⟩ := writer_eq_ok hw
  rfl

end

/-! ## 2. Buffers -/

namespace Slots

def buffers (s : Slots) : List BufferId := [s.ready.buffer, s.pending.buffer]

theorem ready_ne_pending {s : Slots} (h : s.buffers.Nodup) : s.ready.buffer ≠ s.pending.buffer := by
  simpa [buffers] using h

theorem buffers_afterPart (s : Slots) (merged : Bool) :
    (s.afterPart merged).buffers.Perm s.buffers := by
  cases merged with
  | true => exact .refl _
  | false => exact .swap _ _ _

end Slots

namespace Writer

/-- The buffers that a writer holds. -/
def buffers (w : Writer) : List BufferId :=
  match w.slots with
  | none => []
  | some slots => slots.buffers

theorem buffers_of_slots {w : Writer} {slots : Slots} (h : w.slots = some slots) :
    w.buffers = slots.buffers := by
  rw [buffers, h]

theorem buffers_of_none {w : Writer} (h : w.slots = none) : w.buffers = [] := by
  rw [buffers, h]

end Writer

/-- Of these buffers none is held twice, none is idle, and none is held by others; the pool has met
all of them. -/
structure Pool.Lent (p : Pool) (held : List BufferId) (others : Set BufferId) : Prop where
  distinct : (held ++ p.idle).Nodup
  apart : ∀ b ∈ others, b ∉ held ++ p.idle
  met : ∀ b ∈ held ++ p.idle, b < p.contents.size
  othersMet : ∀ b ∈ others, b < p.contents.size

namespace Pool

variable {p : Pool} {held held' : List BufferId} {others : Set BufferId} {id : BufferId}

theorem Lent.of_perm (h : p.Lent held others) (hperm : held'.Perm held) : p.Lent held' others := by
  have hall : (held' ++ p.idle).Perm (held ++ p.idle) := hperm.append_right _
  exact ⟨hall.nodup_iff.mpr h.distinct, fun b hb hmem => h.apart b hb (hall.mem_iff.mp hmem),
    fun b hb => h.met b (hall.mem_iff.mp hb), h.othersMet⟩

/-- Only bytes have moved. -/
theorem Lent.of_same {p' : Pool} (h : p.Lent held others) (hidle : p'.idle = p.idle)
    (hsize : p'.contents.size = p.contents.size) : p'.Lent held others := by
  constructor
  · rw [hidle]
    exact h.distinct
  · rw [hidle]
    exact h.apart
  · rw [hidle, hsize]
    exact h.met
  · rw [hsize]
    exact h.othersMet

/-- A buffer that the pool meets for the first time is nowhere else. -/
theorem Lent.adopt (h : p.Lent held others) (data : Bytes) :
    (p.adopt data).2.Lent ((p.adopt data).1 :: held) others := by
  have hsize : (p.contents.push data).size = p.contents.size + 1 := Array.size_push _
  have hfresh : p.contents.size ∉ held ++ p.idle := fun hmem => lt_irrefl _ (h.met _ hmem)
  refine ⟨List.nodup_cons.mpr ⟨hfresh, h.distinct⟩, ?_, ?_, ?_⟩
  · intro b hb hmem
    rcases List.mem_cons.mp hmem with rfl | hmem
    · exact lt_irrefl _ (h.othersMet _ hb)
    · exact h.apart b hb hmem
  · intro b hb
    change b < (p.contents.push _).size
    rw [hsize]
    rcases List.mem_cons.mp hb with rfl | hb
    · exact Nat.lt_succ_self _
    · exact Nat.lt_succ_of_lt (h.met b hb)
  · intro b hb
    change b < (p.contents.push _).size
    rw [hsize]
    exact Nat.lt_succ_of_lt (h.othersMet b hb)

/-- The buffer that is lent next is idle, or new. -/
theorem Lent.acquire (h : p.Lent held others) :
    p.acquire.2.Lent (p.acquire.1 :: held) others := by
  unfold Pool.acquire
  split
  · rename_i id rest hidle
    have hall : (id :: held ++ rest).Perm (held ++ p.idle) := by
      rw [hidle]
      exact List.perm_middle.symm
    exact ⟨hall.nodup_iff.mpr h.distinct, fun b hb hmem => h.apart b hb (hall.mem_iff.mp hmem),
      fun b hb => h.met b (hall.mem_iff.mp hb), h.othersMet⟩
  · exact h.adopt _

/-- A buffer that comes back is idle, or dropped. -/
theorem Lent.release (h : p.Lent (id :: held) others) : (p.release id).Lent held others := by
  have hdropped : p.Lent held others :=
    ⟨(List.nodup_cons.mp h.distinct).2, fun b hb hmem => h.apart b hb (List.mem_cons_of_mem _ hmem),
      fun b hb => h.met b (List.mem_cons_of_mem _ hb), h.othersMet⟩
  have hall : (held ++ id :: p.idle).Perm (id :: held ++ p.idle) := List.perm_middle
  unfold Pool.release
  dsimp only
  split
  · exact hdropped
  · have hsize : (p.contents.setIfInBounds id (Bytes.zeros p.capacity)).size = p.contents.size :=
      Array.size_setIfInBounds
    split
    · refine ⟨hall.nodup_iff.mpr h.distinct, fun b hb hmem => h.apart b hb (hall.mem_iff.mp hmem),
        ?_, ?_⟩
      · intro b hb
        change b < (p.contents.setIfInBounds _ _).size
        rw [hsize]
        exact h.met b (hall.mem_iff.mp hb)
      · intro b hb
        change b < (p.contents.setIfInBounds _ _).size
        rw [hsize]
        exact h.othersMet b hb
    · refine ⟨hdropped.distinct, hdropped.apart, ?_, ?_⟩
      · intro b hb
        change b < (p.contents.setIfInBounds _ _).size
        rw [hsize]
        exact hdropped.met b hb
      · intro b hb
        change b < (p.contents.setIfInBounds _ _).size
        rw [hsize]
        exact h.othersMet b hb

variable {ι : Type} {holdings : ι → List BufferId}

/-- No buffer is in two of these holdings, or twice in one of them, or idle as well. -/
def Divided (p : Pool) (holdings : ι → List BufferId) : Prop :=
  ∀ i, p.Lent (holdings i) {b | ∃ j, j ≠ i ∧ b ∈ holdings j}

/-- One of the holdings has changed, and is apart from the others still. -/
theorem Divided.update [DecidableEq ι] {p' : Pool} (h : p.Divided holdings) (i : ι)
    (hlent : p'.Lent held {b | ∃ j, j ≠ i ∧ b ∈ holdings j}) :
    p'.Divided (Function.update holdings i held) := by
  obtain ⟨-, hidle, hheld⟩ := List.nodup_append.mp hlent.distinct
  intro j
  by_cases hj : j = i
  · subst hj
    have hothers : {b | ∃ k, k ≠ j ∧ b ∈ Function.update holdings j held k} =
        {b | ∃ k, k ≠ j ∧ b ∈ holdings k} := by
      ext b
      apply exists_congr
      intro k
      apply and_congr_right
      intro hk
      rw [Function.update_of_ne hk]
    rw [Function.update_self, hothers]
    exact hlent
  · have hmine : ∀ b ∈ holdings j, b ∉ held ++ p'.idle ∧ b < p'.contents.size :=
      fun b hb => ⟨hlent.apart b ⟨j, hj, hb⟩, hlent.othersMet b ⟨j, hj, hb⟩⟩
    rw [Function.update_of_ne hj]
    refine ⟨?_, ?_, ?_, ?_⟩
    · apply List.nodup_append.mpr
      refine ⟨(List.nodup_append.mp (h j).distinct).1, hidle, ?_⟩
      rintro b hb _ hb' rfl
      exact (hmine b hb).1 (List.mem_append_right _ hb')
    · rintro b ⟨k, hk, hb⟩ hmem
      by_cases hki : k = i
      · subst hki
        rw [Function.update_self] at hb
        rcases List.mem_append.mp hmem with hmem | hmem
        · exact (hmine b hmem).1 (List.mem_append_left _ hb)
        · exact hheld b hb b hmem rfl
      · rw [Function.update_of_ne hki] at hb
        rcases List.mem_append.mp hmem with hmem | hmem
        · exact (h j).apart b ⟨k, hk, hb⟩ (List.mem_append_left _ hmem)
        · exact hlent.apart b ⟨k, hki, hb⟩ (List.mem_append_right _ hmem)
    · intro b hb
      rcases List.mem_append.mp hb with hb | hb
      · exact (hmine b hb).2
      · exact hlent.met b (List.mem_append_right _ hb)
    · rintro b ⟨k, hk, hb⟩
      by_cases hki : k = i
      · subst hki
        rw [Function.update_self] at hb
        exact hlent.met b (List.mem_append_left _ hb)
      · rw [Function.update_of_ne hki] at hb
        exact hlent.othersMet b ⟨k, hki, hb⟩

end Pool

/-! ## 3. Bytes in lent buffers -/

theorem Bytes.extract_overwrite {content : Bytes} {n : Nat} (h : n ≤ content.size) (data : Bytes) :
    (content.overwrite n data).extract 0 (n + data.size) = content.extract 0 n ++ data := by
  rw [overwrite, Nat.min_eq_left h]
  apply ByteArray.extract_append_eq_left
  rw [ByteArray.size_append, ByteArray.size_extract]
  omega

theorem Bytes.le_size_overwrite {content : Bytes} {n : Nat} (h : n ≤ content.size) (data : Bytes) :
    n + data.size ≤ (content.overwrite n data).size := by
  rw [overwrite, ByteArray.size_append, ByteArray.size_append, ByteArray.size_extract]
  omega

namespace Pool

variable {p p' : Pool} {id b : BufferId} {s t : Slot} {slots : Slots} {capacity : Nat} {data : Bytes}
  {offset : Nat}

theorem content_adopt_of_lt (data : Bytes) (h : b < p.contents.size) :
    (p.adopt data).2.content b = p.content b := by
  rw [content, content, adopt, Array.getElem?_push_lt h, Array.getElem?_eq_getElem h]

theorem content_acquire_of_lt (h : b < p.contents.size) : p.acquire.2.content b = p.content b := by
  unfold acquire
  split
  · rfl
  · exact content_adopt_of_lt _ h

theorem release_contents (hsize : (p.content id).size = p.capacity) : (p.release id).contents =
    p.contents.setIfInBounds id (Bytes.zeros p.capacity) := by
  unfold release
  dsimp only
  rw [if_neg (not_not_intro hsize)]
  split <;> rfl

theorem content_release_of_ne (h : b ≠ id) : (p.release id).content b = p.content b := by
  by_cases hsize : (p.content id).size = p.capacity
  · rw [content, release_contents hsize, Array.getElem?_setIfInBounds_ne h.symm, content]
  · rw [release_of_size_ne hsize]

theorem content_overwrite_self (at_ : Nat) (data : Bytes) (h : id < p.contents.size) :
    (p.overwrite id at_ data).content id = (p.content id).overwrite at_ data := by
  rw [overwrite, content, Array.getElem?_setIfInBounds_self_of_lt h, Option.getD_some]

theorem content_overwrite_of_ne (at_ : Nat) (data : Bytes) (h : b ≠ id) :
    (p.overwrite id at_ data).content b = p.content b := by
  rw [overwrite, content, Array.getElem?_setIfInBounds_ne h.symm, content]

theorem size_put : (p.put s capacity data offset).contents.size = p.contents.size :=
  Array.size_setIfInBounds

theorem content_putBoth_of_notMem (h : b ∉ slots.buffers) :
    (p.putBoth slots capacity data offset).content b = p.content b := by
  simp only [Slots.buffers, List.mem_cons, List.not_mem_nil, or_false, not_or] at h
  rw [putBoth, put, content_overwrite_of_ne _ _ h.2, put, content_overwrite_of_ne _ _ h.1]

/-- The slot's buffer begins with the bytes that the slot holds. -/
structure Keeps (p : Pool) (s : Slot) : Prop where
  met : s.buffer < p.contents.size
  room : s.held.size ≤ (p.content s.buffer).size
  front : (p.content s.buffer).extract 0 s.held.size = s.held

theorem Keeps.of_content_eq (h : p.Keeps s) (hmet : s.buffer < p'.contents.size)
    (hcontent : p'.content s.buffer = p.content s.buffer) : p'.Keeps s :=
  ⟨hmet, hcontent ▸ h.room, hcontent ▸ h.front⟩

/-- What a fill takes in comes behind the bytes that are in the buffer. -/
theorem Keeps.put (h : p.Keeps s) :
    (p.put s capacity data offset).Keeps (s.fill capacity data offset).1 := by
  have hheld : (s.fill capacity data offset).1.held =
      s.held ++ data.extract offset (offset + (s.fill capacity data offset).2) := rfl
  have hcontent := content_overwrite_self s.held.size
    (data.extract offset (offset + (s.fill capacity data offset).2)) h.met
  constructor
  · rw [size_put]
    exact h.met
  · rw [hheld, ByteArray.size_append]
    change _ ≤ ((p.put s capacity data offset).content s.buffer).size
    rw [Pool.put, hcontent]
    exact Bytes.le_size_overwrite h.room _
  · rw [hheld, ByteArray.size_append]
    change ((p.put s capacity data offset).content s.buffer).extract _ _ = _
    rw [Pool.put, hcontent, Bytes.extract_overwrite h.room, h.front]

theorem Keeps.put_of_ne (h : p.Keeps t) (hne : t.buffer ≠ s.buffer) :
    (p.put s capacity data offset).Keeps t := by
  apply h.of_content_eq
  · rw [size_put]
    exact h.met
  · exact content_overwrite_of_ne _ _ hne

/-- Nothing has to be in the buffer of a slot that was cleared, or just lent. -/
theorem keeps_of_held_empty (hmet : s.buffer < p.contents.size) (hheld : s.held = ByteArray.empty) :
    p.Keeps s := by
  constructor
  · exact hmet
  · rw [hheld]
    exact Nat.zero_le _
  · rw [hheld]
    exact ByteArray.extract_same

/-- Both slots are kept. -/
def KeepsBoth (p : Pool) (slots : Slots) : Prop := p.Keeps slots.ready ∧ p.Keeps slots.pending

theorem KeepsBoth.of_content_eq (h : p.KeepsBoth slots)
    (hmet : ∀ b ∈ slots.buffers, b < p'.contents.size)
    (hcontent : ∀ b ∈ slots.buffers, p'.content b = p.content b) : p'.KeepsBoth slots := by
  have hready : slots.ready.buffer ∈ slots.buffers := List.mem_cons_self
  have hpending : slots.pending.buffer ∈ slots.buffers := List.mem_cons_of_mem _ List.mem_cons_self
  exact ⟨h.1.of_content_eq (hmet _ hready) (hcontent _ hready),
    h.2.of_content_eq (hmet _ hpending) (hcontent _ hpending)⟩

theorem KeepsBoth.fill (h : p.KeepsBoth slots) (hbuffers : slots.buffers.Nodup) :
    (p.putBoth slots capacity data offset).KeepsBoth (slots.fill capacity data offset).1 := by
  have hne := Slots.ready_ne_pending hbuffers
  constructor
  · exact h.1.put.put_of_ne hne
  · exact (h.2.put_of_ne hne.symm).put

theorem KeepsBoth.fill_ready (h : p.KeepsBoth slots) (hbuffers : slots.buffers.Nodup) :
    (p.put slots.ready capacity data offset).KeepsBoth
      { slots with ready := (slots.ready.fill capacity data offset).1 } :=
  ⟨h.1.put, h.2.put_of_ne (Slots.ready_ne_pending hbuffers).symm⟩

/-- Slots that were just lent are kept whatever is in their buffers. -/
theorem Lent.keepsBoth {others : Set BufferId} (h : p.Lent slots.buffers others)
    (hready : slots.ready.held = ByteArray.empty) (hpending : slots.pending.held = ByteArray.empty) :
    p.KeepsBoth slots := by
  constructor
  · exact keeps_of_held_empty (h.met _ (by simp [Slots.buffers])) hready
  · exact keeps_of_held_empty (h.met _ (by simp [Slots.buffers])) hpending

theorem KeepsBoth.afterPart (h : p.KeepsBoth slots) (merged : Bool) :
    p.KeepsBoth (slots.afterPart merged) := by
  have hready : p.Keeps slots.ready.cleared := keeps_of_held_empty h.1.met rfl
  have hpending : p.Keeps slots.pending.cleared := keeps_of_held_empty h.2.met rfl
  cases merged with
  | true => exact ⟨hready, hpending⟩
  | false => exact ⟨h.2, hready⟩

end Pool

/-! ## 4. Owners -/

namespace Writer

/-- The writer's buffers are its own, apart from those of others, and begin with the bytes that it has
staged. -/
structure Owns (w : Writer) (p : Pool) (others : Set BufferId) : Prop where
  lent : p.Lent w.buffers others
  keeps : ∀ slots, w.slots = some slots → p.KeepsBoth slots

/-- Whoever holds the other buffers: a writer that owns its own owns them still when it and the pool
have changed, and what is in those of others has stayed there. -/
def StaysApart (w : Writer) (p : Pool) (w' : Writer) (p' : Pool) : Prop :=
  ∀ others, w.Owns p others → w'.Owns p' others ∧ ∀ b ∈ others, p'.content b = p.content b

variable {w w' w₁ : Writer} {p p' p₁ : Pool} {slots : Slots} {others : Set BufferId}

/-- The slots are left as they are, and so is the pool. -/
theorem StaysApart.of_slots_eq (h : w'.slots = w.slots) : w.StaysApart p w' p := by
  rintro others ⟨hlent, hkeeps⟩
  refine ⟨⟨?_, ?_⟩, fun _ _ => rfl⟩
  · rwa [buffers, h]
  · rwa [h]

theorem StaysApart.refl (w : Writer) (p : Pool) : w.StaysApart p w p := .of_slots_eq rfl

theorem StaysApart.trans (h : w.StaysApart p w₁ p₁) (h' : w₁.StaysApart p₁ w' p') :
    w.StaysApart p w' p' := by
  intro others howns
  obtain ⟨howns₁, hsame₁⟩ := h others howns
  obtain ⟨howns', hsame'⟩ := h' others howns₁
  exact ⟨howns', fun b hb => (hsame' b hb).trans (hsame₁ b hb)⟩

theorem Owns.of_slots (hslots : w.slots = some slots) (hlent : p.Lent slots.buffers others)
    (hkeeps : p.KeepsBoth slots) : w.Owns p others := by
  constructor
  · rwa [buffers_of_slots hslots]
  · intro slots' hslots'
    rw [hslots] at hslots'
    cases hslots'
    exact hkeeps

theorem Owns.lent_slots (h : w.Owns p others) (hslots : w.slots = some slots) :
    p.Lent slots.buffers others := by
  rw [← buffers_of_slots hslots]
  exact h.lent

/-- Bytes are put into the buffers of the slots, and the slots hold them. -/
theorem StaysApart.fill (hslots : w.slots = some slots) {capacity : Nat} {data : Bytes} {offset : Nat}
    (hslots' : w'.slots = some (slots.fill capacity data offset).1) :
    w.StaysApart p w' (p.putBoth slots capacity data offset) := by
  intro others howns
  have hlent := howns.lent_slots hslots
  have hsize : (p.putBoth slots capacity data offset).contents.size = p.contents.size :=
    Pool.size_put.trans Pool.size_put
  refine ⟨.of_slots hslots' (hlent.of_same rfl hsize)
    ((howns.keeps slots hslots).fill (List.nodup_append.mp hlent.distinct).1), ?_⟩
  intro b hb
  exact Pool.content_putBoth_of_notMem fun hmem => hlent.apart b hb (List.mem_append_left _ hmem)

/-- Bytes are put into the buffer of the first slot only. -/
theorem StaysApart.fill_ready (hslots : w.slots = some slots) {capacity : Nat} {data : Bytes}
    {offset : Nat}
    (hslots' : w'.slots = some { slots with ready := (slots.ready.fill capacity data offset).1 }) :
    w.StaysApart p w' (p.put slots.ready capacity data offset) := by
  intro others howns
  have hlent := howns.lent_slots hslots
  refine ⟨.of_slots hslots' (hlent.of_same rfl Pool.size_put)
    ((howns.keeps slots hslots).fill_ready (List.nodup_append.mp hlent.distinct).1), ?_⟩
  intro b hb
  apply Pool.content_overwrite_of_ne
  rintro rfl
  exact hlent.apart _ hb List.mem_cons_self

/-- A part was sent: the slots are emptied, or change places. -/
theorem StaysApart.afterPart (hslots : w.slots = some slots) {merged : Bool}
    (hslots' : w'.slots = some (slots.afterPart merged)) : w.StaysApart p w' p := by
  intro others howns
  exact ⟨.of_slots hslots' ((howns.lent_slots hslots).of_perm (slots.buffers_afterPart merged))
    ((howns.keeps slots hslots).afterPart merged), fun _ _ => rfl⟩

end Writer

/-! ## 5. Calls -/

namespace Writing

/-- Whatever the service answers, a writer goes on owning its buffers and leaves those of others
alone. -/
def KeepsApart (x : Writing σ α) : Prop :=
  ∀ (w : Writer) (c : Context σ),
    w.StaysApart c.pool (x.execute w c).2.1 (x.execute w c).2.2.pool

/-- The same of a writer that has these slots. -/
def KeepsApartWith (slots : Slots) (x : Writing σ α) : Prop :=
  ∀ (w : Writer) (c : Context σ), w.slots = some slots →
    w.StaysApart c.pool (x.execute w c).2.1 (x.execute w c).2.2.pool

theorem KeepsApart.with {x : Writing σ α} (h : x.KeepsApart) (slots : Slots) :
    x.KeepsApartWith slots :=
  fun w c _ => h w c

theorem keepsApart_pure (a : α) : (pure a : Writing σ α).KeepsApart := fun w c => .refl w c.pool

theorem keepsApart_throw (e : Error) : (throw e : Writing σ α).KeepsApart :=
  fun w c => .refl w c.pool

theorem keepsApart_writer : (writer : Writing σ Writer).KeepsApart := fun w c => .refl w c.pool

theorem keepsApart_ofRun {x : Run σ α} (h : x.KeepsPool) : (ofRun x).KeepsApart := by
  intro w c
  rw [execute_ofRun, h c]
  exact .refl w c.pool

/-- The slots are left as they are. -/
theorem keepsApart_change {f : Writer → Writer} (h : ∀ w, (f w).slots = w.slots) :
    (change f : Writing σ Unit).KeepsApart :=
  fun w _ => .of_slots_eq (h w)

theorem KeepsApart.bind {x : Writing σ α} {f : α → Writing σ β} (hx : x.KeepsApart)
    (hf : ∀ a, (f a).KeepsApart) : (x >>= f).KeepsApart := by
  intro w c
  have hfirst := hx w c
  rw [execute_bind]
  rcases hrun : x.execute w c with ⟨e | a, w₁, c₁⟩ <;> rw [hrun] at hfirst
  · exact hfirst
  · exact hfirst.trans (hf a w₁ c₁)

theorem KeepsApart.attempt {x : Writing σ α} (hx : x.KeepsApart) : (attempt x).KeepsApart := by
  intro w c
  rw [execute_attempt]
  exact hx w c

theorem KeepsApart.discard {x : Writing σ α} (hx : x.KeepsApart) :
    (Functor.discard x).KeepsApart :=
  hx.bind fun _ => keepsApart_pure _

end Writing

namespace Writer

open Writing

variable {w : Writer} {c : Context σ}

/-- Two buffers are lent to a writer that has none, and the writer has the slots then. -/
theorem borrow_staysApart (w : Writer) (c : Context σ) :
    ∃ slots c', borrow.execute w c = (.ok slots, { w with slots := some slots }, c') ∧
      w.StaysApart c.pool { w with slots := some slots } c'.pool := by
  simp only [borrow, Writing.execute_bind, Writing.execute_writer]
  rcases hslots : w.slots with _ | slots
  · refine ⟨_, _, rfl, ?_⟩
    intro others howns
    have hlent := howns.lent
    rw [buffers_of_none hslots] at hlent
    have hlent' := hlent.acquire.acquire.of_perm (.swap _ _ _)
    refine ⟨.of_slots rfl hlent' (hlent'.keepsBoth rfl rfl), ?_⟩
    intro b hb
    exact (Pool.content_acquire_of_lt (hlent.acquire.othersMet b hb)).trans
      (Pool.content_acquire_of_lt (hlent.othersMet b hb))
  · have hw : { w with slots := some slots } = w := by rw [← hslots]
    exact ⟨slots, c, by rw [hw]; rfl, by rw [hw]; exact .refl w c.pool⟩

/-- What goes on with the slots that were lent. -/
theorem keepsApart_borrowing {f : Slots → Writing σ α} (h : ∀ slots, (f slots).KeepsApartWith slots) :
    (borrow >>= f).KeepsApart := by
  intro w c
  obtain ⟨slots, c', hrun, hstays⟩ := borrow_staysApart w c
  rw [Writing.execute_bind, hrun]
  exact hstays.trans (h slots _ c' rfl)

theorem release_keepsApart : (release : Writing σ Unit).KeepsApart := by
  intro w c
  simp only [release, execute_modify]
  rcases hslots : w.slots with _ | slots
  · exact .refl w c.pool
  · intro others howns
    have hlent := howns.lent_slots hslots
    refine ⟨⟨hlent.release.release, by simp⟩, ?_⟩
    intro b hb
    have hne : ∀ id ∈ slots.buffers, b ≠ id := by
      rintro id hid rfl
      exact hlent.apart b hb (List.mem_append_left _ hid)
    exact (Pool.content_release_of_ne (hne _ (by simp [Slots.buffers]))).trans
      (Pool.content_release_of_ne (hne _ (by simp [Slots.buffers])))

theorem ensureActive_keepsApart : (ensureActive : Writing σ Unit).KeepsApart := by
  apply keepsApart_writer.bind
  intro w
  split
  · exact keepsApart_pure _
  · exact keepsApart_throw _

theorem report_keepsApart (n : Notice) : (ofRun (Run.report n) : Writing σ Unit).KeepsApart :=
  keepsApart_ofRun (Run.keepsPool_report n)

theorem countEnding_keepsApart (e : Ending) : (countEnding e : Writing σ Unit).KeepsApart :=
  keepsApart_ofRun (Run.keepsPool_count _)

theorem enter_keepsApart (phase : Phase) : (enter phase : Writing σ Unit).KeepsApart :=
  keepsApart_change fun _ => rfl

theorem stage_keepsApart (policy : Policy) (data : Bytes) (slots : Slots) (offset : Nat)
    {x : Writing σ α} (hx : x.KeepsApartWith (slots.fill policy.chunk data offset).1) :
    (stage policy data slots offset >>= fun _ => x).KeepsApartWith slots := by
  intro w c hslots
  have hfill : w.StaysApart c.pool
      { w with
        slots := some (slots.fill policy.chunk data offset).1
        size := w.size + (slots.fill policy.chunk data offset).2 }
      (c.pool.putBoth slots policy.chunk data offset) := .fill hslots rfl
  rw [Writing.execute_bind, execute_stage]
  exact hfill.trans (hx _ { c with pool := c.pool.putBoth slots policy.chunk data offset } rfl)

variable [Service σ]

theorem sendPart_keepsApart (body : Bytes) : (sendPart body : Writing σ Unit).KeepsApart := by
  apply keepsApart_writer.bind
  intro w
  apply (keepsApart_ofRun (Client.uploadPart_decodes w.session _ body).keepsPool).bind
  intro part
  apply (keepsApart_change ?_).bind
  · intro _
    exact keepsApart_ofRun (Run.keepsPool_count _)
  · intro w
    rfl

/-- A part is sent, and its bytes leave the slots when it has arrived. -/
theorem sendPart_then_keepsApart (slots : Slots) (merged : Bool) (body : Bytes) {x : Writing σ α}
    (hx : x.KeepsApartWith (slots.afterPart merged)) : KeepsApartWith slots (do
      sendPart body
      change fun w => { w with slots := some (slots.afterPart merged) }
      x) := by
  intro w c hslots
  obtain ⟨_, c', -, hpool, -, ⟨part, hrun⟩ | ⟨e, -, hrun⟩⟩ := sendPart_asks w c body <;>
    rw [Writing.execute_bind, hrun, ← hpool]
  · exact (StaysApart.afterPart hslots rfl).trans (hx _ c' rfl)
  · exact .refl w c'.pool

theorem flush_keepsApart : (flush : Writing σ Unit).KeepsApart := by
  intro w c
  simp only [flush, Writing.execute_bind writer, Writing.execute_writer]
  rcases hslots : w.slots with _ | slots
  · exact .refl w c.pool
  · dsimp only
    split
    · exact .refl w c.pool
    · exact sendPart_then_keepsApart slots _ _ ((keepsApart_pure ()).with _) w c hslots

theorem feed_keepsApart (policy : Policy) (data : Bytes) (slots : Slots) (offset : Nat) :
    (feed policy data slots offset : Writing σ Nat).KeepsApartWith slots := by
  induction slots, offset using feed.induct policy data with
  | case1 slots offset hlt filled hfull =>
    rename_i ih
    rw [feed, if_pos hlt, if_pos hfull]
    exact stage_keepsApart policy data slots offset (sendPart_then_keepsApart filled.1 false _ ih)
  | case2 slots offset hlt filled hroom =>
    rename_i ih
    rw [feed, if_pos hlt, if_neg hroom]
    exact stage_keepsApart policy data slots offset ih
  | case3 slots offset hge =>
    rw [feed, if_neg hge]
    exact (keepsApart_pure offset).with slots

theorem takeIn_keepsApart (data : Bytes) : (takeIn data : Writing σ Nat).KeepsApart := by
  apply keepsApart_borrowing
  intro slots w c
  exact feed_keepsApart w.policy data slots 0 w c

theorem completeSource_keepsApart : (completeSource : Writing σ Unit).KeepsApart := by
  apply keepsApart_writer.bind
  intro w
  split
  · have hcomplete := (Client.completeUpload_decodes (σ := σ) w.session w.parts).quiet
      (p := fun _ => True) trivial
    apply (keepsApart_ofRun (orAbort_quiet trivial hcomplete).asksOnly.keepsPool).discard.bind
    intro _
    exact keepsApart_change fun _ => rfl
  · exact keepsApart_pure _

theorem replaceSession_keepsApart : (replaceSession : Writing σ Unit).KeepsApart := by
  apply completeSource_keepsApart.bind
  intro _
  apply keepsApart_writer.bind
  intro w
  dsimp only
  apply (keepsApart_ofRun (Client.createUpload_decodes _ _ _).keepsPool).bind
  intro new
  have hcarry := (carryOver_quiet (σ := σ) w.session new w.size (repairMode w.policy w.size)).mono
    (q := fun _ => True) fun _ _ => trivial
  apply (keepsApart_ofRun (orAbort_quiet trivial hcarry).asksOnly.keepsPool).bind
  rintro ⟨parts, content⟩
  apply (keepsApart_change ?_).bind
  · intro _
    have hend : KeepsApart (do
        ofRun (Run.count fun m => m.addRepair (repairMode w.policy w.size))
        ofRun (Run.report (.replaced w.session.key w.session.uploadId new.uploadId
          (repairMode w.policy w.size) w.size)) : Writing σ Unit) :=
      (keepsApart_ofRun (Run.keepsPool_count _)).bind fun _ => report_keepsApart _
    split
    · apply keepsApart_borrowing
      intro slots w' c hslots
      have hfill : w'.StaysApart c.pool
          { w' with slots := some { slots with
            ready := (slots.ready.fill w.policy.chunk content 0).1 } }
          (c.pool.put slots.ready w.policy.chunk content 0) := .fill_ready hslots rfl
      exact hfill.trans (hend _ { c with pool := c.pool.put slots.ready w.policy.chunk content 0 })
    · exact hend
  · intro w
    rfl

/-! ## 6. Operations -/

theorem write_keepsApart (data : Bytes) : (write data : Writing σ Nat).KeepsApart := by
  apply ensureActive_keepsApart.bind
  intro _
  dsimp only
  split
  · exact keepsApart_pure _
  · apply keepsApart_writer.bind
    intro w
    split
    · exact replaceSession_keepsApart.bind fun _ => takeIn_keepsApart data
    · exact takeIn_keepsApart data

theorem flushRelease_keepsApart : (flushRelease : Writing σ Unit).KeepsApart := by
  apply flush_keepsApart.attempt.bind
  intro result
  apply release_keepsApart.bind
  intro _
  apply (countEnding_keepsApart _).bind
  intro _
  cases result with
  | ok => exact keepsApart_pure _
  | error e => exact keepsApart_throw e

theorem close_keepsApart : (close : Writing σ Unit).KeepsApart := by
  apply ensureActive_keepsApart.bind
  intro _
  apply keepsApart_writer.bind
  intro w
  apply (enter_keepsApart _).bind
  intro _
  dsimp only
  split
  · exact (report_keepsApart _).bind fun _ => flushRelease_keepsApart
  · exact flushRelease_keepsApart

theorem complete_keepsApart : (complete : Writing σ Unit).KeepsApart := by
  apply keepsApart_writer.bind
  intro w
  apply (keepsApart_ofRun (Client.completeUpload_decodes w.session w.parts).keepsPool).attempt.bind
  rintro (e | etag)
  · apply (report_keepsApart _).bind
    intro _
    apply (keepsApart_ofRun (abortQuietly_quiet (p := fun _ => True) trivial).asksOnly.keepsPool).bind
    intro _
    exact (countEnding_keepsApart _).bind fun _ => keepsApart_throw e
  · exact (countEnding_keepsApart _).bind fun _ => report_keepsApart _

theorem commit_keepsApart : (commit : Writing σ Unit).KeepsApart := by
  have hend : KeepsApart (do
      enter .committed
      release
      complete : Writing σ Unit) :=
    (enter_keepsApart _).bind fun _ => release_keepsApart.bind fun _ => complete_keepsApart
  apply ensureActive_keepsApart.bind
  intro _
  apply keepsApart_writer.bind
  intro w
  split
  · apply (enter_keepsApart _).bind
    intro _
    apply release_keepsApart.bind
    intro _
    exact (countEnding_keepsApart _).bind fun _ => report_keepsApart _
  · apply flush_keepsApart.bind
    intro _
    apply keepsApart_writer.bind
    intro w
    split
    · exact (sendPart_keepsApart _).bind fun _ => hend
    · exact hend

theorem cancel_keepsApart : (cancel : Writing σ Unit).KeepsApart := by
  apply ensureActive_keepsApart.bind
  intro _
  apply keepsApart_writer.bind
  intro w
  apply (enter_keepsApart _).bind
  intro _
  apply release_keepsApart.bind
  intro _
  apply (countEnding_keepsApart _).bind
  intro _
  split
  · apply (keepsApart_ofRun (Client.abortUpload_decodes w.session).keepsPool).attempt.bind
    rintro (e | ⟨⟩)
    · exact (report_keepsApart _).bind fun _ => keepsApart_throw e
    · exact keepsApart_pure _
  · exact keepsApart_pure _

end Writer

end ResumableStorage
