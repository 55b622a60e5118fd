/-
  ResumableStorage/Proofs/Upload/Borrowing.lean
  =============================================
  **Borrowers of one pool** — any number of borrowers take buffers from a pool, bring
  buffers of their own along, write into what they hold and give it back, in any order.
  As long as nobody writes into a buffer, or gives it back, without holding it, every buffer
  that is lent is as long as it should be, all zero, and held by nobody else; and the pool
  keeps no more idle buffers than it may.

  What a step keeps is said of all borrowers at once: the holdings and the idle buffers
  divide the buffers among them, and idle buffers are zeroed.
-/
import ResumableStorage.Proofs.Upload.Lending

namespace ResumableStorage

/-! ## 1. One step of the pool -/

theorem Bytes.getElem_zeros {n i : Nat} (h : i < (Bytes.zeros n).size) : (Bytes.zeros n)[i] = 0 := by
  have hdata : (Bytes.zeros n).data = Array.replicate n 0 := data_replicate n 0
  rw [ByteArray.getElem_eq_getElem_data]
  simp only [hdata, Array.getElem_replicate]

namespace Pool

variable {p : Pool} {id b : BufferId}

/-- A pool that has met no buffer yet. -/
def fresh {capacity : Nat} (h : 0 < capacity) (maxIdle : Option Int) : Pool :=
  ⟨capacity, h, maxIdle, [], #[]⟩

/-- What is made of a capacity that is positive: such a pool, unless the machine makes no buffer of that
length. -/
theorem make?_of_pos (m : Machine) {capacity : Nat} (h : 0 < capacity) (maxIdle : Option Int) :
    make? m capacity maxIdle = match m.checkBuffer capacity with
      | .error e => .error (.unmade e)
      | .ok () => .ok (fresh h maxIdle) := by
  unfold make?
  rw [dif_neg (by omega)]
  rfl

theorem make?_eq_ok (m : Machine) {capacity : Nat} (h : 0 < capacity) (maxIdle : Option Int) :
    make? m capacity maxIdle = .ok p ↔ m.MakesBuffer capacity ∧ p = fresh h maxIdle := by
  rw [make?_of_pos m h, ← m.checkBuffer_eq_ok_iff]
  rcases m.checkBuffer capacity with e | ⟨⟩
  · simp
  · simp only [Except.ok.injEq, true_and]
    exact eq_comm

theorem hasRoom_iff : p.hasRoom = true ↔ ∀ n, p.maxIdle = some n → (p.idle.length : Int) < n := by
  rcases hmax : p.maxIdle with _ | n
  · simp [hasRoom, hmax]
  · simp [hasRoom, hmax]

theorem content_adopt_self (data : Bytes) : (p.adopt data).2.content (p.adopt data).1 = data := by
  rw [content, adopt, Array.getElem?_push_size, Option.getD_some]

/-- What a release does: it puts a buffer of the pool's own size back, zeroed, if there is room. -/
theorem release_idle (p : Pool) (id : BufferId) : (p.release id).idle =
    if (p.content id).size = p.capacity ∧ p.hasRoom = true then id :: p.idle else p.idle := by
  unfold release
  by_cases hsize : (p.content id).size = p.capacity
  · by_cases hroom : p.hasRoom = true
    · simp [hsize, hroom]
    · simp [hsize, hroom]
  · simp [hsize]

theorem release_capacity (p : Pool) (id : BufferId) : (p.release id).capacity = p.capacity := by
  unfold release
  dsimp only
  split
  · rfl
  · split <;> rfl

theorem release_maxIdle (p : Pool) (id : BufferId) : (p.release id).maxIdle = p.maxIdle := by
  unfold release
  dsimp only
  split
  · rfl
  · split <;> rfl

theorem content_release_self (hsize : (p.content id).size = p.capacity)
    (hmet : id < p.contents.size) : (p.release id).content id = Bytes.zeros p.capacity := by
  rw [content, release_contents hsize, Array.getElem?_setIfInBounds_self_of_lt hmet,
    Option.getD_some]

/-! ## 2. Idle buffers -/

/-- Idle buffers are apart from each other, as long as they should be and zeroed, and not more than
may be idle. -/
structure Tidy (p : Pool) : Prop where
  distinct : p.idle.Nodup
  met : ∀ b ∈ p.idle, b < p.contents.size
  zeroed : ∀ b ∈ p.idle, p.content b = Bytes.zeros p.capacity
  bounded : ∀ n, p.maxIdle = some n → (p.idle.length : Int) ≤ max n 0

theorem fresh_tidy {capacity : Nat} (h : 0 < capacity) (maxIdle : Option Int) :
    (fresh h maxIdle).Tidy := by
  refine ⟨List.nodup_nil, nofun, nofun, ?_⟩
  intro n _
  exact le_max_right n 0

theorem Tidy.adopt (h : p.Tidy) (data : Bytes) : (p.adopt data).2.Tidy := by
  refine ⟨h.distinct, ?_, ?_, h.bounded⟩
  · intro b hb
    change b < (p.contents.push data).size
    rw [Array.size_push]
    exact Nat.lt_succ_of_lt (h.met b hb)
  · intro b hb
    rw [content_adopt_of_lt data (h.met b hb)]
    exact h.zeroed b hb

theorem Tidy.acquire (h : p.Tidy) : p.acquire.2.Tidy := by
  unfold Pool.acquire
  split
  · rename_i id rest hidle
    have hrest : rest.Sublist p.idle := by
      rw [hidle]
      exact List.sublist_cons_self id rest
    refine ⟨hrest.nodup h.distinct, fun b hb => h.met b (hrest.subset hb),
      fun b hb => h.zeroed b (hrest.subset hb), ?_⟩
    intro n hn
    have hbound := h.bounded n hn
    have hlength := hrest.length_le
    dsimp only
    omega
  · exact h.adopt _

/-- The buffer that is lent next is zeroed: it was idle, or is new. -/
theorem Tidy.content_acquire (h : p.Tidy) :
    p.acquire.2.content p.acquire.1 = Bytes.zeros p.capacity := by
  unfold Pool.acquire
  split
  · rename_i id rest hidle
    apply h.zeroed id
    rw [hidle]
    exact List.mem_cons_self
  · exact content_adopt_self _

/-- No idle buffer is written into. -/
theorem Tidy.overwrite (h : p.Tidy) (hid : id ∉ p.idle) (at_ : Nat) (data : Bytes) :
    (p.overwrite id at_ data).Tidy := by
  refine ⟨h.distinct, ?_, ?_, h.bounded⟩
  · intro b hb
    change b < (p.contents.setIfInBounds _ _).size
    rw [Array.size_setIfInBounds]
    exact h.met b hb
  · intro b hb
    have hne : b ≠ id := fun he => hid (he ▸ hb)
    rw [content_overwrite_of_ne at_ data hne]
    exact h.zeroed b hb

theorem Tidy.release (h : p.Tidy) (hid : id ∉ p.idle) (hmet : id < p.contents.size) :
    (p.release id).Tidy := by
  by_cases hsize : (p.content id).size = p.capacity
  · have hmem : ∀ b ∈ (p.release id).idle, b = id ∨ b ∈ p.idle := by
      intro b hb
      rw [release_idle] at hb
      split at hb
      · exact List.mem_cons.mp hb
      · exact .inr hb
    constructor
    · rw [release_idle]
      split
      · exact List.nodup_cons.mpr ⟨hid, h.distinct⟩
      · exact h.distinct
    · intro b hb
      rw [release_contents hsize, Array.size_setIfInBounds]
      rcases hmem b hb with rfl | hidle
      · exact hmet
      · exact h.met b hidle
    · intro b hb
      rw [release_capacity]
      by_cases hbid : b = id
      · rw [hbid]
        exact content_release_self hsize hmet
      · rw [content_release_of_ne hbid]
        exact h.zeroed b ((hmem b hb).resolve_left hbid)
    · intro n hn
      rw [release_maxIdle] at hn
      rw [release_idle]
      split
      · rename_i hfits
        have hlt := hasRoom_iff.mp hfits.2 n hn
        rw [List.length_cons]
        omega
      · exact h.bounded n hn
  · rw [release_of_size_ne hsize]
    exact h

end Pool

/-! ## 3. Borrowers -/

/-- What a borrower does with a pool.  The buffers that it brings along may have any size. -/
inductive Dealing where
  | acquire
  | bring (data : Bytes)
  | fill (id : BufferId) (at_ : Nat) (data : Bytes)
  | release (id : BufferId)

/-- A pool, and the buffers that each borrower holds. -/
structure Loans (ι : Type) where
  pool : Pool
  held : ι → List BufferId

namespace Loans

variable {ι : Type} [DecidableEq ι] {l : Loans ι} {p : Pool}

/-- Nobody holds a buffer. -/
def start (p : Pool) : Loans ι := ⟨p, fun _ => []⟩

def deal (l : Loans ι) (who : ι) : Dealing → Loans ι
  | .acquire =>
    ⟨l.pool.acquire.2, Function.update l.held who (l.pool.acquire.1 :: l.held who)⟩
  | .bring data =>
    ⟨(l.pool.adopt data).2, Function.update l.held who ((l.pool.adopt data).1 :: l.held who)⟩
  | .fill id at_ data => ⟨l.pool.overwrite id at_ data, l.held⟩
  | .release id => ⟨l.pool.release id, Function.update l.held who ((l.held who).erase id)⟩

/-- Only a buffer that is held is written into, or given back. -/
def Allows (l : Loans ι) (who : ι) : Dealing → Prop
  | .acquire | .bring _ => True
  | .fill id _ _ | .release id => id ∈ l.held who

instance (l : Loans ι) (who : ι) (d : Dealing) : Decidable (l.Allows who d) :=
  match d with
  | .acquire | .bring _ => .isTrue trivial
  | .fill id _ _ | .release id => inferInstanceAs (Decidable (id ∈ l.held who))

def after (l : Loans ι) : List (ι × Dealing) → Loans ι
  | [] => l
  | (who, d) :: rest => (l.deal who d).after rest

/-- Each step is allowed when it is taken. -/
def AllowsAll (l : Loans ι) : List (ι × Dealing) → Prop
  | [] => True
  | (who, d) :: rest => l.Allows who d ∧ (l.deal who d).AllowsAll rest

instance decidableAllowsAll (l : Loans ι) : (steps : List (ι × Dealing)) →
    Decidable (l.AllowsAll steps)
  | [] => .isTrue trivial
  | (who, d) :: rest =>
    have := decidableAllowsAll (l.deal who d) rest
    inferInstanceAs (Decidable (l.Allows who d ∧ (l.deal who d).AllowsAll rest))

/-! ## 4. What all steps keep -/

/-- No buffer is in two places, the idle ones are tidy, and the pool is still for buffers of one
size, so many of which may be idle. -/
structure Sound (l : Loans ι) (capacity : Nat) (maxIdle : Option Int) : Prop where
  capacity_eq : l.pool.capacity = capacity
  maxIdle_eq : l.pool.maxIdle = maxIdle
  tidy : l.pool.Tidy
  divided : l.pool.Divided l.held

variable {capacity : Nat} {maxIdle : Option Int}

omit [DecidableEq ι] in
theorem start_sound (h : 0 < capacity) (maxIdle : Option Int) :
    (start (Pool.fresh h maxIdle) : Loans ι).Sound capacity maxIdle := by
  refine ⟨rfl, rfl, Pool.fresh_tidy h maxIdle, ?_⟩
  intro i
  refine ⟨List.nodup_nil, ?_, nofun, ?_⟩
  · rintro b ⟨_, -, hb⟩
    cases hb
  · rintro b ⟨_, -, hb⟩
    cases hb

omit [DecidableEq ι] in
theorem Sound.not_idle (h : l.Sound capacity maxIdle) {who : ι} {b : BufferId}
    (hb : b ∈ l.held who) : b ∉ l.pool.idle :=
  fun hidle => (List.nodup_append.mp (h.divided who).distinct).2.2 b hb b hidle rfl

omit [DecidableEq ι] in
theorem Sound.held_once (h : l.Sound capacity maxIdle) {i j : ι} {b : BufferId}
    (hi : b ∈ l.held i) (hj : b ∈ l.held j) : i = j := by
  by_contra hne
  exact (h.divided j).apart b ⟨i, hne, hi⟩ (List.mem_append_left _ hj)

omit [DecidableEq ι] in
theorem Sound.acquired_new (h : l.Sound capacity maxIdle) (who : ι) :
    l.pool.acquire.1 ∉ l.held who := by
  have hfront := (h.divided who).acquire.distinct
  rw [List.cons_append] at hfront
  exact fun hheld => (List.nodup_cons.mp hfront).1 (List.mem_append_left _ hheld)

theorem Sound.deal (h : l.Sound capacity maxIdle) {who : ι} {d : Dealing}
    (hd : l.Allows who d) : (l.deal who d).Sound capacity maxIdle := by
  have hlent := h.divided who
  cases d with
  | acquire =>
    have hpool : l.pool.acquire.2.capacity = l.pool.capacity ∧
        l.pool.acquire.2.maxIdle = l.pool.maxIdle := by
      unfold Pool.acquire
      split <;> exact ⟨rfl, rfl⟩
    exact ⟨hpool.1.trans h.capacity_eq, hpool.2.trans h.maxIdle_eq, h.tidy.acquire,
      h.divided.update who hlent.acquire⟩
  | bring data =>
    exact ⟨h.capacity_eq, h.maxIdle_eq, h.tidy.adopt data,
      h.divided.update who (hlent.adopt data)⟩
  | fill id at_ data =>
    have hsize : (l.pool.overwrite id at_ data).contents.size = l.pool.contents.size :=
      Array.size_setIfInBounds
    refine ⟨h.capacity_eq, h.maxIdle_eq, h.tidy.overwrite (h.not_idle hd) at_ data, ?_⟩
    intro i
    refine ⟨(h.divided i).distinct, (h.divided i).apart, ?_, ?_⟩
    · intro b hb
      change b < (l.pool.overwrite id at_ data).contents.size
      rw [hsize]
      exact (h.divided i).met b hb
    · intro b hb
      change b < (l.pool.overwrite id at_ data).contents.size
      rw [hsize]
      exact (h.divided i).othersMet b hb
  | release id =>
    have hfront : l.pool.Lent (id :: (l.held who).erase id) {b | ∃ j, j ≠ who ∧ b ∈ l.held j} :=
      hlent.of_perm (List.perm_cons_erase hd).symm
    have hmet : id < l.pool.contents.size := hlent.met id (List.mem_append_left _ hd)
    exact ⟨(Pool.release_capacity _ id).trans h.capacity_eq,
      (Pool.release_maxIdle _ id).trans h.maxIdle_eq, h.tidy.release (h.not_idle hd) hmet,
      h.divided.update who hfront.release⟩

theorem Sound.after (h : l.Sound capacity maxIdle) {steps : List (ι × Dealing)}
    (hsteps : l.AllowsAll steps) : (l.after steps).Sound capacity maxIdle := by
  induction steps generalizing l with
  | nil => exact h
  | cons step rest ih =>
    obtain ⟨who, d⟩ := step
    exact ih (h.deal hsteps.1) hsteps.2

/-! ## 5. Lending is safe -/

/-- A pool is made and is new when the machine makes a buffer of its capacity.  Whatever borrowers have
done with a pool that was new: idle buffers are apart from each other and
from those that are held, nobody holds what another one holds, and no more are idle than may be.
The buffer that is lent next has the right size, is all zero, and is held by nobody.  A buffer that
comes back is idle from then on exactly when its size is the right one and there is room. -/
theorem lending_is_safe (hcapacity : 0 < capacity) (maxIdle : Option Int)
    {steps : List (ι × Dealing)} (hsteps : (start (.fresh hcapacity maxIdle)).AllowsAll steps)
    (hl : l = (start (.fresh hcapacity maxIdle)).after steps) :
    (∀ (m : Machine) p, Pool.make? m capacity maxIdle = .ok p ↔
      m.MakesBuffer capacity ∧ p = .fresh hcapacity maxIdle) ∧
    (l.pool.idle.Nodup ∧ (∀ i, ∀ b ∈ l.held i, b ∉ l.pool.idle) ∧
      ∀ i j b, b ∈ l.held i → b ∈ l.held j → i = j) ∧
    (∀ n, maxIdle = some n → (l.pool.idle.length : Int) ≤ max n 0) ∧
    (∀ b p, l.pool.acquire = (b, p) → (p.content b).size = capacity ∧
      (∀ k, (h : k < (p.content b).size) → (p.content b)[k] = 0) ∧ ∀ i, b ∉ l.held i) ∧
    ∀ i, ∀ b ∈ l.held i,
      ((l.pool.release b).idle.length = l.pool.idle.length + 1 ↔
        (l.pool.content b).size = capacity ∧
          ∀ n, maxIdle = some n → (l.pool.idle.length : Int) < n) ∧
      ((l.pool.release b).idle.length = l.pool.idle.length + 1 ∨
        (l.pool.release b).idle.length = l.pool.idle.length) := by
  have hsound : l.Sound capacity maxIdle := by
    rw [hl]
    exact (start_sound hcapacity maxIdle).after hsteps
  refine ⟨fun m p => Pool.make?_eq_ok m hcapacity maxIdle, ⟨hsound.tidy.distinct,
    fun i b => hsound.not_idle, fun i j b => hsound.held_once⟩, ?_, ?_, ?_⟩
  · intro n hn
    exact hsound.tidy.bounded n (hsound.maxIdle_eq.trans hn)
  · intro b p hacquire
    have hcontent := hsound.tidy.content_acquire
    have hnew := hsound.acquired_new
    rw [hacquire] at hcontent hnew
    dsimp only at hcontent hnew
    rw [hcontent, hsound.capacity_eq]
    exact ⟨Bytes.size_zeros capacity, fun k => Bytes.getElem_zeros, hnew⟩
  · intro i b _
    have hfits : (l.pool.content b).size = l.pool.capacity ∧ l.pool.hasRoom = true ↔
        (l.pool.content b).size = capacity ∧
          ∀ n, maxIdle = some n → (l.pool.idle.length : Int) < n := by
      rw [Pool.hasRoom_iff, hsound.capacity_eq, hsound.maxIdle_eq]
    rw [← hfits, Pool.release_idle]
    by_cases h : (l.pool.content b).size = l.pool.capacity ∧ l.pool.hasRoom = true
    · rw [if_pos h, List.length_cons]
      exact ⟨iff_of_true rfl h, .inl rfl⟩
    · rw [if_neg h]
      exact ⟨iff_of_false (by omega) h, .inr rfl⟩

/-- Two borrowers of a pool that keeps one idle buffer.  The first one fills a buffer and gives it
back; the second one brings two along, one of them too short, and gives both back. -/
theorem lending_is_safe_with_foreign_buffers :
    let steps : List (Bool × Dealing) := [(false, .acquire), (false, .fill 0 0 ⟨#[7, 7]⟩),
      (true, .bring ⟨#[1, 2]⟩), (true, .bring ⟨#[3]⟩), (true, .acquire), (false, .release 0),
      (true, .release 2)]
    let l := (start (.fresh (by decide : 0 < 2) (some 1))).after steps
    (start (.fresh (by decide : 0 < 2) (some 1))).AllowsAll steps ∧ l.pool.idle = [0] ∧
      l.held true = [3, 1] ∧ (∀ b p, l.pool.acquire = (b, p) → (p.content b).size = 2 ∧
        (∀ k, (h : k < (p.content b).size) → (p.content b)[k] = 0) ∧ ∀ i, b ∉ l.held i) ∧
      (l.pool.release 1).idle.length = 1 := by
  intro steps l
  have hsteps : (start (.fresh (by decide : 0 < 2) (some 1))).AllowsAll steps := by
    decide +kernel
  obtain ⟨-, -, -, hacquire, hrelease⟩ :=
    lending_is_safe (by decide) (some 1) hsteps (rfl : l = _)
  have hidle : l.pool.idle = [0] := by decide +kernel
  have hheld : l.held true = [3, 1] := by decide +kernel
  refine ⟨hsteps, hidle, hheld, hacquire, ?_⟩
  obtain ⟨hgrows, hlength⟩ := hrelease true 1 (by rw [hheld]; decide)
  rw [hidle] at hgrows hlength
  exact hlength.resolve_left fun hgrown => absurd ((hgrows.mp hgrown).2 1 rfl) (by decide)

end Loans

end ResumableStorage
