/-
  ResumableStorage/Proofs/Volume/Interleaving.lean
  ================================================
  **Writers of one volume do not influence each other** — steps about the writers of
  several keys are interleaved, over one store and one pool.  What is answered to the
  steps of a key, what its writers count, and the object at the key, are the same as when
  the steps of this key are taken alone.  No buffer is ever held by two writers, and each
  writer finds what it has staged in its own.

  The other keys are a region of their own, in which a step of this key changes nothing;
  so the two runs stay twins at the key, whichever step comes next.
-/
import ResumableStorage.Proofs.Upload.Lending
import ResumableStorage.Proofs.Volume.Desk

namespace ResumableStorage

variable {σ : Type}

/-! ## 1. Schedules -/

/-- Steps about the writers of paths, in the order in which they are taken. -/
abbrev Schedule := List (String × WriterStep)

/-- What was answered to a step, with the key that the step was about. -/
abbrev Reply := String × Except Error Answer

/-- The reply without the identifier of an upload. -/
def Reply.anonymous (r : Reply) : Reply := (r.1, r.2.map Answer.anonymous)

/-- The replies to the steps that are about one key. -/
def repliesAt (key : String) (replies : List Reply) : List Reply :=
  replies.filter fun r => r.1 = key

theorem repliesAt_concat_same (key : String) (replies : List Reply)
    (result : Except Error Answer) :
    repliesAt key (replies ++ [(key, result)]) = repliesAt key replies ++ [(key, result)] := by
  simp [repliesAt]

theorem repliesAt_concat_other {key other : String} (replies : List Reply)
    (result : Except Error Answer) (h : other ≠ key) :
    repliesAt key (replies ++ [(other, result)]) = repliesAt key replies := by
  simp [repliesAt, h]

/-- What a writer has counted: the size, the parts, the phase, and the bytes that are staged. -/
def Writer.account (w : Writer) : Int × List Part × Phase × Option (Bytes × Bytes) :=
  (w.size, w.parts, w.phase, w.slots.map Slots.held)

namespace Volume

/-- The steps that are about one key. -/
def stepsAt (v : Volume) (key : String) (schedule : Schedule) : Schedule :=
  schedule.filter fun x => v.key x.1 = key

theorem stepsAt_append (v : Volume) (key : String) (schedule rest : Schedule) :
    v.stepsAt key (schedule ++ rest) = v.stepsAt key schedule ++ v.stepsAt key rest :=
  List.filter_append ..

theorem stepsAt_concat_same (v : Volume) (schedule : Schedule) (path : String) (step : WriterStep) :
    v.stepsAt (v.key path) (schedule ++ [(path, step)]) =
      v.stepsAt (v.key path) schedule ++ [(path, step)] := by
  simp [stepsAt]

theorem stepsAt_concat_other (v : Volume) (schedule : Schedule) {path key : String}
    (step : WriterStep) (h : v.key path ≠ key) :
    v.stepsAt key (schedule ++ [(path, step)]) = v.stepsAt key schedule := by
  simp [stepsAt, h]

section

variable [Service σ]

/-- The replies to one step after the other, and the desk then. -/
def serve (v : Volume) (desk : Desk σ) : Schedule → List Reply × Desk σ
  | [] => ([], desk)
  | (path, step) :: rest =>
    let (answer, desk) := v.step desk path step
    let (replies, desk) := v.serve desk rest
    ((v.key path, answer) :: replies, desk)

theorem serve_concat (v : Volume) (desk : Desk σ) (schedule : Schedule) (path : String)
    (step : WriterStep) : v.serve desk (schedule ++ [(path, step)]) =
      ((v.serve desk schedule).1 ++ [(v.key path, (v.step (v.serve desk schedule).2 path step).1)],
        (v.step (v.serve desk schedule).2 path step).2) := by
  induction schedule generalizing desk with
  | nil => rfl
  | cons x schedule ih =>
    obtain ⟨path', step'⟩ := x
    simp only [List.cons_append, serve, ih]

theorem step_writers_of_ne (v : Volume) (desk : Desk σ) {path key : String} (step : WriterStep)
    (hkey : key ≠ v.key path) : (v.step desk path step).2.writers key = desk.writers key := by
  cases step with
  | start append =>
    simp only [Volume.step]
    split
    · exact Function.update_of_ne hkey ..
    · rfl
  | call index operation =>
    simp only [Volume.step]
    split
    · rfl
    · exact Function.update_of_ne hkey ..

end

end Volume

/-! ## 2. A key alone -/

/-- The region of one key. -/
def Region.only (key : String) : Region := fun other => other = key

namespace Desk

variable {region other : Region} {desk desk' alone : Desk (Disturbed Store)}

/-- What happens in a region that is apart leaves the twins as they are. -/
theorem Twin.elsewhere (h : desk.Twin region False alone)
    (hconfined : desk.context.store.Confined other desk'.context.store)
    (hregular : desk'.context.store.Regular) (hleads : desk.context.Leads desk'.context)
    (hapart : ∀ key, region key = true → other key = false)
    (hwriters : ∀ key, region key = true → desk'.writers key = desk.writers key) :
    desk'.Twin region False alone := by
  have hcd := h.contexts
  have huploads := hconfined.uploadsIn_eq hapart
  have hpairs : desk'.context.pairs region alone.context =
      desk.context.pairs region alone.context := by
    rw [Context.pairs, Context.pairs, Store.pairing, Store.pairing, huploads]
  refine ⟨⟨⟨hregular, hcd.stores.right, hconfined.clock.trans hcd.stores.clock,
    hconfined.minPartSize.trans hcd.stores.minPartSize, ?_, ?_, False.elim⟩,
    hleads.calm hcd.left, hcd.right, hleads.capacity.trans hcd.capacity⟩, ?_⟩
  · intro key hkey
    rw [hconfined.objects key (hapart key hkey)]
    exact hcd.stores.objects key hkey
  · rw [huploads]
    exact hcd.stores.uploads
  · intro key hkey
    rw [hwriters key hkey, hpairs]
    exact h.writers key hkey

end Desk

theorem Answer.anonymous_of_ends {region : Region} {pairs : List (String × String)}
    {result result' : Except Error Answer} (h : Ends (Answer.Tied region pairs) result result') :
    result.map Answer.anonymous = result'.map Answer.anonymous := by
  cases h with
  | returned hab => exact congrArg Except.ok hab.anonymous_eq
  | failed e => rfl

namespace Volume

variable {v : Volume} {c d : Context (Disturbed Store)} {schedule : Schedule} {key : String}

/-- Each key that the schedule is about has at most one upload in flight, at any time when its
steps are taken alone. -/
def OneInFlight (v : Volume) (c : Context (Disturbed Store)) (schedule : Schedule) : Prop :=
  ∀ x ∈ schedule, ∀ front, front <+: v.stepsAt (v.key x.1) schedule →
    ((v.serve c.desk front).2.context.store.uploads.filter
      (Store.isOpenAt (v.key x.1))).length ≤ 1

instance (v : Volume) (c : Context (Disturbed Store)) (schedule : Schedule) :
    Decidable (OneInFlight v c schedule) :=
  decidable_of_iff (∀ x ∈ schedule, ∀ front ∈ (v.stepsAt (v.key x.1) schedule).inits,
    ((v.serve c.desk front).2.context.store.uploads.filter
      (Store.isOpenAt (v.key x.1))).length ≤ 1) (by simp only [OneInFlight, List.mem_inits])

theorem OneInFlight.of_append {rest : Schedule} (h : OneInFlight v c (schedule ++ rest)) :
    OneInFlight v c schedule := by
  intro x hx front hfront
  apply h x (List.mem_append_left _ hx) front
  rw [stepsAt_append]
  exact hfront.trans (List.prefix_append ..)

/-- At a key the schedule has come to the same as its own steps alone. -/
structure TwinsAt (v : Volume) (c d : Context (Disturbed Store)) (schedule : Schedule)
    (key : String) : Prop where
  replies : (repliesAt key (v.serve c.desk schedule).1).map Reply.anonymous =
    (v.serve d.desk (v.stepsAt key schedule)).1.map Reply.anonymous
  twin : (v.serve c.desk schedule).2.Twin (.only key) False
    (v.serve d.desk (v.stepsAt key schedule)).2

/-- One more step, of this key or of another one. -/
theorem TwinsAt.step (hsame : ∀ key, TwinsAt v c d schedule key) (path : String) (step : WriterStep)
    (hkey : v.key path ≠ "")
    (hone : ((v.serve d.desk (v.stepsAt (v.key path) schedule)).2.context.store.uploads.filter
      (Store.isOpenAt (v.key path))).length ≤ 1) (key : String) : TwinsAt v c d (schedule ++ [(path, step)]) key := by
  have hhere : Region.only (v.key path) (v.key path) = true := decide_eq_true rfl
  have htwin := (hsame (v.key path)).twin
  have hgoes := step_goes htwin hhere step
    (fun _ => .inr (by rwa [htwin.contexts.stores.length_openAt hhere, Store.length_openAt]))
    fun _ => hkey
  by_cases hother : v.key path = key
  · subst hother
    constructor
    · rw [stepsAt_concat_same, serve_concat, serve_concat, repliesAt_concat_same, List.map_append,
        List.map_append, (hsame (v.key path)).replies]
      simp only [List.map_cons, List.map_nil, Reply.anonymous]
      rw [Answer.anonymous_of_ends hgoes.answers]
    · rw [stepsAt_concat_same, serve_concat, serve_concat]
      exact hgoes.twin
  · have hout : ∀ k, Region.only key k = true → k ≠ v.key path := by
      rintro k hk rfl
      exact hother (of_decide_eq_true hk)
    constructor
    · rw [stepsAt_concat_other v schedule step hother, serve_concat,
        repliesAt_concat_other _ _ hother]
      exact (hsame key).replies
    · rw [stepsAt_concat_other v schedule step hother, serve_concat]
      apply (hsame key).twin.elsewhere hgoes.together.stores.left hgoes.twin.contexts.stores.left
        hgoes.together.left
      · intro k hk
        exact decide_eq_false (hout k hk)
      · intro k hk
        exact v.step_writers_of_ne _ step (hout k hk)

theorem serve_twins (hstore : d.store = c.store) (hcapacity : d.pool.capacity = c.pool.capacity)
    (hc : c.service.IsCalm) (hd : d.service.IsCalm) (hregular : c.store.Regular)
    (hkeys : ∀ x ∈ schedule, v.key x.1 ≠ "") (hone : OneInFlight v d schedule) (key : String) :
    TwinsAt v c d schedule key := by
  induction schedule using List.reverseRecOn generalizing key with
  | nil =>
    have hstores := hregular.alike_self (.only key) False
    have hcd : c.Alike (.only key) False d := ⟨by rw [hstore]; exact hstores, hc, hd, hcapacity.symm⟩
    exact ⟨rfl, hcd.desk_twin⟩
  | append_singleton schedule x ih =>
    obtain ⟨path, step⟩ := x
    have hx : (path, step) ∈ schedule ++ [(path, step)] :=
      List.mem_append_right _ (List.mem_singleton_self _)
    have hfront : v.stepsAt (v.key path) schedule <+:
        v.stepsAt (v.key path) (schedule ++ [(path, step)]) := by
      rw [stepsAt_append]
      exact List.prefix_append ..
    have hsame : ∀ key, TwinsAt v c d schedule key := by
      intro key
      apply ih
      · intro x hx
        exact hkeys x (List.mem_append_left _ hx)
      · exact hone.of_append
    exact TwinsAt.step hsame path step (hkeys (path, step) hx) (hone (path, step) hx _ hfront) key

end Volume

/-! ## 3. Buffers -/

namespace Desk

variable {desk : Desk σ} {key : String}

/-- The buffers of each writer, known by its key and its place there. -/
def holdings (desk : Desk σ) (x : String × Nat) : List BufferId :=
  (desk.writers x.1)[x.2]?.elim [] Writer.buffers

theorem holdings_of_writer {i : Nat} {w : Writer} (h : (desk.writers key)[i]? = some w) :
    desk.holdings (key, i) = w.buffers := by
  rw [holdings, h, Option.elim_some]

theorem holdings_opened (desk : Desk σ) (c : Context σ) (key : String) {w : Writer}
    (hw : w.slots = none) : ({ desk with context := c }.withWriters key
      (desk.writers key ++ [w])).holdings = desk.holdings := by
  funext ⟨other, i⟩
  simp only [holdings, withWriters]
  by_cases hkey : other = key
  · subst hkey
    rw [Function.update_self, List.getElem?_append]
    by_cases hlt : i < (desk.writers other).length
    · rw [if_pos hlt]
    · rw [if_neg hlt, List.getElem?_eq_none (Nat.le_of_not_lt hlt)]
      rcases i - (desk.writers other).length with _ | n
      · exact Writer.buffers_of_none hw
      · rfl
  · rw [Function.update_of_ne hkey]

theorem holdings_called (desk : Desk σ) (c : Context σ) {i : Nat} {w : Writer}
    (h : (desk.writers key)[i]? = some w) (w' : Writer) : ({ desk with context := c }.withWriters key
      ((desk.writers key).set i w')).holdings =
        Function.update desk.holdings (key, i) w'.buffers := by
  obtain ⟨hlt, -⟩ := List.getElem?_eq_some_iff.mp h
  funext ⟨other, j⟩
  simp only [holdings, withWriters]
  by_cases hkey : other = key
  · subst hkey
    rw [Function.update_self]
    by_cases hj : j = i
    · subst hj
      rw [Function.update_self, List.getElem?_set_self hlt, Option.elim_some]
    · rw [Function.update_of_ne (by simpa using hj), List.getElem?_set_ne (Ne.symm hj), holdings]
  · rw [Function.update_of_ne hkey, Function.update_of_ne (by simp [hkey]), holdings]

/-- No buffer is held by two writers, or twice by one, or idle while it is held. -/
structure Apart (desk : Desk σ) : Prop where
  own : ∀ {key : String} {i : Nat} {w : Writer}, (desk.writers key)[i]? = some w →
    (w.buffers ++ desk.context.pool.idle).Nodup
  others : ∀ {key key' : String} {i i' : Nat} {w w' : Writer}, (desk.writers key)[i]? = some w →
    (desk.writers key')[i']? = some w' → (key, i) ≠ (key', i') → w.buffers.Disjoint w'.buffers

theorem Apart.of_divided (h : desk.context.pool.Divided desk.holdings) : desk.Apart := by
  constructor
  · intro key i w hw
    have hlent := h (key, i)
    rw [holdings_of_writer hw] at hlent
    exact hlent.distinct
  · intro key key' i i' w w' hw hw' hne b hb hb'
    have hlent := h (key, i)
    rw [holdings_of_writer hw] at hlent
    apply hlent.apart b ⟨(key', i'), hne.symm, ?_⟩ (List.mem_append_left _ hb)
    rw [holdings_of_writer hw']
    exact hb'

/-- What each writer has staged is what its buffers begin with. -/
def Staged (desk : Desk σ) : Prop :=
  ∀ {key : String} {i : Nat} {w : Writer} {slots : Slots}, (desk.writers key)[i]? = some w →
    w.slots = some slots → desk.context.pool.KeepsBoth slots

/-- The buffers are divided among the writers and the pool, and each writer's hold what it has
staged. -/
structure Settled (desk : Desk σ) : Prop where
  divided : desk.context.pool.Divided desk.holdings
  staged : desk.Staged

theorem Settled.owns (h : desk.Settled) {i : Nat} {w : Writer} (hw : (desk.writers key)[i]? = some w) :
    w.Owns desk.context.pool {b | ∃ x, x ≠ (key, i) ∧ b ∈ desk.holdings x} := by
  have hlent := h.divided (key, i)
  rw [holdings_of_writer hw] at hlent
  exact ⟨hlent, fun slots hslots => h.staged hw hslots⟩

/-- A writer that was opened has staged nothing. -/
theorem Settled.opened (h : desk.Settled) {c : Context σ} (hpool : c.pool = desk.context.pool)
    (key : String) {w : Writer} (hw : w.slots = none) :
    ({ desk with context := c }.withWriters key (desk.writers key ++ [w])).Settled := by
  constructor
  · rw [desk.holdings_opened _ _ hw]
    change Pool.Divided c.pool desk.holdings
    rw [hpool]
    exact h.divided
  · intro other i v slots hv hslots
    change c.pool.KeepsBoth slots
    rw [hpool]
    by_cases hkey : other = key
    · subst hkey
      simp only [withWriters, Function.update_self] at hv
      rcases List.mem_append.mp (List.mem_of_getElem? hv) with hmem | hmem
      · obtain ⟨j, hj⟩ := List.mem_iff_getElem?.mp hmem
        exact h.staged hj hslots
      · rw [List.mem_singleton.mp hmem, hw] at hslots
        cases hslots
    · simp only [withWriters, Function.update_of_ne hkey] at hv
      exact h.staged hv hslots

/-- A writer has stayed apart from the others in a call. -/
theorem Settled.called (h : desk.Settled) {c : Context σ} {i : Nat} {w w' : Writer}
    (hw : (desk.writers key)[i]? = some w)
    (hstays : w.StaysApart desk.context.pool w' c.pool) :
    ({ desk with context := c }.withWriters key ((desk.writers key).set i w')).Settled := by
  obtain ⟨howns, hsame⟩ := hstays _ (h.owns hw)
  obtain ⟨hlt, -⟩ := List.getElem?_eq_some_iff.mp hw
  constructor
  · rw [desk.holdings_called _ hw]
    exact h.divided.update _ howns.lent
  · intro other j v slots hv hslots
    by_cases hplace : (other, j) = (key, i)
    · cases hplace
      simp only [withWriters, Function.update_self, List.getElem?_set_self hlt] at hv
      cases hv
      exact howns.keeps slots hslots
    · -- whoever else has slots has them as before, and their buffers were left alone
      have hv' : (desk.writers other)[j]? = some v := by
        by_cases hkey : other = key
        · subst hkey
          have hj : i ≠ j := fun hij => hplace (by rw [hij])
          simpa only [withWriters, Function.update_self, List.getElem?_set_ne hj] using hv
        · simpa only [withWriters, Function.update_of_ne hkey] using hv
      have hother : ∀ b ∈ slots.buffers, ∃ x, x ≠ (key, i) ∧ b ∈ desk.holdings x := by
        intro b hb
        refine ⟨(other, j), hplace, ?_⟩
        rwa [holdings_of_writer hv', Writer.buffers_of_slots hslots]
      exact (h.staged hv' hslots).of_content_eq (fun b hb => howns.lent.othersMet b (hother b hb))
        fun b hb => hsame b (hother b hb)

end Desk

theorem Context.desk_settled {c : Context σ} (hidle : c.pool.idle.Nodup)
    (hmet : ∀ b ∈ c.pool.idle, b < c.pool.contents.size) : c.desk.Settled := by
  have hnothing : ∀ x, c.desk.holdings x = [] := fun _ => rfl
  constructor
  · intro x
    rw [hnothing]
    refine ⟨hidle, ?_, hmet, ?_⟩
    · rintro b ⟨y, -, hb⟩
      cases hb
    · rintro b ⟨y, -, hb⟩
      cases hb
  · intro key i w slots hw
    cases hw

section

variable [Service σ]

theorem Operation.answer_keepsApart (operation : Operation) :
    (operation.answer : Writing σ Answer).KeepsApart := by
  cases operation with
  | write data => exact (Writer.write_keepsApart data).bind fun _ => Writing.keepsApart_pure _
  | close => exact Writer.close_keepsApart.bind fun _ => Writing.keepsApart_pure _
  | commit => exact Writer.commit_keepsApart.bind fun _ => Writing.keepsApart_pure _
  | cancel => exact Writer.cancel_keepsApart.bind fun _ => Writing.keepsApart_pure _

namespace Volume

theorem step_settled (v : Volume) {desk : Desk σ} (h : desk.Settled) (path : String)
    (step : WriterStep) : (v.step desk path step).2.Settled := by
  cases step with
  | start append =>
    obtain ⟨hpool, hnone⟩ := v.writer_lends path append desk.context
    simp only [Volume.step]
    rcases hresult : ((v.writer path append).execute desk.context).1 with e | w
    · constructor
      · change Pool.Divided ((v.writer path append).execute desk.context).2.pool desk.holdings
        rw [hpool]
        exact h.divided
      · intro key i w slots hw hslots
        change ((v.writer path append).execute desk.context).2.pool.KeepsBoth slots
        rw [hpool]
        exact h.staged hw hslots
    · exact h.opened hpool _ (hnone w hresult)
  | call index operation =>
    simp only [Volume.step]
    rcases hw : (desk.writers (v.key path))[index]? with _ | w
    · exact h
    · exact h.called hw (operation.answer_keepsApart w desk.context)

theorem serve_settled (v : Volume) {desk : Desk σ} (h : desk.Settled) (schedule : Schedule) :
    (v.serve desk schedule).2.Settled := by
  induction schedule generalizing desk with
  | nil => exact h
  | cons x schedule ih =>
    obtain ⟨path, step⟩ := x
    exact ih (v.step_settled h path step)

end Volume

end

/-! ## 4. Interleaving -/

namespace Volume

variable {v : Volume} {c d : Context (Disturbed Store)} {schedule : Schedule} {key : String}

/-- A key fares in the schedule, from the one context, as its own steps do alone, from the other:
the replies, what the writers have counted, and the object are the same. -/
structure SameAt (v : Volume) (c d : Context (Disturbed Store)) (schedule : Schedule)
    (key : String) : Prop where
  replies : (repliesAt key (v.serve c.desk schedule).1).map Reply.anonymous =
    (v.serve d.desk (v.stepsAt key schedule)).1.map Reply.anonymous
  accounts : ((v.serve c.desk schedule).2.writers key).map Writer.account =
    ((v.serve d.desk (v.stepsAt key schedule)).2.writers key).map Writer.account
  object : (v.serve c.desk schedule).2.context.store.objects.find? key =
    (v.serve d.desk (v.stepsAt key schedule)).2.context.store.objects.find? key

theorem TwinsAt.same (h : TwinsAt v c d schedule key) : SameAt v c d schedule key := by
  have hhere : Region.only key key = true := decide_eq_true rfl
  refine ⟨h.replies, ?_, h.twin.contexts.stores.objects key hhere⟩
  have hwriters := h.twin.writers key hhere
  generalize (v.serve c.desk schedule).2.writers key = ws at hwriters ⊢
  generalize (v.serve d.desk (v.stepsAt key schedule)).2.writers key = vs at hwriters ⊢
  induction hwriters with
  | nil => rfl
  | cons hwv _ ih =>
    rw [List.map_cons, List.map_cons, ih]
    simp only [Writer.account, hwv.size, hwv.parts, hwv.phase, hwv.slots]

/-- **Writers do not influence each other.**  However the steps of several keys are interleaved, over
one store and one pool, each key fares as if its steps were taken alone from the same store; no buffer is
ever held by two writers, and what a writer has staged is what its buffers begin with.  There is to be
no more than one upload in flight at a key; the two pools may differ in everything but the size of
their buffers. -/
theorem writers_do_not_interfere (v : Volume) (hstore : d.store = c.store)
    (hcapacity : d.pool.capacity = c.pool.capacity) (hc : c.service.IsCalm) (hd : d.service.IsCalm)
    (hregular : c.store.Regular) (hidle : c.pool.idle.Nodup)
    (hmet : ∀ b ∈ c.pool.idle, b < c.pool.contents.size) (schedule : Schedule)
    (hkeys : ∀ x ∈ schedule, v.key x.1 ≠ "") (hone : OneInFlight v d schedule) :
    (∀ key, SameAt v c d schedule key) ∧ (v.serve c.desk schedule).2.Apart ∧
      (v.serve c.desk schedule).2.Staged := by
  have hsettled := v.serve_settled (Context.desk_settled hidle hmet) schedule
  refine ⟨?_, .of_divided hsettled.divided, hsettled.staged⟩
  intro key
  exact (serve_twins hstore hcapacity hc hd hregular hkeys hone key).same

end Volume

namespace Neighbours

def volume : Volume where
  bucket := ⟨"bucket", 1000⟩
  policy := Writer.Sample.policy
  root := Volume.normalizeRoot ""

def context (s : Store) : Context (Disturbed Store) where
  service := ⟨s, []⟩
  pool := ⟨Writer.Sample.policy.chunk, Writer.Sample.policy.chunk_pos, none, [], #[]⟩

/-- No more than one buffer may be idle, and one is, with bytes of an earlier writer in it. -/
def used : Context (Disturbed Store) :=
  let c := context (Store.empty 0)
  { c with pool := { c.pool with maxIdle := some 1, idle := [0], contents := #[⟨#[1, 2, 3, 4]⟩] } }

/-- The upload of one key is closed, resumed and replaced while a buffer of the other is filled. -/
def schedule : Schedule :=
  [("/a", .start false), ("/b", .start false), ("/a", .call 0 (.write ⟨#[97]⟩)),
    ("/b", .call 0 (.write ⟨#[120, 121, 122]⟩)), ("/a", .call 0 .close), ("/a", .start true),
    ("/b", .call 0 (.write ⟨#[120, 121]⟩)), ("/a", .call 1 (.write ⟨#[98, 99, 100]⟩)),
    ("/b", .call 0 .commit), ("/a", .call 1 .commit)]

theorem context_isCalm (s : Store) : (context s).service.IsCalm := by
  intro q hq
  cases hq

end Neighbours

theorem Volume.neighbours_do_not_interfere :
    Neighbours.used.service.IsCalm ∧ Neighbours.used.store.Regular ∧
      (∀ x ∈ Neighbours.schedule, Neighbours.volume.key x.1 ≠ "") ∧
      OneInFlight Neighbours.volume (Neighbours.context (Store.empty 0)) Neighbours.schedule ∧
      (∀ key, SameAt Neighbours.volume Neighbours.used (Neighbours.context (Store.empty 0))
        Neighbours.schedule key) ∧
      (Neighbours.volume.serve Neighbours.used.desk Neighbours.schedule).2.Apart ∧
      (Neighbours.volume.serve Neighbours.used.desk Neighbours.schedule).2.Staged ∧
      ((Neighbours.volume.serve Neighbours.used.desk Neighbours.schedule).2.context.store.objects.find?
        "a").map (·.content.data.toList) = some [97, 98, 99, 100] := by
  have hcalm := Neighbours.context_isCalm (Store.empty 0)
  have hregular : (Store.empty 0).Regular :=
    ⟨Store.empty_idsInOrder 0, by simp [Store.empty], by decide⟩
  have hkeys : ∀ x ∈ Neighbours.schedule, Neighbours.volume.key x.1 ≠ "" := by decide +kernel
  have hone : OneInFlight Neighbours.volume (Neighbours.context (Store.empty 0))
      Neighbours.schedule := by decide +kernel
  have halone : ((Neighbours.volume.serve (Neighbours.context (Store.empty 0)).desk
      (Neighbours.volume.stepsAt "a" Neighbours.schedule)).2.context.store.objects.find? "a").map
        (·.content.data.toList) = some [97, 98, 99, 100] := by decide +kernel
  obtain ⟨hsame, hapart, hstaged⟩ := writers_do_not_interfere Neighbours.volume (c := Neighbours.used)
    (d := Neighbours.context (Store.empty 0)) rfl rfl hcalm hcalm hregular (by decide) (by decide)
    Neighbours.schedule hkeys hone
  refine ⟨hcalm, hregular, hkeys, hone, hsame, hapart, hstaged, ?_⟩
  rw [(hsame "a").object]
  exact halone

/-! ## 5. Uploads without a key -/

section

variable {c : Context (Disturbed Store)}

/-- A page that ends with an upload without a key cannot be followed by another one. -/
theorem Bucket.findUpload_noKeyMarker (b : Bucket) (hcalm : c.service.IsCalm)
    (hids : c.store.IdsInOrder) (hpages : c.store.uploadPageSize = 1) {key : String}
    (hkey : key ≠ "") {first : StoredUpload} {rest : List StoredUpload} (hfirst : first.key = "")
    (hlisted : c.store.listed (Client.nonEmpty key) = first :: rest) (hrest : rest ≠ []) :
    ((b.findUpload key).execute c).1 = .error (.storage .noKeyMarker) := by
  have hmarks : Store.Marks [] none none := rfl
  have hmore : c.store.uploadPageSize < (first :: rest).length := by
    have hpos := List.length_pos_of_ne_nil hrest
    rw [hpages, List.length_cons]
    omega
  obtain ⟨page, c', hlist, -, -, huploads, htruncated, hnext⟩ :=
    Client.listUploads_page (hcalm.calmFor _) hids b.name key (hlisted.trans (List.nil_append _).symm) hmarks
      (by simp)
  obtain ⟨hmarker, -⟩ := hnext hmore first (by rw [hpages]; rfl)
  rw [hfirst] at hmarker
  have hpage : walkPage (stopAt key) none page.uploads = .ok (.yield none) := by
    have hne : ¬ first.entry.key = key := fun h => hkey (h.symm.trans hfirst)
    rw [huploads, hpages]
    simp [walkPage, stopAt, hne, bind, Except.bind]
  obtain ⟨n, hn⟩ : ∃ n, Service.horizon c.service = n + 1 :=
    Nat.exists_eq_add_one.mpr (Nat.zero_lt_of_lt (horizon_gt c))
  have hwalk : (b.findUpload key).execute c =
      (b.walkUploadsFrom key (stopAt key) (n + 1) none none none).execute c := by
    rw [← hn]
    rfl
  rw [hwalk]
  simp only [walkUploadsFrom, Run.execute_bind, hlist, hpage, htruncated, decide_eq_true hmore,
    Bool.not_true, Bool.false_eq_true, if_false]
  rw [hmarker]
  rfl

theorem Volume.writer_noKeyMarker (v : Volume) {path : String}
    (h : ((v.bucket.findUpload (v.key path)).execute c).1 = .error (.storage .noKeyMarker)) :
    ((v.writer path true).execute c).1 = .error (.storage .noKeyMarker) := by
  rcases hrun : (v.bucket.findUpload (v.key path)).execute c with ⟨result, c'⟩
  rw [hrun] at h
  dsimp only at h
  subst h
  have hsession : (v.bucket.session (v.key path) true).execute c =
      (.error (.storage .noKeyMarker), c') := by
    simp only [Bucket.session, if_true, Bucket.resume, Run.execute_bind, Run.notFoundAs,
      Run.execute_tryCatch, hrun]
    rfl
  simp only [writer, Run.execute_bind, Run.execute_attempt, hsession]
  rfl

end

namespace Keyless

open Neighbours

def store (pages : Nat) : Store := { Store.empty 0 with uploadPageSize := pages }

/-- A writer at the empty key, one at another key, and one that has nothing to resume. -/
def schedule : Schedule := [("/", .start false), ("/a", .start false), ("/b", .start true)]

/-- Two uploads in flight, the first of which has no key. -/
def crowded : Store := ((store 1).startUpload "").startUpload "a"

theorem crowded_listed : ∃ first rest, crowded.listed (Client.nonEmpty "b") = first :: rest ∧
    first.key = "" ∧ rest ≠ [] := by
  have hsorted : crowded.inFlight = crowded.uploads := by
    have hall : crowded.uploads.filter (·.status = .inFlight) = crowded.uploads := by
      with_unfolding_all rfl
    rw [Store.inFlight, hall]
    apply List.mergeSort_of_pairwise
    decide +kernel
  have hlisted : crowded.listed (Client.nonEmpty "b") = crowded.uploads := by
    rw [Store.listed, hsorted]
    with_unfolding_all rfl
  exact ⟨_, _, hlisted, rfl, by simp⟩

/-- With one upload to a page the walk for another key gets no further than the first. -/
theorem crowded_refuses {desk : Desk (Disturbed Store)} (h : desk.context.service = ⟨crowded, []⟩) :
    (volume.step desk "/b" (.start true)).1 = .error (.storage .noKeyMarker) := by
  have hstore : desk.context.store = crowded := congrArg Disturbed.service h
  have hcalm : desk.context.service.IsCalm := by
    rw [h]
    exact context_isCalm crowded
  have hids : crowded.IdsInOrder :=
    ((Store.empty_idsInOrder 0).addUpload "" (some 0) Keyed.empty).addUpload "a" (some 0) Keyed.empty
  obtain ⟨first, rest, hlisted, hfirst, hrest⟩ := crowded_listed
  have hkey : volume.key "/b" = "b" := by decide +kernel
  have hne : volume.key "/b" ≠ "" := by decide +kernel
  rw [← hkey, ← hstore] at hlisted
  have hfind := volume.bucket.findUpload_noKeyMarker hcalm (hstore ▸ hids) (hstore ▸ rfl) hne hfirst
    hlisted hrest
  have hwriter := volume.writer_noKeyMarker hfind
  simp only [Volume.step, hwriter]

end Keyless

namespace Volume

/-- What comes of some key depends on steps about others, though no key ever has more than one upload
in flight. -/
def Interferes (v : Volume) (c : Context (Disturbed Store)) (schedule : Schedule) : Prop :=
  c.service.IsCalm ∧ OneInFlight v c schedule ∧ ∃ key, ¬ SameAt v c c schedule key

theorem interferes_of_errors {v : Volume} {c : Context (Disturbed Store)} (front : Schedule)
    {path : String} {step : WriterStep} (e e' : Error) (hcalm : c.service.IsCalm)
    (hone : OneInFlight v c (front ++ [(path, step)]))
    (hfront : v.stepsAt (v.key path) front = [])
    (hreplies : repliesAt (v.key path) (v.serve c.desk front).1 = [])
    (hanswer : (v.step (v.serve c.desk front).2 path step).1 = .error e)
    (halone : (v.step c.desk path step).1 = .error e') (hne : e ≠ e') :
    v.Interferes c (front ++ [(path, step)]) := by
  refine ⟨hcalm, hone, v.key path, ?_⟩
  intro hsame
  have halone' : (v.serve c.desk [(path, step)]).1 = [(v.key path, .error e')] := by
    rw [← halone]
    rfl
  have hreplies' := hsame.replies
  rw [stepsAt_concat_same, hfront, List.nil_append, halone', serve_concat, hanswer,
    repliesAt_concat_same, hreplies] at hreplies'
  apply hne
  simpa [Reply.anonymous, Except.map] using hreplies'

/-- Where a key may be empty, or a page of a listing may be, writers do influence each other: that
there is nothing to resume at the last key is found out only when its step is taken alone. -/
theorem keyless_uploads_interfere :
    Neighbours.volume.Interferes (Neighbours.context (Keyless.store 1)) Keyless.schedule ∧
      Neighbours.volume.Interferes (Neighbours.context ((Keyless.store 1).startUpload ""))
        Keyless.schedule.tail ∧
      Neighbours.volume.Interferes (Neighbours.context (Keyless.store 0)) Keyless.schedule.tail := by
  refine ⟨?_, ?_, ?_⟩
  · apply interferes_of_errors [("/", .start false), ("/a", .start false)] (.storage .noKeyMarker)
      (.pathNotFound "/b") (Neighbours.context_isCalm _)
    · decide +kernel
    · decide +kernel
    · with_unfolding_all rfl
    · apply Keyless.crowded_refuses
      with_unfolding_all rfl
    · with_unfolding_all rfl
    · simp
  · apply interferes_of_errors [("/a", .start false)] (.storage .noKeyMarker) (.pathNotFound "/b")
      (Neighbours.context_isCalm _)
    · decide +kernel
    · decide +kernel
    · with_unfolding_all rfl
    · apply Keyless.crowded_refuses
      with_unfolding_all rfl
    · with_unfolding_all rfl
    · simp
  · apply interferes_of_errors [("/a", .start false)] (.storage .noKeyMarker) (.pathNotFound "/b")
      (Neighbours.context_isCalm _)
    · decide +kernel
    · decide +kernel
    · with_unfolding_all rfl
    · with_unfolding_all rfl
    · with_unfolding_all rfl
    · simp

end Volume

end ResumableStorage
