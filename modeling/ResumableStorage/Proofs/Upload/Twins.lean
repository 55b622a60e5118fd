/-
  ResumableStorage/Proofs/Upload/Twins.lean
  =========================================
  **Writers that agree** — two writers at one key, each with a store of its own, where the
  stores are alike in a region with that key.  They are twins when they differ in nothing
  but the identifier of their upload and the buffers that were lent to them.

  Whatever is called on both, they end in the same way and are twins afterwards; what is
  in the buffers of the pools does not matter.
-/
import ResumableStorage.Proofs.Client.Listings
import ResumableStorage.Proofs.Upload.Steps

namespace ResumableStorage

/-! ## 1. Twins -/

/-- The bytes that two slots hold, wherever they are kept. -/
def Slots.held (s : Slots) : Bytes × Bytes := (s.ready.held, s.pending.held)

namespace Writer

variable {region : Region} {sharp : Prop} {pairs pairs' : List (String × String)}

/-- Writers that differ in nothing but the identifier of their upload and their buffers. -/
structure Twin (region : Region) (pairs : List (String × String)) (w v : Writer) : Prop where
  policy : w.policy = v.policy
  session : w.session.Tied region pairs v.session
  parts : w.parts = v.parts
  size : w.size = v.size
  phase : w.phase = v.phase
  repair : w.repair = v.repair
  slots : w.slots.map Slots.held = v.slots.map Slots.held

theorem Twin.of_subset {w v : Writer} (h : w.Twin region pairs v) (hsub : pairs ⊆ pairs') :
    w.Twin region pairs' v :=
  ⟨h.policy, h.session.of_subset hsub, h.parts, h.size, h.phase, h.repair, h.slots⟩

theorem Twin.withSlots {w v : Writer} (h : w.Twin region pairs v) {slots slots' : Option Slots}
    (hslots : slots.map Slots.held = slots'.map Slots.held) :
    ({ w with slots := slots } : Writer).Twin region pairs { v with slots := slots' } :=
  ⟨h.policy, h.session, h.parts, h.size, h.phase, h.repair, hslots⟩

theorem Twin.sourceCompleted {w v : Writer} (h : w.Twin region pairs v) :
    w.sourceCompleted = v.sourceCompleted := by
  rw [Writer.sourceCompleted, Writer.sourceCompleted, h.repair]

/-- What a writer makes of its slots is a matter of the bytes that they hold. -/
theorem held_fill {s t : Slots} (h : s.held = t.held) (capacity : Nat) (data : Bytes)
    (offset : Nat) :
    (s.fill capacity data offset).1.held = (t.fill capacity data offset).1.held ∧
      (s.fill capacity data offset).2 = (t.fill capacity data offset).2 := by
  obtain ⟨hready, hpending⟩ := Prod.ext_iff.mp h
  simp only [Slots.held] at hready hpending
  simp only [Slots.held, Slots.fill, Slot.fill, hready, hpending, and_self]

theorem held_isFull {s t : Slots} (h : s.held = t.held) (capacity : Nat) :
    s.pending.isFull capacity = t.pending.isFull capacity := by
  have hpending : s.pending.held = t.pending.held := congrArg Prod.snd h
  rw [Slot.isFull, Slot.isFull, hpending]

theorem held_isEmpty {s t : Slots} (h : s.held = t.held) : s.isEmpty = t.isEmpty := by
  have hready : s.ready.held = t.ready.held := congrArg Prod.fst h
  have hpending : s.pending.held = t.pending.held := congrArg Prod.snd h
  rw [Slots.isEmpty, Slots.isEmpty, hready, hpending]

theorem held_nextPart {s t : Slots} (h : s.held = t.held) (capacity : Nat) :
    s.nextPart capacity = t.nextPart capacity := by
  have hready : s.ready.held = t.ready.held := congrArg Prod.fst h
  have hpending : s.pending.held = t.pending.held := congrArg Prod.snd h
  rw [Slots.nextPart, Slots.nextPart, held_isFull h, hready, hpending]

theorem held_shift {s t : Slots} (h : s.held = t.held) : s.shift.held = t.shift.held := by
  obtain ⟨hready, hpending⟩ := Prod.ext_iff.mp h
  simp only [Slots.held] at hready hpending
  simp only [Slots.held, Slots.shift, Slot.cleared, hpending]

theorem held_afterPart {s t : Slots} (h : s.held = t.held) (merged : Bool) :
    (s.afterPart merged).held = (t.afterPart merged).held := by
  cases merged with
  | false => exact held_shift h
  | true => rfl

end Writer

/-! ## 2. Agreement -/

namespace Writing

variable {α β γ δ : Type} {region : Region} {sharp : Prop} {pairs pairs' : List (String × String)}

/-- The runs agree from all twins, in contexts that are alike and in which these identifiers are
paired: the writers are twins afterwards, and the values are related by `Q`. -/
def Agree (region : Region) (sharp : Prop) (pairs : List (String × String)) (Q : Related α β)
    (x : Writing (Disturbed Store) α) (y : Writing (Disturbed Store) β) : Prop :=
  ∀ (w v : Writer) (c d : Context (Disturbed Store)), c.Alike region sharp d →
    pairs ⊆ c.pairs region d → w.Twin region (c.pairs region d) v →
    Context.Together region sharp c d (x.execute w c).2.2 (y.execute v d).2.2 ∧
      (x.execute w c).2.1.Twin region ((x.execute w c).2.2.pairs region (y.execute v d).2.2)
        (y.execute v d).2.1 ∧
      Ends (Q ((x.execute w c).2.2.pairs region (y.execute v d).2.2)) (x.execute w c).1
        (y.execute v d).1

variable {Q : Related α β} {Q' : Related γ δ} {x : Writing (Disturbed Store) α}
  {y : Writing (Disturbed Store) β}

theorem Agree.of_subset (h : Agree region sharp pairs Q x y) (hsub : pairs ⊆ pairs') :
    Agree region sharp pairs' Q x y :=
  fun w v c d hcd hpairs => h w v c d hcd fun _ hpair => hpairs (hsub hpair)

theorem agree_pure {a : α} {b : β} (h : ∀ pairs', pairs ⊆ pairs' → Q pairs' a b) :
    Agree region sharp pairs Q (pure a) (pure b) :=
  fun _ _ _ _ hcd hpairs hwv => ⟨hcd.together, hwv, .returned (h _ hpairs)⟩

theorem agree_throw (e : Error) : Agree region sharp pairs Q (throw e) (throw e) :=
  fun _ _ _ _ hcd _ hwv => ⟨hcd.together, hwv, .failed e⟩

theorem agree_writer :
    Agree region sharp pairs (fun pairs' w v => w.Twin region pairs' v) writer writer :=
  fun _ _ _ _ hcd _ hwv => ⟨hcd.together, hwv, .returned hwv⟩

theorem agree_ofRun {x : Run (Disturbed Store) α} {y : Run (Disturbed Store) β}
    (h : Run.Agree region sharp pairs Q x y) :
    Agree region sharp pairs Q (ofRun x) (ofRun y) := by
  intro w v c d hcd hpairs hwv
  obtain ⟨htogether, hends⟩ := h c d hcd hpairs
  exact ⟨htogether, hwv.of_subset htogether.pairs_subset, hends⟩

theorem agree_change {f g : Writer → Writer}
    (h : ∀ pairs' w v, pairs ⊆ pairs' → Writer.Twin region pairs' w v →
      Writer.Twin region pairs' (f w) (g v)) :
    Agree region sharp pairs .equal (change f) (change g) :=
  fun w v _ _ hcd hpairs hwv => ⟨hcd.together, h _ w v hpairs hwv, .returned rfl⟩

theorem Agree.bind {f : α → Writing (Disturbed Store) γ} {g : β → Writing (Disturbed Store) δ}
    (hx : Agree region sharp pairs Q x y)
    (hf : ∀ pairs' a b, pairs ⊆ pairs' → Q pairs' a b → Agree region sharp pairs' Q' (f a) (g b)) :
    Agree region sharp pairs Q' (x >>= f) (y >>= g) := by
  intro w v c d hcd hpairs hwv
  obtain ⟨htogether, htwin, hends⟩ := hx w v c d hcd hpairs hwv
  rw [execute_bind, execute_bind]
  rcases hrun : x.execute w c with ⟨result, w₁, c₁⟩
  rcases hrun' : y.execute v d with ⟨result', v₁, d₁⟩
  rw [hrun, hrun'] at htogether htwin hends
  cases hends with
  | @returned a b hab =>
    have hsub : pairs ⊆ c₁.pairs region d₁ := fun _ hpair => htogether.pairs_subset (hpairs hpair)
    obtain ⟨htogether', htwin', hends'⟩ :=
      hf _ a b hsub hab w₁ v₁ c₁ d₁ (htogether.alike hcd) (fun _ h => h) htwin
    exact ⟨htogether.trans htogether', htwin', hends'⟩
  | failed e => exact ⟨htogether, htwin, .failed e⟩

/-- Values that are equal are passed on as one. -/
theorem Agree.bind_equal {y : Writing (Disturbed Store) α} {f : α → Writing (Disturbed Store) γ}
    {g : α → Writing (Disturbed Store) δ} (hx : Agree region sharp pairs .equal x y)
    (hf : ∀ a, Agree region sharp pairs Q' (f a) (g a)) :
    Agree region sharp pairs Q' (x >>= f) (y >>= g) := by
  apply hx.bind
  intro pairs' a b hsub hab
  rw [show a = b from hab]
  exact (hf b).of_subset hsub

/-- The writers are read. -/
theorem agree_reading {f : Writer → Writing (Disturbed Store) γ}
    {g : Writer → Writing (Disturbed Store) δ}
    (hf : ∀ pairs' w v, pairs ⊆ pairs' → Writer.Twin region pairs' w v →
      Agree region sharp pairs' Q' (f w) (g v)) :
    Agree region sharp pairs Q' (writer >>= f) (writer >>= g) :=
  agree_writer.bind hf

theorem Agree.discard (hx : Agree region sharp pairs Q x y) :
    Agree region sharp pairs .equal (discard x) (discard y) :=
  hx.bind fun _ _ _ _ _ => agree_pure fun _ _ => rfl

theorem Agree.attempt (hx : Agree region sharp pairs Q x y) :
    Agree region sharp pairs (fun pairs' => Ends (Q pairs')) (attempt x) (attempt y) := by
  intro w v c d hcd hpairs hwv
  obtain ⟨htogether, htwin, hends⟩ := hx w v c d hcd hpairs hwv
  rw [execute_attempt, execute_attempt]
  exact ⟨htogether, htwin, .returned hends⟩

end Writing

/-! ## 3. Buffers and parts -/

namespace Writer

open Writing

variable {region : Region} {sharp : Prop} {pairs : List (String × String)}

theorem ensureActive_agree :
    Agree region sharp pairs .equal (ensureActive : Writing (Disturbed Store) Unit) ensureActive := by
  apply agree_reading
  intro pairs' w v hsub hwv
  rw [hwv.phase]
  split
  · exact agree_pure fun _ _ => rfl
  · exact agree_throw _

/-- What becomes of the pools does not matter, as long as they lend buffers of the same size. -/
theorem together_withPools {c d : Context (Disturbed Store)} (h : c.Alike region sharp d)
    {p q : Pool} (hp : p.capacity = c.pool.capacity) (hq : q.capacity = d.pool.capacity) :
    Context.Together region sharp c d { c with pool := p } { d with pool := q } :=
  ⟨h.stores.together, ⟨h.left.failsOnly, id, hp⟩, ⟨h.right.failsOnly, id, hq⟩⟩

theorem agree_onPool {f g : Pool → Pool} (hf : ∀ p, (f p).capacity = p.capacity)
    (hg : ∀ p, (g p).capacity = p.capacity) : Agree region sharp pairs .equal
      (onPool f : Writing (Disturbed Store) Unit) (onPool g) :=
  fun _ _ _ _ hcd _ hwv => ⟨together_withPools hcd (hf _) (hg _), hwv, .returned rfl⟩

/-- The slots hold the same bytes. -/
def SameHeld : Related Slots Slots := fun _ s t => s.held = t.held

theorem borrow_agree :
    Agree region sharp pairs SameHeld (borrow : Writing (Disturbed Store) Slots) borrow := by
  intro w v c d hcd hpairs hwv
  have hslots := hwv.slots
  simp only [borrow, Writing.execute_bind, Writing.execute_writer]
  rcases hw : w.slots with _ | slots <;> rcases hv : v.slots with _ | slots' <;>
    rw [hw, hv] at hslots
  · simp only [Writing.execute_bind, Writing.execute_get, Writing.execute_modify,
      Writing.execute_pure]
    refine ⟨together_withPools hcd ?_ ?_, hwv.withSlots rfl, .returned rfl⟩
    · rw [Pool.capacity_acquire, Pool.capacity_acquire]
    · rw [Pool.capacity_acquire, Pool.capacity_acquire]
  · cases hslots
  · cases hslots
  · exact ⟨hcd.together, hwv, .returned (Option.some.inj hslots)⟩

theorem release_agree :
    Agree region sharp pairs .equal (release : Writing (Disturbed Store) Unit) release := by
  intro w v c d hcd hpairs hwv
  have hslots := hwv.slots
  simp only [release, Writing.execute_modify]
  rcases hw : w.slots with _ | slots <;> rcases hv : v.slots with _ | slots' <;>
    rw [hw, hv] at hslots
  · exact ⟨hcd.together, hwv, .returned rfl⟩
  · cases hslots
  · cases hslots
  · refine ⟨together_withPools hcd ?_ ?_, hwv.withSlots rfl, .returned rfl⟩
    · rw [Pool.capacity_release, Pool.capacity_release]
    · rw [Pool.capacity_release, Pool.capacity_release]

theorem sendPart_agree (body : Bytes) : Agree region sharp pairs .equal
    (sendPart body : Writing (Disturbed Store) Unit) (sendPart body) := by
  apply agree_reading
  intro pairs' w v hsub hwv
  rw [hwv.parts]
  apply (agree_ofRun (Client.uploadPart_agree hwv.session _ body)).bind_equal
  intro part
  apply Agree.bind_equal (agree_change ?_)
  · intro _
    exact agree_ofRun (Run.agree_count _ _)
  · intro pairs'' w v hsub' hwv
    exact ⟨hwv.policy, hwv.session, by rw [hwv.parts], hwv.size, hwv.phase, hwv.repair, hwv.slots⟩

theorem flush_agree : Agree region sharp pairs .equal
    (flush : Writing (Disturbed Store) Unit) flush := by
  apply agree_reading
  intro pairs' w v hsub hwv
  have hslots := hwv.slots
  rcases hw : w.slots with _ | slots <;> rcases hv : v.slots with _ | slots' <;>
    rw [hw, hv] at hslots
  · exact agree_pure fun _ _ => rfl
  · cases hslots
  · cases hslots
  · have hheld : slots.held = slots'.held := Option.some.inj hslots
    rw [hwv.policy]
    simp only [held_isEmpty hheld, held_nextPart hheld]
    split
    · exact agree_pure fun _ _ => rfl
    · apply (sendPart_agree _).bind_equal
      intro _
      apply agree_change
      intro pairs'' w v hsub' hwv
      exact hwv.withSlots (congrArg some (held_afterPart hheld _))

theorem stage_agree (policy : Policy) (data : Bytes) {slots slots' : Slots}
    (hheld : slots.held = slots'.held) (offset : Nat) : Agree region sharp pairs .equal
      (stage policy data slots offset : Writing (Disturbed Store) Unit)
      (stage policy data slots' offset) := by
  obtain ⟨hfilled, hcount⟩ := held_fill hheld policy.chunk data offset
  apply Agree.bind_equal (agree_onPool ?_ ?_)
  · intro _
    apply agree_change
    intro pairs' w v hsub hwv
    exact ⟨hwv.policy, hwv.session, hwv.parts, by rw [hwv.size, hcount], hwv.phase, hwv.repair,
      congrArg some hfilled⟩
  · intro p
    rfl
  · intro p
    rfl

theorem feed_agree (policy : Policy) (data : Bytes) (slots slots' : Slots) (offset : Nat)
    (hheld : slots.held = slots'.held) : Agree region sharp pairs .equal
      (feed policy data slots offset : Writing (Disturbed Store) Nat)
      (feed policy data slots' offset) := by
  induction slots, offset using feed.induct policy data generalizing slots' with
  | case1 slots offset hlt filled hfull =>
    rename_i ih
    obtain ⟨hfilled, hcount⟩ := held_fill hheld policy.chunk data offset
    have hfull' : (slots'.fill policy.chunk data offset).1.pending.isFull policy.chunk = true := by
      rw [← held_isFull hfilled]
      exact hfull
    have hready : filled.1.ready.held = (slots'.fill policy.chunk data offset).1.ready.held :=
      congrArg Prod.fst hfilled
    rw [feed.eq_def _ _ slots, if_pos hlt, if_pos hfull]
    rw [feed.eq_def _ _ slots', if_pos hlt, if_pos hfull', ← hready, ← hcount]
    apply (stage_agree policy data hheld offset).bind_equal
    intro _
    apply (sendPart_agree _).bind_equal
    intro _
    apply Agree.bind_equal (agree_change ?_)
    · intro _
      exact ih _ (held_shift hfilled)
    · intro pairs' w v hsub hwv
      exact hwv.withSlots (congrArg some (held_shift hfilled))
  | case2 slots offset hlt filled hroom =>
    rename_i ih
    obtain ⟨hfilled, hcount⟩ := held_fill hheld policy.chunk data offset
    have hroom' : ¬ (slots'.fill policy.chunk data offset).1.pending.isFull policy.chunk = true := by
      rw [← held_isFull hfilled]
      exact hroom
    rw [feed.eq_def _ _ slots, if_pos hlt, if_neg hroom]
    rw [feed.eq_def _ _ slots', if_pos hlt, if_neg hroom', ← hcount]
    apply (stage_agree policy data hheld offset).bind_equal
    intro _
    exact ih _ hfilled
  | case3 slots offset hge =>
    rw [feed.eq_def _ _ slots, if_neg hge, feed.eq_def _ _ slots', if_neg hge]
    exact agree_pure fun _ _ => rfl

/-! ## 4. Repair -/

variable {s s' : Session}

theorem abortQuietly_agree (h : s.Tied region pairs s') :
    Run.Agree region sharp pairs .equal (abortQuietly s) (abortQuietly s') :=
  (Client.abortUpload_agree h).tryCatch fun _ => Run.agree_report _ _

theorem orAbort_agree {α β : Type} {Q : Related α β} (h : s.Tied region pairs s')
    {x : Run (Disturbed Store) α} {y : Run (Disturbed Store) β}
    (hx : Run.Agree region sharp pairs Q x y) :
    Run.Agree region sharp pairs Q (orAbort s x) (orAbort s' y) := by
  apply hx.tryCatch
  intro e
  apply (abortQuietly_agree h).bind_equal
  intro _
  exact Run.agree_throw e

theorem refetch_agree (h : s.Tied region pairs s') (size : Int) :
    Run.Agree region sharp pairs .equal (refetch s size) (refetch s' size) := by
  unfold refetch
  rw [← h.bucket, ← h.key]
  apply (Client.getObject_agree h.region s.bucket).bind_equal
  intro body
  apply (Stream.drain_agree body).bind_equal
  intro content
  split
  · exact Run.agree_pure fun _ _ => rfl
  · exact Run.agree_throw _

theorem carryOver_agree {old old' : Session} (hold : old.Tied region pairs old')
    (hnew : s.Tied region pairs s') (size : Int) (mode : RepairMode) :
    Run.Agree region sharp pairs .equal (carryOver old s size mode) (carryOver old' s' size mode) := by
  cases mode with
  | refetch =>
    apply (refetch_agree hold size).bind_equal
    intro content
    exact Run.agree_pure fun _ _ => rfl
  | copy =>
    have htied : Session.Tied region pairs { s with bucket := old.bucket, key := old.key }
        { s' with bucket := old'.bucket, key := old'.key } :=
      ⟨hold.bucket, hold.key, hold.region, hold.nonempty, hnew.pair⟩
    unfold carryOver
    rw [← hold.key] at htied ⊢
    apply (Client.copyPart_agree htied 1 hold.region).bind_equal
    intro part
    exact Run.agree_pure fun _ _ => rfl

theorem completeSource_agree : Agree region sharp pairs .equal
    (completeSource : Writing (Disturbed Store) Unit) completeSource := by
  apply agree_reading
  intro pairs' w v hsub hwv
  rw [hwv.sourceCompleted, hwv.parts]
  split
  · have hcomplete : Run.Agree region sharp pairs' .equal
        (Client.completeUpload w.session v.parts) (Client.completeUpload v.session v.parts) :=
      Client.completeUpload_agree hwv.session v.parts
    apply (agree_ofRun (orAbort_agree hwv.session hcomplete)).discard.bind_equal
    intro _
    apply agree_change
    intro pairs'' w v hsub' hwv
    exact ⟨hwv.policy, hwv.session, hwv.parts, hwv.size, hwv.phase, rfl, hwv.slots⟩
  · exact agree_pure fun _ _ => rfl

theorem replaceSession_agree : Agree region sharp pairs .equal
    (replaceSession : Writing (Disturbed Store) Unit) replaceSession := by
  apply completeSource_agree.bind_equal
  intro _
  apply agree_reading
  intro pairs' w v hsub hwv
  dsimp only
  rw [← hwv.session.bucket, ← hwv.session.key, ← hwv.policy, ← hwv.size]
  apply (agree_ofRun (Client.createUpload_agree hwv.session.region hwv.session.nonempty _ _)).bind
  rintro pairs'' new new' hsub' ⟨hnew, -⟩
  have hold := hwv.session.of_subset hsub'
  apply (agree_ofRun (orAbort_agree hnew (carryOver_agree hold hnew _ _))).bind
  rintro pairs₃ ⟨parts, content⟩ _ hsub₃ rfl
  apply Agree.bind_equal (agree_change ?_)
  · intro _
    have hend : ∀ _ : Unit, Agree region sharp pairs₃ .equal
        (do ofRun (Run.count fun m => m.addRepair (repairMode w.policy w.size))
            ofRun (Run.report (.replaced w.session.key w.session.uploadId new.uploadId
              (repairMode w.policy w.size) w.size)) : Writing (Disturbed Store) Unit)
        (do ofRun (Run.count fun m => m.addRepair (repairMode w.policy w.size))
            ofRun (Run.report (.replaced w.session.key v.session.uploadId new'.uploadId
              (repairMode w.policy w.size) w.size))) := by
      intro _
      apply (agree_ofRun (Run.agree_count _ _)).bind_equal
      intro _
      exact agree_ofRun (Run.agree_report _ _)
    split
    · apply borrow_agree.bind
      intro pairs₄ slots slots' hsub₄ hheld
      have hready : slots.ready.held = slots'.ready.held := congrArg Prod.fst hheld
      have hpending : slots.pending.held = slots'.pending.held := congrArg Prod.snd hheld
      apply Agree.bind_equal (agree_onPool ?_ ?_)
      · intro _
        apply Agree.bind_equal (agree_change ?_)
        · intro u
          exact (hend u).of_subset hsub₄
        · intro pairs₅ w' v' hsub₅ hwv'
          apply hwv'.withSlots
          simp only [Slot.fill, Option.map_some, Slots.held, hready, hpending]
      · intro p
        rfl
      · intro p
        rfl
    · exact hend ()
  · intro pairs₄ w' v' hsub₄ hwv'
    exact ⟨hwv'.policy, hnew.of_subset (fun _ h => hsub₄ (hsub₃ h)), rfl, hwv'.size, hwv'.phase, rfl,
      hwv'.slots⟩

/-! ## 5. Operations -/

theorem takeIn_agree (data : Bytes) : Agree region sharp pairs .equal
    (takeIn data : Writing (Disturbed Store) Nat) (takeIn data) := by
  apply borrow_agree.bind
  intro pairs' slots slots' hsub hheld
  apply agree_reading
  intro pairs'' w v hsub' hwv
  rw [hwv.policy]
  exact feed_agree v.policy data slots slots' 0 hheld

theorem write_agree (data : Bytes) : Agree region sharp pairs .equal
    (write data : Writing (Disturbed Store) Nat) (write data) := by
  apply ensureActive_agree.bind_equal
  intro _
  dsimp only
  split
  · exact agree_pure fun _ _ => rfl
  · apply agree_reading
    intro pairs' w v hsub hwv
    rw [hwv.repair]
    split
    · apply replaceSession_agree.bind_equal
      intro _
      exact takeIn_agree data
    · exact takeIn_agree data

theorem enter_agree (phase : Phase) : Agree region sharp pairs .equal
    (enter phase : Writing (Disturbed Store) Unit) (enter phase) := by
  apply agree_change
  intro pairs' w v hsub hwv
  exact ⟨hwv.policy, hwv.session, hwv.parts, hwv.size, rfl, hwv.repair, hwv.slots⟩

theorem countEnding_agree (e : Ending) : Agree region sharp pairs .equal
    (countEnding e : Writing (Disturbed Store) Unit) (countEnding e) :=
  agree_ofRun (Run.agree_count _ _)

theorem agree_report (n n' : Notice) : Agree region sharp pairs .equal
    (ofRun (Run.report n) : Writing (Disturbed Store) Unit) (ofRun (Run.report n')) :=
  agree_ofRun (Run.agree_report n n')

theorem flushRelease_agree : Agree region sharp pairs .equal
    (flushRelease : Writing (Disturbed Store) Unit) flushRelease := by
  apply flush_agree.attempt.bind
  intro pairs' result result' hsub hends
  apply release_agree.bind_equal
  intro _
  apply (countEnding_agree _).bind_equal
  intro _
  cases hends with
  | returned hab => exact agree_pure fun _ _ => rfl
  | failed e => exact agree_throw e

theorem close_agree : Agree region sharp pairs .equal
    (close : Writing (Disturbed Store) Unit) close := by
  apply ensureActive_agree.bind_equal
  intro _
  apply agree_reading
  intro pairs' w v hsub hwv
  apply (enter_agree _).bind_equal
  intro _
  rw [hwv.sourceCompleted]
  dsimp only
  split
  · apply (agree_report _ _).bind_equal
    intro _
    exact flushRelease_agree
  · exact flushRelease_agree

theorem complete_agree : Agree region sharp pairs .equal
    (complete : Writing (Disturbed Store) Unit) complete := by
  apply agree_reading
  intro pairs' w v hsub hwv
  dsimp only
  rw [hwv.parts]
  apply (agree_ofRun (Client.completeUpload_agree hwv.session v.parts)).attempt.bind
  intro pairs'' result result' hsub' hends
  cases hends with
  | returned hab =>
    apply (countEnding_agree _).bind_equal
    intro _
    exact agree_report _ _
  | failed e =>
    apply (agree_report _ _).bind_equal
    intro _
    apply (agree_ofRun (abortQuietly_agree (hwv.session.of_subset hsub'))).bind_equal
    intro _
    apply (countEnding_agree _).bind_equal
    intro _
    exact agree_throw e

theorem commit_agree : Agree region sharp pairs .equal
    (commit : Writing (Disturbed Store) Unit) commit := by
  have hend : ∀ pairs', Agree region sharp pairs' .equal
      (do enter .committed
          release
          complete : Writing (Disturbed Store) Unit)
      (do enter .committed
          release
          complete) := by
    intro pairs'
    apply (enter_agree _).bind_equal
    intro _
    apply release_agree.bind_equal
    intro _
    exact complete_agree
  apply ensureActive_agree.bind_equal
  intro _
  apply agree_reading
  intro pairs' w v hsub hwv
  rw [hwv.sourceCompleted]
  split
  · apply (enter_agree _).bind_equal
    intro _
    apply release_agree.bind_equal
    intro _
    apply (countEnding_agree _).bind_equal
    intro _
    exact agree_report _ _
  · apply flush_agree.bind_equal
    intro _
    apply agree_reading
    intro pairs'' w v hsub' hwv
    rw [hwv.parts]
    dsimp only
    split
    · apply (sendPart_agree _).bind_equal
      intro _
      exact hend pairs''
    · exact hend pairs''

theorem cancel_agree : Agree region sharp pairs .equal
    (cancel : Writing (Disturbed Store) Unit) cancel := by
  apply ensureActive_agree.bind_equal
  intro _
  apply agree_reading
  intro pairs' w v hsub hwv
  apply (enter_agree _).bind_equal
  intro _
  apply release_agree.bind_equal
  intro _
  apply (countEnding_agree _).bind_equal
  intro _
  rw [hwv.sourceCompleted]
  split
  · apply (agree_ofRun (Client.abortUpload_agree hwv.session)).attempt.bind
    intro pairs'' result result' hsub' hends
    cases hends with
    | returned hab => exact agree_pure fun _ _ => rfl
    | failed e =>
      apply (agree_report _ _).bind_equal
      intro _
      exact agree_throw e
  · exact agree_pure fun _ _ => rfl

end Writer

end ResumableStorage
