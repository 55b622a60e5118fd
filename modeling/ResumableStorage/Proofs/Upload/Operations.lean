/-
  ResumableStorage/Proofs/Upload/Operations.lean
  ==============================================
  **What each operation of a writer does** — one statement for a write, a commit and a
  close of a writer whose upload is in flight, under every plan of failures: what becomes
  of the writer and of the store, when the operation returns and when it raises.
-/
import ResumableStorage.Proofs.Upload.Phases
import ResumableStorage.Proofs.Upload.Repair

namespace ResumableStorage

namespace Writer

variable {w w' : Writer} {c c' : Context (Disturbed Store)} {bodies spare : List Bytes}
  {t : Keyed Int Bytes} {completed : Bool}

/-! ## 1. Writing -/

/-- What a writer has staged fits into its slots. -/
structure Fits (w : Writer) : Prop where
  ready_le : w.ready.size ≤ w.policy.chunk
  pending_le : w.pending.size ≤ w.policy.chunk
  inOrder : w.pending.size = 0 ∨ w.ready.size = w.policy.chunk

theorem Fits.slots {slots : Slots} (h : w.Fits) (hready : slots.ready.held = w.ready)
    (hpending : slots.pending.held = w.pending) : slots.Fits w.policy.chunk := by
  obtain ⟨h₁, h₂, h₃⟩ := h
  rw [← hready, ← hpending] at *
  exact ⟨by rwa [hready], by rwa [hpending], by rwa [hready, hpending]⟩

theorem Fits.of_slots {slots : Slots} (hslots : w.slots = some slots)
    (h : slots.Fits w.policy.chunk) : w.Fits := by
  obtain ⟨h₁, h₂, h₃⟩ := h
  constructor <;> simpa only [ready, pending, hslots]

theorem Fits.of_empty (hready : w.ready.size ≤ w.policy.chunk)
    (hpending : w.pending = ByteArray.empty) : w.Fits := by
  refine ⟨hready, ?_, .inl ?_⟩ <;> simp [hpending]

def IsStuck (w : Writer) : Prop := w.pending.size = w.policy.chunk

instance (w : Writer) : Decidable w.IsStuck :=
  inferInstanceAs (Decidable (w.pending.size = w.policy.chunk))

theorem Fits.ready_of_stuck (h : w.Fits) (hstuck : w.IsStuck) : w.ready.size = w.policy.chunk := by
  have hpos := w.policy.chunk_pos
  rcases h.inOrder with hempty | hready
  · rw [IsStuck, hempty] at hstuck
    omega
  · exact hready

/-- What has become of a writer and a context by a write of `data` with the upload in flight:
`taken` bytes were taken in, and `sent` went out in full chunks. -/
structure Took (w : Writer) (c : Context (Disturbed Store)) (bodies spare : List Bytes)
    (data : Bytes) (result : Except Error Nat) (w' : Writer) (c' : Context (Disturbed Store))
    (sent : List Bytes) (taken : Nat) (spare' : List Bytes) : Prop where
  leads : c.Leads c'
  store : c'.store = w.storeHolding c (bodies ++ sent ++ spare')
  writer : ∃ slots, w' = { w with
    parts := Part.ofBodies (bodies ++ sent)
    size := w.size + taken
    slots := some slots }
  length_le : spare'.length ≤ 1
  fits : w'.Fits
  chunks : ∀ b ∈ sent, b.size = w.policy.chunk
  taken_le : taken ≤ data.size
  bytes : Bytes.concat sent ++ w'.staged = w.staged ++ data.extract 0 taken
  outcome : result = .ok data.size ∧ taken = data.size ∧ ¬ w'.IsStuck ∧
      spare' = (if sent = [] then spare else []) ∨
    ∃ e, result = .error e ∧ ¬ c.service.IsCalm ∧ w'.IsStuck

/-- The upload of a writer is in flight, and its bodies and what is staged make `content`. -/
structure Holds (w : Writer) (c : Context (Disturbed Store)) (content : Bytes)
    (bodies spare : List Bytes) : Prop where
  attached : w.Attached c bodies spare
  fits : w.Fits
  bytes : Bytes.concat bodies ++ w.staged = content
  size : w.size = content.size

theorem Took.holds {content data : Bytes} {result : Except Error Nat} {sent spare' : List Bytes}
    {taken : Nat} (htook : Took w c bodies spare data result w' c' sent taken spare')
    (h : w.Holds c content bodies spare) :
    w'.Holds c' (content ++ data.extract 0 taken) (bodies ++ sent) spare' := by
  have hle := htook.taken_le
  obtain ⟨slots, hw'⟩ := htook.writer
  refine ⟨?_, htook.fits, ?_, ?_⟩
  · exact h.attached.next htook.leads htook.store (by rw [hw']) (by rw [hw']) htook.length_le
  · rw [Bytes.concat_append, ByteArray.append_assoc, htook.bytes, ← ByteArray.append_assoc, h.bytes]
  · rw [hw', ByteArray.size_append, ByteArray.size_extract]
    simp only [h.size]
    push_cast
    omega

/-- A writer that is stuck takes in no byte unless it sends its first slot. -/
theorem Took.stuck_of_sent_nil {data : Bytes} {result : Except Error Nat} {spare' : List Bytes}
    {taken : Nat} (htook : Took w c bodies spare data result w' c' [] taken spare')
    (hfits : w.Fits) (hstuck : w.IsStuck) : w'.IsStuck := by
  obtain ⟨slots, hw'⟩ := htook.writer
  have hchunk : w'.policy.chunk = w.policy.chunk := by rw [hw']
  have hfits' := htook.fits
  have hsize := congrArg ByteArray.size htook.bytes
  have hready := hfits.ready_of_stuck hstuck
  simp only [staged, Bytes.concat_nil, ByteArray.empty_append, ByteArray.size_append] at hsize
  have hle₁ := hfits'.ready_le
  have hle₂ := hfits'.pending_le
  simp only [IsStuck] at hstuck ⊢
  omega

/-- The bytes of a write are fed to the slots of the writer, which the pool lends when it has
none. -/
def takeIn {σ : Type} [Service σ] (data : Bytes) : Writing σ Nat := do
  let slots ← borrow
  feed (← Writing.writer).policy data slots 0

section Any

variable {σ : Type} [Service σ] {w : Writer} {c : Context σ} {data : Bytes}

theorem write_of_empty (hphase : w.phase = .active) (hempty : data.size = 0) :
    (write data).execute w c = (.ok 0, w, c) := by
  simp only [write, Writing.execute_bind, ensureActive_of_active hphase, hempty, if_true]
  rfl

theorem write_of_settled (hphase : w.phase = .active) (hrepair : ∀ b, w.repair ≠ .required b)
    (hne : data.size ≠ 0) : (write data).execute w c = (takeIn data).execute w c := by
  rcases hw : w.repair with _ | b | _
  · simp [write, takeIn, Writing.execute_bind, ensureActive_of_active hphase, hne, hw]
  · exact absurd hw (hrepair b)
  · simp [write, takeIn, Writing.execute_bind, ensureActive_of_active hphase, hne, hw]

theorem write_of_required (hphase : w.phase = .active) {completed : Bool}
    (hrepair : w.repair = .required completed) (hne : data.size ≠ 0) : (write data).execute w c =
      (replaceSession >>= fun _ => takeIn data).execute w c := by
  simp [write, takeIn, Writing.execute_bind, ensureActive_of_active hphase, hne, hrepair]

theorem takeIn_tells {told : Nat} {w' : Writer} {c' : Context σ}
    (hrun : (takeIn data).execute w c = (.ok told, w', c')) : told = data.size := by
  obtain ⟨slots, w₁, c₁, -, hrun⟩ := Writing.execute_bind_eq_ok.mp hrun
  exact feed_tells (Nat.zero_le _) hrun

end Any

theorem takeIn_took (h : w.Attached c bodies spare) (hfits : w.Fits) {data : Bytes}
    (hne : data.size ≠ 0) :
    ∃ result w' c' sent taken spare', (takeIn data).execute w c = (result, w', c') ∧
      Took w c bodies spare data result w' c' sent taken spare' := by
  obtain ⟨slots, c₁, hborrow, hleads₁, hstore₁, hready, hpending⟩ := borrow_cases (w := w)
    h.failsOnly
  have h₁ : Attached { w with slots := some slots } c₁ bodies spare :=
    h.next hleads₁ (by rw [hstore₁, h.storeHolding_self]) rfl h.parts h.spare
  have hfits₁ := hfits.slots hready hpending
  obtain ⟨result, w', c', sent, taken, slots', spare', hfeed, hfed, hcases⟩ :=
    feed_fed w.policy data slots 0 (by rfl) h₁ rfl hfits₁ (Nat.zero_le _)
  refine ⟨result, w', c', sent, taken, spare', ?_, ?_⟩
  · simp only [takeIn, Writing.execute_bind, hborrow, Writing.execute_writer, hfeed]
  have hslots' : w'.slots = some slots' := by rw [hfed.writer]
  have hchunk : w'.policy.chunk = w.policy.chunk := by rw [hfed.writer]
  have hfits' := hfed.fits
  have hstaged : slots.staged = w.staged := by rw [Slots.staged, hready, hpending, staged]
  have hstuck : w'.IsStuck ↔ slots'.pending.isFull w.policy.chunk = true := by
    have hle := hfits'.pending_le
    simp only [IsStuck, pending, hslots', hchunk, Slot.isFull, decide_eq_true_eq]
    simp only at hle
    omega
  refine ⟨hleads₁.trans hfed.leads, ?_, ⟨slots', hfed.writer⟩, hfed.spare,
    .of_slots hslots' (by rw [hchunk]; exact hfits'), hfed.chunks, ?_, ?_, ?_⟩
  · rw [hfed.store, storeHolding, hstore₁]
    rfl
  · simpa using hfed.taken_le
  · rw [staged_of_slots hslots', hfed.bytes, hstaged, Nat.zero_add]
  · rcases hcases with ⟨rfl, htaken, hspare, hroom⟩ | ⟨e, rfl, hcalm, hfull⟩
    · refine .inl ⟨rfl, by omega, ?_, hspare⟩
      rw [hstuck, hroom (.inl (by omega))]
      decide
    · exact .inr ⟨e, rfl, fun hc => hcalm (hleads₁.calm hc), hstuck.mpr hfull⟩

theorem write_of_attached (hphase : w.phase = .active) (hrepair : ∀ b, w.repair ≠ .required b)
    (h : w.Attached c bodies spare) (hfits : w.Fits) {data : Bytes} (hne : data.size ≠ 0) :
    ∃ result w' c' sent taken spare', (write data).execute w c = (result, w', c') ∧
      Took w c bodies spare data result w' c' sent taken spare' := by
  obtain ⟨result, w', c', sent, taken, spare', htake, htook⟩ := takeIn_took h hfits hne
  refine ⟨_, w', c', sent, taken, spare', ?_, htook⟩
  rw [write_of_settled hphase hrepair hne, htake]

theorem Replaced.holds (hreplaced : w.Replaced c t.values w' c') (h : w.Stale c t completed) :
    w'.Holds c' (Bytes.concat t.values) (w.repairBodies t.values) [] := by
  obtain ⟨slots, hw'⟩ := hreplaced.writer
  have hchunk : w'.policy = w.policy := by rw [hw']
  refine ⟨hreplaced.attached, .of_empty ?_ hreplaced.pending, ?_, ?_⟩
  · have hlt := leftOver_size_lt w.policy (Bytes.concat t.values)
    have hle := w.policy.floor_le_chunk
    rw [hreplaced.ready, h.size, hchunk]
    omega
  · rw [staged, hreplaced.ready, hreplaced.pending, ByteArray.append_empty]
    exact carried_append_leftOver _ _
  · rw [hw']
    exact h.size

/-- A write that has to repair the upload first: it takes in nothing when the repair fails, and
goes on as a write of the repaired writer when it succeeds. -/
theorem write_of_stale (hphase : w.phase = .active) (h : w.Stale c t completed)
    {data : Bytes} (hne : data.size ≠ 0) :
    (∃ e w' c' completed', (write data).execute w c = (.error e, w', c') ∧ c.Leads c' ∧
        w' = { w with repair := .required completed' } ∧ w'.Stale c' t completed' ∧
        (c.service.IsCalm → completed = false ∧ ¬ w.Completable c t.values)) ∨
      ∃ w₁ c₁ result w' c' sent taken spare', c.Leads c₁ ∧ w.Replaced c t.values w₁ c₁ ∧
        (write data).execute w c = (result, w', c') ∧
        Took w₁ c₁ (w.repairBodies t.values) [] data result w' c' sent taken spare' := by
  obtain ⟨result, w₁, c₁, hreplace, hleads, hcases⟩ := replaceSession_cases h
  rcases hcases with ⟨rfl, hreplaced⟩ | ⟨e, completed', rfl, rest⟩
  · right
    obtain ⟨result, w', c', sent, taken, spare', htake, htook⟩ :=
      takeIn_took hreplaced.attached (hreplaced.holds h).fits hne
    refine ⟨w₁, c₁, _, w', c', sent, taken, spare', hleads, hreplaced, ?_, htook⟩
    simp only [write_of_required hphase h.repair hne, Writing.execute_bind, hreplace, htake]
  · left
    refine ⟨e, w₁, c₁, completed', ?_, hleads, rest⟩
    simp only [write_of_required hphase h.repair hne, Writing.execute_bind, hreplace]

/-! ## 2. Sending what is staged -/

/-- The part that a flush sends: with both slots full it takes only the first. -/
def finalBody (w : Writer) : Bytes :=
  if w.IsStuck then w.ready else w.staged

def flushed (w : Writer) : List Bytes :=
  if w.staged = ByteArray.empty then [] else [w.finalBody]

/-- What a commit sends; an upload without parts gets an empty one. -/
def committedBodies (w : Writer) : List Bytes :=
  if w.staged = ByteArray.empty ∧ w.parts = [] then [ByteArray.empty] else w.flushed

theorem flushed_eq_nil_iff : w.flushed = [] ↔ w.staged = ByteArray.empty := by
  unfold flushed
  split <;> simpa

theorem committedBodies_of_nil (hflushed : w.flushed = []) (hparts : w.parts = []) :
    w.committedBodies = [ByteArray.empty] := by
  rw [committedBodies, if_pos ⟨flushed_eq_nil_iff.mp hflushed, hparts⟩]

theorem committedBodies_of_ne (h : w.flushed ≠ [] ∨ w.parts ≠ []) :
    w.committedBodies = w.flushed := by
  rw [committedBodies, if_neg]
  rw [← flushed_eq_nil_iff]
  rintro ⟨hflushed, hparts⟩
  exact h.elim (· hflushed) (· hparts)

theorem staged_ne_empty_of_stuck (hstuck : w.IsStuck) : w.staged ≠ ByteArray.empty := by
  intro hempty
  have hpos := w.policy.chunk_pos
  have hsize := congrArg ByteArray.size hempty
  rw [staged, ByteArray.size_append, ByteArray.size_empty] at hsize
  simp only [IsStuck] at hstuck
  omega

/-- What a flush leaves behind: the second slot when both are full. -/
theorem concat_flushed (w : Writer) :
    Bytes.concat w.flushed ++ (if w.IsStuck then w.pending else ByteArray.empty) = w.staged := by
  by_cases hempty : w.staged = ByteArray.empty
  · rw [flushed, if_pos hempty, if_neg fun hstuck => staged_ne_empty_of_stuck hstuck hempty, hempty]
    rfl
  · rw [flushed, if_neg hempty, finalBody]
    by_cases hstuck : w.IsStuck
    · simp [hstuck, staged]
    · simp [hstuck]

theorem concat_flushed_of_room (h : ¬ w.IsStuck) : Bytes.concat w.flushed = w.staged := by
  have hflushed := concat_flushed w
  rwa [if_neg h, ByteArray.append_empty] at hflushed

theorem concat_committedBodies (w : Writer) :
    Bytes.concat w.committedBodies = Bytes.concat w.flushed := by
  unfold committedBodies
  split
  · rename_i h
    simp [flushed, h.1]
  · rfl

theorem nextPart_eq_finalBody {slots : Slots} (hslots : w.slots = some slots) (hfits : w.Fits) :
    (slots.nextPart w.policy.chunk).1 = w.finalBody := by
  have hready : w.ready = slots.ready.held := by rw [ready, hslots]
  have hpending : w.pending = slots.pending.held := by rw [pending, hslots]
  have hfull : slots.pending.isFull w.policy.chunk = true ↔ w.IsStuck := by
    have hle := hfits.pending_le
    simp only [Slot.isFull, decide_eq_true_eq, IsStuck]
    rw [hpending] at hle ⊢
    omega
  rw [Slots.nextPart, finalBody, staged, hready, hpending]
  by_cases hstuck : w.IsStuck
  · rw [if_pos (hfull.mpr hstuck), if_pos hstuck]
  · rw [if_neg (mt hfull.mp hstuck), if_neg hstuck]

theorem flush_flushed (h : w.Attached c bodies spare) (hfits : w.Fits) :
    ∃ result w' c', flush.execute w c = (result, w', c') ∧ c.Leads c' ∧
      (result = .ok () ∧
          (∃ slots, w' = { w with parts := Part.ofBodies (bodies ++ w.flushed), slots := slots } ∧
            (w.flushed = [] → slots = w.slots)) ∧
          c'.store = w.storeHolding c (bodies ++ w.flushed ++ if w.flushed = [] then spare else []) ∨
        ∃ e spare', result = .error e ∧ w' = w ∧ ¬ c.service.IsCalm ∧ spare'.length ≤ 1 ∧
          w.staged ≠ ByteArray.empty ∧ c'.store = w.storeHolding c (bodies ++ spare')) := by
  by_cases hstaged : w.staged = ByteArray.empty
  · have hnone : w.flushed = [] := by rw [flushed, if_pos hstaged]
    rw [hnone, if_pos rfl, List.append_nil, ← h.parts]
    exact ⟨_, _, _, flush_of_staged_empty hstaged, .refl h.failsOnly,
      .inl ⟨rfl, ⟨w.slots, rfl, fun _ => rfl⟩, h.storeHolding_self.symm⟩⟩
  · rcases hslots : w.slots with _ | slots
    · exact absurd (staged_of_none hslots) hstaged
    · have hsome : w.flushed = [w.finalBody] := by rw [flushed, if_neg hstaged]
      obtain ⟨result, w', c', hrun, hleads, hcases⟩ :=
        flush_cases h hslots (by rwa [← staged_of_slots hslots])
      rw [nextPart_eq_finalBody hslots hfits] at hcases
      rw [hsome, if_neg (by simp), List.append_nil]
      refine ⟨result, w', c', hrun, hleads, ?_⟩
      rcases hcases with ⟨rfl, rfl, hstore⟩ | ⟨e, spare', rfl, rfl, hcalm, hspare, hstore⟩
      · exact .inl ⟨rfl, ⟨_, rfl, nofun⟩, hstore⟩
      · exact .inr ⟨e, spare', rfl, rfl, hcalm, hspare, hstaged, hstore⟩

/-- What a commit sends before it finishes the writer: what is staged, and an empty part when there
would be none. -/
def sendRest {σ : Type} [Service σ] : Writing σ Unit := do
  flush
  if (← Writing.writer).parts.isEmpty then sendPart ByteArray.empty

theorem sendRest_of_staged_empty {σ : Type} [Service σ] {c : Context σ}
    (hstaged : w.staged = ByteArray.empty) (hparts : w.parts ≠ []) :
    sendRest.execute w c = (.ok (), w, c) := by
  have hnonempty : w.parts.isEmpty = false := List.isEmpty_eq_false_iff.mpr hparts
  simp only [sendRest, Writing.execute_bind, flush_of_staged_empty hstaged, Writing.execute_writer,
    hnonempty, Bool.false_eq_true, if_false, Writing.execute_pure]

theorem append_committedBodies_ne_nil (hparts : w.parts = Part.ofBodies bodies) :
    bodies ++ w.committedBodies ≠ [] := by
  intro hnil
  obtain ⟨rfl, hcommitted⟩ := List.append_eq_nil_iff.mp hnil
  by_cases hflushed : w.flushed = []
  · rw [committedBodies_of_nil hflushed hparts] at hcommitted
    cases hcommitted
  · rw [committedBodies_of_ne (.inl hflushed)] at hcommitted
    exact hflushed hcommitted

theorem sendRest_of_attached (h : w.Attached c bodies spare) (hfits : w.Fits) :
    ∃ result w' c', sendRest.execute w c = (result, w', c') ∧ c.Leads c' ∧
      (result = .ok () ∧
          (∃ slots, w' = { w with
            parts := Part.ofBodies (bodies ++ w.committedBodies)
            slots := slots }) ∧
          c'.store = w.storeHolding c
            (bodies ++ w.committedBodies ++ if w.committedBodies = [] then spare else []) ∨
        ∃ e spare', result = .error e ∧ w' = w ∧ ¬ c.service.IsCalm ∧ spare'.length ≤ 1 ∧
          c'.store = w.storeHolding c (bodies ++ spare')) := by
  obtain ⟨result, w₁, c₁, hflush, hleads₁, hcases⟩ := flush_flushed h hfits
  simp only [sendRest, Writing.execute_bind, Writing.execute_writer, hflush]
  rcases hcases with ⟨rfl, ⟨slots, rfl, hsame⟩, hstore₁⟩ |
    ⟨e, spare', rfl, rfl, hcalm, hspare, -, hstore⟩
  swap
  · exact ⟨_, _, _, rfl, hleads₁, .inr ⟨e, spare', rfl, rfl, hcalm, hspare, hstore⟩⟩
  by_cases hnone : w.flushed = [] ∧ w.parts = []
  · -- nothing was sent, so the upload has no parts and gets an empty one
    obtain ⟨hflushed, hparts⟩ := hnone
    have hbodies : bodies = [] := Part.ofBodies_eq_nil_iff.mp (h.parts.symm.trans hparts)
    subst hbodies
    rw [hflushed, if_pos rfl] at hstore₁
    have hw : { w with parts := Part.ofBodies ([] ++ w.flushed), slots := slots } = w := by
      rw [hsame hflushed, hflushed, List.append_nil, ← h.parts]
    have hempty : w.parts.isEmpty = true := by rw [hparts]; rfl
    rw [hw, committedBodies_of_nil hflushed hparts]
    simp only [hempty, if_true]
    have h₁ : w.Attached c₁ [] spare := h.next hleads₁ hstore₁ rfl h.parts h.spare
    obtain ⟨result, w₂, c₂, hsend, hleads₂, hcases₂⟩ := sendPart_cases h₁ ByteArray.empty
    simp only [storeHolding_storeHolding rfl hstore₁] at hcases₂
    refine ⟨result, w₂, c₂, hsend, hleads₁.trans hleads₂, ?_⟩
    rcases hcases₂ with ⟨rfl, rfl, hstore₂⟩ | ⟨e, spare', rfl, rfl, hcalm, hspare, hstore₂⟩
    · exact .inl ⟨rfl, ⟨w.slots, rfl⟩, by simpa using hstore₂⟩
    · exact .inr ⟨e, spare', rfl, rfl, fun hc => hcalm (hleads₁.calm hc), hspare, hstore₂⟩
  · -- what was staged makes the last part
    have hsent : w.flushed ≠ [] ∨ w.parts ≠ [] := by tauto
    have hcommitted := committedBodies_of_ne hsent
    have hne := append_committedBodies_ne_nil h.parts
    rw [hcommitted] at hne ⊢
    have hempty : (Part.ofBodies (bodies ++ w.flushed)).isEmpty = false := by
      rw [List.isEmpty_eq_false_iff]
      exact mt Part.ofBodies_eq_nil_iff.mp hne
    simp only [hempty, Bool.false_eq_true, if_false]
    exact ⟨_, _, _, rfl, hleads₁, .inl ⟨rfl, ⟨slots, rfl⟩, hstore₁⟩⟩

/-! ## 3. Finishing -/

theorem release_cases {σ : Type} (w : Writer) (c : Context σ) :
    ∃ c', release.execute w c = (.ok (), { w with slots := none }, c') ∧
      c'.service = c.service ∧ c'.pool.capacity = c.pool.capacity := by
  simp only [release, Writing.execute_modify]
  rcases hslots : w.slots with _ | slots
  · have hw : { w with slots := none } = w := by rw [← hslots]
    exact ⟨c, by rw [hw], rfl, rfl⟩
  · exact ⟨_, rfl, rfl, by rw [Pool.capacity_release, Pool.capacity_release]⟩

/-- An upload is completed to what its parts hold, whatever their numbers are.  With nothing
disturbed that is refused only when it is not in flight, or when a part that is not the last is
below the store's least size. -/
theorem complete_of_table (hf : c.service.FailsOnly) (hparts : w.parts = Part.ofTable t)
    (hne : t.entries ≠ [])
    (hfind : ∀ u, c.store.upload? w.session.key w.session.uploadId = some u →
      ∀ e ∈ t.entries, u.parts.find? e.1 = some e.2) :
    ∃ result c', complete.execute w c = (result, w, c') ∧ c.Leads c' ∧
      (result = .ok () ∧ c'.store = w.completedStore c t.values ∨
        ∃ e, result = .error e ∧ (c.service.IsCalm → ¬ w.Completable c t.values)) := by
  obtain ⟨result, c₁, hrun, hleads, hcases⟩ :=
    Client.completeUpload_cases hf w.session hne hfind
  rw [← hparts] at hrun
  simp only [complete, Writing.execute_bind, Writing.execute_writer, Writing.execute_attempt,
    Writing.execute_ofRun, hrun]
  rcases hcases with ⟨etag, v, rfl, -, hstore⟩ | ⟨e, rfl, -, hwhy⟩
  · simp only [countEnding, Writing.execute_ofRun, Writing.execute_bind, Run.execute_count,
      Run.execute_report]
    exact ⟨_, _, rfl, ⟨hleads.failsOnly, hleads.calm, hleads.capacity⟩, .inl ⟨rfl, hstore⟩⟩
  · obtain ⟨c₂, habort, hleads₂, -⟩ := abortQuietly_cases (c := { c₁ with notices := c₁.notices ++
      [.completeFailed w.session.key w.session.uploadId w.parts.length e] }) hleads.failsOnly w.session
    simp only [countEnding, Writing.execute_ofRun, Writing.execute_bind, Run.execute_count,
      Run.execute_report, Writing.execute_throw, habort]
    refine ⟨_, _, rfl, ⟨hleads₂.failsOnly, fun hc => hleads₂.calm (hleads.calm hc),
      hleads₂.capacity.trans hleads.capacity⟩, .inr ⟨e, rfl, ?_⟩⟩
    rintro hcalm ⟨⟨u, hu⟩, hsize⟩
    have hnone := hwhy hcalm hsize
    rw [hu] at hnone
    cases hnone

theorem complete_cases (h : w.Attached c bodies spare) (hne : bodies ≠ []) :
    ∃ result c', complete.execute w c = (result, w, c') ∧ c.Leads c' ∧
      (result = .ok () ∧ c'.store = w.completedStore c bodies ∨
        ∃ e, result = .error e ∧ (c.service.IsCalm → ¬ w.Completable c bodies)) := by
  obtain ⟨u, hu, hparts⟩ := h.upload
  have hfind : ∀ v, c.store.upload? w.session.key w.session.uploadId = some v →
      ∀ e ∈ (Part.table bodies).entries, v.parts.find? e.1 = some e.2 := by
    intro v hv e he
    rw [hu, Option.some.injEq] at hv
    rw [← hv, hparts]
    exact Part.find?_table_append he spare
  have hcases := complete_of_table h.failsOnly (h.parts.trans (Part.ofTable_table bodies).symm)
    (mt Part.table_entries_eq_nil_iff.mp hne) hfind
  rwa [Part.values_table] at hcases

/-- The end of a commit: the writer is finished, gives its buffers back and completes the upload. -/
theorem releaseComplete_cases (h : w.Attached c bodies spare) (hne : bodies ≠ []) :
    ∃ c₁ result c', release.execute { w with phase := .committed } c =
        (.ok (), { w with phase := .committed, slots := none }, c₁) ∧
      complete.execute { w with phase := .committed, slots := none } c₁ =
        (result, { w with phase := .committed, slots := none }, c') ∧ c.Leads c' ∧
      (result = .ok () ∧ c'.store = w.completedStore c bodies ∨
        ∃ e, result = .error e ∧ (c.service.IsCalm → ¬ w.Completable c bodies)) := by
  obtain ⟨c₁, hrelease, hservice, hcapacity⟩ := release_cases { w with phase := .committed } c
  have hstore₁ : c₁.store = c.store := congrArg (·.service) hservice
  have hleads₁ : c.Leads c₁ :=
    ⟨hservice ▸ h.failsOnly, fun hc => hservice ▸ hc, hcapacity⟩
  have h₁ : Attached { w with phase := .committed, slots := none } c₁ bodies spare :=
    h.next hleads₁ (by rw [hstore₁, h.storeHolding_self]) rfl h.parts h.spare
  obtain ⟨result, c', hcomplete, hleads, hcases⟩ := complete_cases h₁ hne
  refine ⟨c₁, result, c', hrelease, hcomplete, hleads₁.trans hleads, ?_⟩
  simp only [completedStore, Completable, hstore₁] at hcases ⊢
  rcases hcases with ⟨rfl, hstore⟩ | ⟨e, rfl, hwhy⟩
  · exact .inl ⟨rfl, hstore⟩
  · exact .inr ⟨e, rfl, fun hcalm => hwhy (hleads₁.calm hcalm)⟩

theorem completable_of_storeHolding (h : w.Attached c bodies spare) {all bodies' : List Bytes}
    (hstore : c'.store = w.storeHolding c bodies') (hsession : w'.session = w.session)
    (hsize : ∀ b ∈ all.dropLast, c.store.minPartSize ≤ b.size) : w'.Completable c' all := by
  obtain ⟨u, hu, -⟩ := h.upload
  rw [Completable, hsession, hstore]
  exact ⟨⟨_, Store.upload?_setParts hu _⟩, hsize⟩

theorem commit_eq {σ : Type} [Service σ] {c : Context σ} (hphase : w.phase = .active)
    (hsource : w.sourceCompleted = false) : commit.execute w c =
      (sendRest >>= fun _ => enter .committed >>= fun _ => release >>= fun _ => complete).execute
        w c := by
  simp only [commit, sendRest, Writing.execute_bind, ensureActive_of_active hphase,
    Writing.execute_writer, hsource, Bool.false_eq_true, if_false]
  rcases flush.execute w c with ⟨e | _, w₁, c₁⟩
  · rfl
  · rcases hparts : w₁.parts.isEmpty <;>
      simp only [hparts, Bool.false_eq_true, if_false, if_true, Writing.execute_bind,
        Writing.execute_pure]

/-- A commit of an upload in flight.  It fails before the writer is finished, and then nothing but
the store may have changed; or it finishes the writer, with what was staged sent, and completes
the upload or fails at that. -/
theorem commit_of_attached (hphase : w.phase = .active) (hsource : w.sourceCompleted = false)
    (h : w.Attached c bodies spare) (hfits : w.Fits) :
    ∃ result w' c', commit.execute w c = (result, w', c') ∧ c.Leads c' ∧
      ((∃ e spare', result = .error e ∧ w' = w ∧ ¬ c.service.IsCalm ∧ spare'.length ≤ 1 ∧
          c'.store = w.storeHolding c (bodies ++ spare')) ∨
        w' = { w with
            parts := Part.ofBodies (bodies ++ w.committedBodies)
            phase := .committed
            slots := none } ∧
          (result = .ok () ∧ c'.store =
              (w.storeHolding c (bodies ++ w.committedBodies ++
                if w.committedBodies = [] then spare else [])).complete w.session.uploadId
                w.session.key (Bytes.concat (bodies ++ w.committedBodies)) ∨
            ∃ e, result = .error e ∧ (c.service.IsCalm →
              ¬ ∀ b ∈ (bodies ++ w.committedBodies).dropLast, c.store.minPartSize ≤ b.size))) := by
  obtain ⟨result, w₁, c₁, hrest, hleads₁, hcases⟩ := sendRest_of_attached h hfits
  rw [commit_eq hphase hsource]
  simp only [enter, Writing.execute_bind, hrest]
  rcases hcases with ⟨rfl, ⟨slots, rfl⟩, hstore₁⟩ | ⟨e, spare', rfl, rfl, hfailed⟩
  swap
  · exact ⟨_, _, _, rfl, hleads₁, .inl ⟨e, spare', rfl, rfl, hfailed⟩⟩
  have h₁ : Attached { w with parts := Part.ofBodies (bodies ++ w.committedBodies), slots := slots }
      c₁ (bodies ++ w.committedBodies) (if w.committedBodies = [] then spare else []) :=
    h.next hleads₁ hstore₁ rfl rfl (by split; exacts [h.spare, by simp])
  obtain ⟨c₂, result, c', hrelease, hcomplete, hleads, hcases⟩ :=
    releaseComplete_cases h₁ (append_committedBodies_ne_nil h.parts)
  simp only [Writing.execute_change, hrelease, hcomplete]
  refine ⟨_, _, _, rfl, hleads₁.trans hleads, .inr ⟨rfl, ?_⟩⟩
  rcases hcases with ⟨rfl, hstore⟩ | ⟨e, rfl, hwhy⟩
  · refine .inl ⟨rfl, ?_⟩
    rw [hstore, completedStore, hstore₁]
  · exact .inr ⟨e, rfl, fun hcalm hsize => hwhy (hleads₁.calm hcalm)
      (completable_of_storeHolding h hstore₁ rfl hsize)⟩

/-- With nothing disturbed a commit returns, unless a part that is not the last is below the store's
least size. -/
theorem commit_returns (hphase : w.phase = .active) (hsource : w.sourceCompleted = false)
    (h : w.Attached c bodies spare) (hfits : w.Fits) (hcalm : c.service.IsCalm)
    (hsize : ∀ b ∈ (bodies ++ w.committedBodies).dropLast, c.store.minPartSize ≤ b.size) :
    ∃ w' c', commit.execute w c = (.ok (), w', c') ∧ c.Leads c' := by
  obtain ⟨result, w', c', hrun, hleads, hcases⟩ := commit_of_attached hphase hsource h hfits
  rcases hcases with ⟨e, spare', -, -, hnot, -⟩ | ⟨-, ⟨rfl, -⟩ | ⟨e, -, hwhy⟩⟩
  · exact absurd hcalm hnot
  · exact ⟨w', c', hrun, hleads⟩
  · exact absurd hsize (hwhy hcalm)

theorem flushRelease_cases (h : w.Attached c bodies spare) (hfits : w.Fits) :
    ∃ result w₁ c₁ c', flush.execute w c = (result, w₁, c₁) ∧
      release.execute w₁ c₁ = (.ok (), { w₁ with slots := none }, c') ∧ c.Leads c' ∧
      (result = .ok () ∧
          { w₁ with slots := none } =
            { w with parts := Part.ofBodies (bodies ++ w.flushed), slots := none } ∧
          c'.store = w.storeHolding c (bodies ++ w.flushed ++ if w.flushed = [] then spare else []) ∨
        ∃ e, result = .error e ∧ w₁ = w ∧ ¬ c.service.IsCalm) := by
  obtain ⟨result, w₁, c₁, hflush, hleads, hcases⟩ := flush_flushed h hfits
  obtain ⟨c', hrelease, hservice, hcapacity⟩ := release_cases w₁ c₁
  have hstore' : c'.store = c₁.store := congrArg (·.service) hservice
  refine ⟨result, w₁, c₁, c', hflush, hrelease, ⟨hservice ▸ hleads.failsOnly,
    fun hc => hservice ▸ hleads.calm hc, hcapacity.trans hleads.capacity⟩, ?_⟩
  rcases hcases with ⟨rfl, ⟨slots, rfl, -⟩, hstore⟩ | ⟨e, spare', rfl, rfl, hcalm, -⟩
  · exact .inl ⟨rfl, rfl, hstore'.trans hstore⟩
  · exact .inr ⟨e, rfl, rfl, hcalm⟩

/-- A close of an upload in flight: the writer is finished, with what was staged sent, or without
it when that fails. -/
theorem close_of_attached (hphase : w.phase = .active) (h : w.Attached c bodies spare)
    (hfits : w.Fits) :
    ∃ result w' c', close.execute w c = (result, w', c') ∧ c.Leads c' ∧
      (result = .ok () ∧
          w' = { w with
            parts := Part.ofBodies (bodies ++ w.flushed)
            phase := .closed
            slots := none } ∧
          c'.store = w.storeHolding c (bodies ++ w.flushed ++ if w.flushed = [] then spare else []) ∨
        ∃ e, result = .error e ∧ w' = { w with phase := .closed, slots := none } ∧
          ¬ c.service.IsCalm) := by
  -- the report on an upload that was completed already changes neither the store nor the writer
  let reported : Context (Disturbed Store) := if w.sourceCompleted then
    { c with notices := c.notices ++ [.closedAfterRepair w.session.key w.session.uploadId] } else c
  have hservice : reported.service = c.service := by simp only [reported]; split <;> rfl
  have hpool : reported.pool = c.pool := by simp only [reported]; split <;> rfl
  have hstore : reported.store = c.store := congrArg (·.service) hservice
  have hleads : c.Leads reported :=
    ⟨hservice ▸ h.failsOnly, fun hc => hservice ▸ hc, congrArg (·.capacity) hpool⟩
  have hclosed : Attached { w with phase := .closed } reported bodies spare :=
    h.next hleads (by rw [hstore, h.storeHolding_self]) rfl h.parts h.spare
  obtain ⟨result, w₁, c₁, c', hflush, hrelease, hleads', hcases⟩ := flushRelease_cases hclosed
    (.mk hfits.ready_le hfits.pending_le hfits.inOrder)
  have hrun : close.execute w c =
      (result, { w₁ with slots := none },
        { c' with meters := c'.meters.addEnding .closed }) := by
    simp only [close, enter, countEnding, Writing.execute_bind, ensureActive_of_active hphase,
      Writing.execute_writer, Writing.execute_change]
    rcases hsource : w.sourceCompleted
    swap
    · simp only [reported, hsource, if_true] at hflush
      simp only [if_true, Writing.execute_bind, Writing.execute_ofRun, Run.execute_report,
        Writing.execute_attempt, hflush, hrelease, Run.execute_count]
      cases result <;> rfl
    · simp only [reported, hsource, Bool.false_eq_true, if_false] at hflush
      simp only [Bool.false_eq_true, if_false, Writing.execute_bind, Writing.execute_ofRun,
        Writing.execute_attempt, hflush, hrelease, Run.execute_count]
      cases result <;> rfl
  refine ⟨_, _, _, hrun, ⟨hleads'.failsOnly, fun hc => hleads'.calm (hleads.calm hc),
    hleads'.capacity.trans hleads.capacity⟩, ?_⟩
  rcases hcases with ⟨rfl, hw₁, hstore'⟩ | ⟨e, rfl, rfl, hcalm⟩
  · refine .inl ⟨rfl, hw₁, hstore'.trans ?_⟩
    rw [storeHolding, hstore]
    rfl
  · exact .inr ⟨e, rfl, rfl, fun hc => hcalm (hleads.calm hc)⟩

end Writer

end ResumableStorage
