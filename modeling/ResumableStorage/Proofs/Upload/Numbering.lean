/-
  ResumableStorage/Proofs/Upload/Numbering.lean
  =============================================
  **How high the numbers of parts go** — a writer sends each part under the number that
  follows those of the parts it has.  Nothing compares that number with the limit of the
  store: what keeps it below is the length of the stream.

  A run of calls is followed from the parts and the bytes that a writer goes on from,
  whether it repairs the old object or not.  This holds for every service, and also of
  calls that raise.
-/
import ResumableStorage.Proofs.Upload.Tallies

namespace ResumableStorage

namespace Writer

variable {σ : Type} [Service σ] {w w' w₁ : Writer} {c c' : Context σ} {base total count : Nat}
  {slots : Slots} {data : Bytes}

/-! ## 1. What a writer goes on from -/

/-- What stands in front of the bytes that a writer takes in: so many parts, and so many bytes that
are staged again. -/
structure Head where
  parts : Nat
  bytes : Nat

/-- A writer that has to replace its upload goes on from the object that it carries over: from the
one part that this was copied into, or from its bytes. -/
def head (w : Writer) : Head :=
  match w.repair with
  | .required _ =>
    match repairMode w.policy w.size with
    | .refetch => ⟨0, w.size.toNat⟩
    | .copy => ⟨1, 0⟩
  | _ => ⟨w.parts.length, 0⟩

theorem head_of_required {b : Bool} (h : w.repair = .required b) : w.head =
    match repairMode w.policy w.size with
    | .refetch => ⟨0, w.size.toNat⟩
    | .copy => ⟨1, 0⟩ := by
  rw [head, h]

theorem head_of_settled (h : ∀ b, w.repair ≠ .required b) : w.head = ⟨w.parts.length, 0⟩ := by
  rcases hw : w.repair with _ | b | _
  · rw [head, hw]
  · exact absurd hw (h b)
  · rw [head, hw]

/-- The number of the last part when a writer takes in `n` bytes. -/
def lastNumber (w : Writer) (n : Nat) : Nat :=
  w.policy.lastNumber w.head.parts (w.head.bytes + n)

theorem lastNumber_mono (w : Writer) {m n : Nat} (h : m ≤ n) : w.lastNumber m ≤ w.lastNumber n :=
  w.policy.lastNumber_mono _ (Nat.add_le_add_left h _)

theorem carryOver_parts {old new : Session} {size : Int} {mode : RepairMode} {parts : List Part}
    {content : Bytes}
    (hrun : (carryOver old new size mode).execute c = (.ok (parts, content), c')) :
    (mode = .refetch → parts = []) ∧ (mode = .copy → parts.length = 1) := by
  cases mode with
  | refetch =>
    obtain ⟨read, c₁, -, hpure⟩ := Run.execute_bind_eq_ok.mp hrun
    cases hpure
    exact ⟨fun _ => rfl, by simp⟩
  | copy =>
    obtain ⟨part, c₁, -, hpure⟩ := Run.execute_bind_eq_ok.mp hrun
    cases hpure
    exact ⟨by simp, fun _ => rfl⟩

theorem CarriesOver.parts {new : Session} {parts : List Part} {content : Bytes}
    {xs : List (Exchange σ)} (h : w.CarriesOver new (.ok (parts, content)) xs) :
    (repairMode w.policy w.size = .refetch → parts = []) ∧
      (repairMode w.policy w.size = .copy → parts.length = 1) := by
  obtain ⟨_, _, hrun, -⟩ := h
  exact carryOver_parts hrun

theorem replaceSession_parts (hrun : replaceSession.execute w c = (.ok (), w', c')) :
    (repairMode w.policy w.size = .refetch → w'.parts = []) ∧
      (repairMode w.policy w.size = .copy → w'.parts.length = 1 ∧ w'.slots = w.slots) := by
  obtain ⟨_, _, _, _, hrun', -, hstep, -⟩ := replaceSession_step w c
  rw [hrun] at hrun'
  cases hrun'
  cases hstep with
  | staged hmode hclosing hx hcarried =>
    exact ⟨hcarried.parts.1, by simp [hmode]⟩
  | copied hmode hclosing hx hcarried =>
    exact ⟨hcarried.parts.1, fun h => ⟨hcarried.parts.2 h, rfl⟩⟩

/-- After a repair that has failed the upload is still to be replaced. -/
theorem replaceSession_waits {e : Error} (hrun : replaceSession.execute w c = (.error e, w', c')) :
    w' = w ∨ w' = { w with repair := .required true } := by
  obtain ⟨_, _, _, _, hrun', -, hrepairs, -⟩ := replaceSession_repairs w c
  rw [hrun] at hrun'
  cases hrun'
  cases hrepairs with
  | notCompleted => exact .inl rfl
  | notStarted => exact .inr rfl
  | notCarried => exact .inr rfl

/-- A repair that has gone through leaves a writer that goes on from its head. -/
theorem replaceSession_tallied {b : Bool} (hrepair : w.repair = .required b)
    (hslots : w.slots = none) (hrun : replaceSession.execute w c = (.ok (), w', c')) :
    w'.Tallied w.head.parts w.head.bytes 0 ∧ ¬ w'.IsStuck ∧ w'.size = w.size ∧
      w'.policy = w.policy ∧ w'.repair = .done := by
  obtain ⟨_, _, _, _, hrun₁, -, haccounted⟩ := replaceSession_accounted hslots c
  obtain ⟨_, _, _, _, hrun₂, -, hrepairs, -⟩ := replaceSession_repairs w c
  rw [hrun] at hrun₁ hrun₂
  cases hrun₁
  cases hrun₂
  obtain ⟨hrefetched, hcopied⟩ := replaceSession_parts hrun
  obtain ⟨told, -, hrefetch, hsurplus, hsize, hdone, hfilled⟩ := haccounted.returned rfl
  have htallied := hfilled.tallied
  rw [List.length_map] at htallied
  have hpolicy : w'.policy = w.policy := by
    cases hrepairs with
    | replaced => rfl
  refine ⟨?_, hfilled.room, hsize, hpolicy, hdone⟩
  rw [head_of_required hrepair]
  cases hmode : repairMode w.policy w.size with
  | refetch =>
    have hparts := hrefetched hmode
    have hbytes : w'.staged.size = w.size.toNat := by
      have hnone : Part.totalSize [] = 0 := rfl
      rw [surplus, hsize, hrefetch hmode, hparts, hnone] at hsurplus
      omega
    rw [hparts, hbytes] at htallied
    exact htallied
  | copy =>
    obtain ⟨hlength, hsame⟩ := hcopied hmode
    rw [hlength, staged_of_none (hsame.trans hslots)] at htallied
    exact htallied

/-! ## 2. Calls -/

variable {w₀ : Writer} {op : Operation}

/-- A writer in use that started as `w₀`: its upload is still to be replaced, or it has taken in
`taken` bytes behind what it goes on from. -/
inductive Standing (w₀ w : Writer) : Prop
  | waiting {completed : Bool} (hrepair : w.repair = .required completed) (hslots : w.slots = none)
      (hpolicy : w.policy = w₀.policy) (hsize : w.size = w₀.size) (hparts : w.parts = w₀.parts)
      (hne : w₀.parts ≠ []) (hhead : w.head = w₀.head)
  | flowing {taken count : Nat} (hrepair : ∀ b, w.repair ≠ .required b)
      (hpolicy : w.policy = w₀.policy) (hsize : w.size = w₀.size + taken)
      (h : w.Tallied w₀.head.parts (w₀.head.bytes + taken) count)

/-- What a call asks, and what it makes of a writer that started as `w₀`: parts have numbers up to
that of the last one which the bytes make that were taken in, and after calls that return there is
room in the slots. -/
structure Numbers (w₀ w : Writer) (result : Except Error Unit) (w' : Writer)
    (xs : List (Exchange σ)) : Prop where
  size_le : w.size ≤ w'.size
  numbers : ∀ x ∈ xs, x.NumberedTo (w₀.lastNumber (w'.size - w₀.size).toNat)
  standing : w'.phase = .active → Standing w₀ w'
  room : result = .ok () → ¬ w.IsStuck → w'.phase = .active → ¬ w'.IsStuck

omit [Service σ] in
theorem Grows.numbers_of {taken more : Nat} {result : Except Error Unit} {xs : List (Exchange σ)}
    (h : w.Grows w₀.head.parts (w₀.head.bytes + taken) result w' xs more count)
    (hpolicy : w.policy = w₀.policy) (hsize : w.size = w₀.size + taken)
    (hrepair : ∀ b, w.repair ≠ .required b) : Numbers w₀ w result w' xs := by
  have hgrown := h.size
  have hnumbers := h.numbers
  have htallied := h.tallied
  have htotal : (w'.size - w₀.size).toNat = taken + more := by omega
  rw [Nat.add_assoc] at hnumbers htallied
  refine ⟨by omega, ?_, ?_, fun hok _ _ => h.room hok⟩
  · rw [lastNumber, htotal, ← hpolicy]
    exact hnumbers
  · intro _
    refine .flowing ?_ (h.policy.trans hpolicy) ?_ htallied
    · rw [h.advances.repair_eq]
      exact hrepair
    · omega

/-- What is taken in behind the head is sent under the numbers that it makes. -/
theorem takeIn_numbers {taken count : Nat}
    (h : w.Tallied w₀.head.parts (w₀.head.bytes + taken) count) (hpolicy : w.policy = w₀.policy)
    (hsize : w.size = w₀.size + taken) (hrepair : ∀ b, w.repair ≠ .required b)
    (hdata : data.size ≠ 0) (c : Context σ) :
    ∃ result w' c' xs,
      (takeIn data).execute w c = (result, w', c') ∧
        c.Asks c' xs ∧ Numbers w₀ w (result.map fun _ => ()) w' xs := by
  obtain ⟨result, w', c', xs, more, count', hfeed, hasks, hgrows⟩ := takeIn_grows h hdata c
  exact ⟨result, w', c', xs, hfeed, hasks, hgrows.numbers_of hpolicy hsize hrepair⟩

/-- A repair asks for one copy at most, which is the first part of the new upload. -/
theorem Accounted.numberedTo {result : Except Error Unit} {xs : List (Exchange σ)}
    (h : w.Accounted result w' xs) {limit : Nat} (hle : 1 ≤ limit) :
    ∀ x ∈ xs, x.NumberedTo limit := by
  intro x hx
  rcases h.asked x hx with (⟨parts, hr⟩ | hr | ⟨type, hr⟩) | ⟨new, -, hr | hr⟩
  · exact Exchange.numberedTo_of_kind (by simp [hr])
  · exact Exchange.numberedTo_of_kind (by simp [hr])
  · exact Exchange.numberedTo_of_kind (by simp [hr, Request.kind])
  · exact Exchange.CarriesTo.numberedTo hr hle
  · exact Exchange.numberedTo_of_kind (by simp [hr])

theorem Standing.write (h : Standing w₀ w) (hphase : w.phase = .active) (data : Bytes)
    (c : Context σ) :
    ∃ result w' c' xs, (Writer.write data).execute w c = (result, w', c') ∧ c.Asks c' xs ∧
      Numbers w₀ w (result.map fun _ => ()) w' xs := by
  by_cases hdata : data.size = 0
  · rw [write_of_empty hphase hdata]
    exact ⟨_, _, _, [], rfl, .refl c, le_refl _, by simp, fun _ => h, fun _ hroom _ => hroom⟩
  cases h with
  | flowing hrepair hpolicy hsize htallied =>
    rw [write_of_settled hphase hrepair hdata]
    exact takeIn_numbers htallied hpolicy hsize hrepair hdata c
  | waiting hrepair hslots hpolicy hsize hparts hne hhead =>
    rw [write_of_required hphase hrepair hdata, Writing.execute_bind]
    obtain ⟨repaired, w₁, c₁, xs, hreplace, hasks, haccounted⟩ := replaceSession_accounted hslots c
    have hcopied : ∀ n, ∀ x ∈ xs, x.NumberedTo (w₀.lastNumber n) := fun n =>
      haccounted.numberedTo (w₀.policy.one_le_lastNumber _ _)
    rw [hreplace]
    rcases repaired with e | ⟨⟩
    · have hstands : Standing w₀ w₁ ∧ w₁.size = w.size := by
        rcases replaceSession_waits hreplace with rfl | rfl
        · exact ⟨.waiting hrepair hslots hpolicy hsize hparts hne hhead, rfl⟩
        · refine ⟨.waiting rfl hslots hpolicy hsize hparts hne ?_, rfl⟩
          rw [← hhead, head_of_required hrepair, head_of_required rfl]
      refine ⟨_, _, _, xs, rfl, hasks, ?_, hcopied _, fun _ => hstands.1, by simp [Except.map]⟩
      rw [hstands.2]
    · obtain ⟨htallied, hempty, hsame, hkept, hdone⟩ :=
        replaceSession_tallied hrepair hslots hreplace
      rw [hhead] at htallied
      have htallied : w₁.Tallied w₀.head.parts (w₀.head.bytes + 0) 0 := htallied
      obtain ⟨result, w', c', ys, htake, hasks', hsize', hnumbers, hstanding, hroom⟩ :=
        takeIn_numbers htallied (hkept.trans hpolicy)
          (by rw [hsame, hsize]; simp) (by simp [hdone]) hdata c₁
      refine ⟨result, w', c', xs ++ ys, htake, hasks.trans hasks', by rwa [← hsame], ?_, hstanding,
        ?_⟩
      · intro x hx
        exact (List.mem_append.mp hx).elim (hcopied _ x) (hnumbers x)
      · intro hok _
        exact hroom hok hempty

theorem Standing.finish (h : Standing w₀ w) (hphase : w.phase = .active)
    (hop : ∀ data, op ≠ .write data) {result : Except Error Unit}
    (hrun : op.run.execute w c = (result, w', c')) :
    ∃ xs, c.Asks c' xs ∧ Numbers w₀ w result w' xs := by
  obtain ⟨hsize, hstays⟩ := finish_takes_nothing hphase hop hrun
  have hasking : op.run.Asking
      (fun x => x.NumberedTo (w₀.lastNumber (w.size - w₀.size).toNat)) w c := by
    cases h with
    | waiting hrepair hslots hpolicy hsize hparts hne hhead =>
      apply finish_asking_of_staged_empty hphase hop (staged_of_none hslots) (by rwa [hparts])
      exact fun x hx => Exchange.numberedTo_of_kind hx
    | @flowing taken count hrepair hpolicy hsize htallied =>
      have htaken : (w.size - w₀.size).toNat = taken := by omega
      have hnext : w.staged ≠ ByteArray.empty ∨ w.parts = [] →
          w.parts.length + 1 ≤ w₀.lastNumber (w.size - w₀.size).toNat := by
        rintro (hstaged | hempty)
        · rw [htaken, lastNumber, ← hpolicy]
          exact htallied.next_le hstaged
        · rw [hempty]
          exact w₀.policy.one_le_lastNumber _ _
      apply finish_asking hphase hop (sendRest_asking w c hnext)
      · intro c₁ _
        exact flush_asking { w with phase := .closed } c₁ fun hstaged => hnext (.inl hstaged)
      · exact fun x hx => Exchange.numberedTo_of_kind hx
  rw [Writing.Asking, hrun] at hasking
  obtain ⟨xs, hasks, hnumbers⟩ := hasking
  refine ⟨xs, hasks, by omega, by rwa [hsize], ?_, ?_⟩
  · intro hactive
    rwa [hstays hactive]
  · intro _ hroom hactive
    rwa [hstays hactive]

theorem Standing.call (h : Standing w₀ w) (hphase : w.phase = .active) (op : Operation)
    {result : Except Error Unit} (hrun : op.run.execute w c = (result, w', c')) :
    ∃ xs, c.Asks c' xs ∧ Numbers w₀ w result w' xs := by
  by_cases hop : ∃ data, op = .write data
  · obtain ⟨data, rfl⟩ := hop
    obtain ⟨count, w₁, c₁, xs, hwrite, hasks, hnumbers⟩ := h.write hphase data c
    rw [Operation.run, Writing.execute_discard, hwrite] at hrun
    cases hrun
    exact ⟨xs, hasks, hnumbers⟩
  · rw [not_exists] at hop
    exact h.finish hphase hop hrun

/-- A commit sends the last part when bytes were taken in and there is room in the slots, or when
there would be no part at all. -/
theorem Standing.commit_last (h : Standing w₀ w) (hphase : w.phase = .active)
    (hroom : ¬ w.IsStuck) (hhead : w₀.parts = [] → w₀.head.parts = 0)
    (htaken : w.size ≠ w₀.size ∨ w₀.parts = []) (c : Context σ) :
    ∃ xs, c.Asks (commit.execute w c).2.2 xs ∧ ∃ x ∈ xs, x.request.Stores w.session.uploadId
      (w₀.lastNumber (w.size - w₀.size).toNat) := by
  cases h with
  | waiting hrepair hslots hpolicy hsize hparts hne hhead =>
    exact absurd htaken (by simp [hsize, hne])
  | @flowing taken count hrepair hpolicy hsize htallied =>
    have htotal : (w.size - w₀.size).toNat = taken := by omega
    have hsource : w.sourceCompleted = false := by simp [sourceCompleted, hrepair true]
    have hrest : w.staged ≠ ByteArray.empty ∨ w.parts = [] := by
      by_contra hnot
      rw [not_or, not_not] at hnot
      obtain ⟨hstaged, hparts⟩ := hnot
      have hnone := congrArg ByteArray.size hstaged
      have hsum := htallied.total_eq
      rw [hnone, ByteArray.size_empty, Nat.add_zero] at hsum
      rw [staged_size, ByteArray.size_empty] at hnone
      have hcount : count = 0 := by
        by_contra hcount
        have hready := htallied.ready hcount
        have hpos := w.policy.chunk_pos
        omega
      rw [hcount, Nat.zero_mul] at hsum
      have hlength := htallied.length
      rw [hcount, hhead (htaken.resolve_left (not_not_intro (by omega)))] at hlength
      exact hparts (List.length_eq_zero_iff.mp hlength)
    rw [htotal, lastNumber, ← hpolicy, ← htallied.next_eq hroom]
    exact commit_asks_next hphase hsource hrest c

/-! ## 3. Runs -/

/-- The writer that turns lead to, each of them made in any context. -/
inductive Course (w₀ : Writer) : List (Turn σ) → Writer → Prop
  | start : Course w₀ [] w₀
  | call {turns : List (Turn σ)} (turn : Turn σ) (h : Course w₀ turns turn.writer) :
      Course w₀ (turns ++ [turn]) turn.writerAfter

variable {turns : List (Turn σ)}

/-- The inversion of a turn for the numbers of the parts that it sends. -/
theorem Standing.turn {turn : Turn σ} (h : Standing w₀ turn.writer)
    (hphase : turn.writer.phase = .active) :
    Numbers w₀ turn.writer turn.result turn.writerAfter turn.exchanges := by
  obtain ⟨xs, hasks, hnumbers⟩ := h.call hphase turn.operation turn.run_eq
  rwa [Turn.exchanges, hasks.exchanges_eq]

theorem Course.standing (h : Course w₀ turns w) (hstart : Standing w₀ w₀) :
    (w.phase = .active → Standing w₀ w) ∧ ∀ turn ∈ turns, ∀ x ∈ turn.exchanges,
      x.NumberedTo (w₀.lastNumber (w.size - w₀.size).toNat) := by
  induction h with
  | start => exact ⟨fun _ => hstart, by simp⟩
  | @call turns turn h ih =>
    obtain ⟨hstanding, hearlier⟩ := ih
    by_cases hphase : turn.writer.phase = .active
    · obtain ⟨hle, hnumbers, hstays, -⟩ := (hstanding hphase).turn hphase
      refine ⟨hstays, ?_⟩
      intro t ht x hx
      rcases List.mem_append.mp ht with ht | ht
      · apply (hearlier t ht x hx).mono
        apply w₀.lastNumber_mono
        omega
      · rw [List.mem_singleton.mp ht] at hx
        exact hnumbers x hx
    · obtain ⟨hwriter, -, hnothing⟩ := Turn.of_finished hphase
      rw [hwriter]
      refine ⟨hstanding, ?_⟩
      intro t ht x hx
      rcases List.mem_append.mp ht with ht | ht
      · exact hearlier t ht x hx
      · rw [List.mem_singleton.mp ht, hnothing] at hx
        cases hx

/-- A writer that was not called yet. -/
structure Fresh (w : Writer) : Prop where
  phase : w.phase = .active
  standing : Standing w w
  room : ¬ w.IsStuck
  head : w.parts = [] → w.head.parts = 0

theorem fresh_ofSession (policy : Policy) (session : Session) (parts : List Part) :
    (ofSession policy session parts).Fresh := by
  have hpos := policy.chunk_pos
  have hroom : ¬ (ofSession policy session parts).IsStuck := by
    intro hstuck
    have hzero : (0 : Nat) = policy.chunk := hstuck
    omega
  cases hrepair : (ofSession policy session parts).repair with
  | required b =>
    have hne : parts ≠ [] := by
      rintro rfl
      cases hrepair
    exact ⟨rfl, .waiting hrepair rfl rfl rfl rfl hne rfl, hroom, fun hempty => absurd hempty hne⟩
  | notNeeded =>
    have hsettled : ∀ b, (ofSession policy session parts).repair ≠ .required b := by
      simp [hrepair]
    have hhead := head_of_settled hsettled
    have htallied : (ofSession policy session parts).Tallied
        (ofSession policy session parts).head.parts
        ((ofSession policy session parts).head.bytes + 0) 0 := by
      rw [hhead]
      exact ⟨.of_empty (Nat.zero_le _) rfl, rfl, by simp [staged_of_none (w := ofSession ..) rfl],
        fun hne => absurd rfl hne⟩
    refine ⟨rfl, .flowing hsettled rfl (by simp) htallied, hroom, ?_⟩
    intro hempty
    rw [hhead, hempty]
    rfl
  | done =>
    have hnot : ∀ tooSmall : Bool,
        (if tooSmall then Repair.required false else .notNeeded) ≠ .done := by decide
    exact absurd hrepair (hnot _)

/-- When all calls return and the last is a commit, the last part is sent. -/
theorem Course.sends_last (h : Course w₀ turns w) (hfresh : w₀.Fresh)
    (hok : ∀ turn ∈ turns, turn.result = .ok ()) :
    (w.phase = .active → ¬ w.IsStuck) ∧
      (w.phase = .committed → (w.size ≠ w₀.size ∨ w₀.parts = []) →
        ∃ turn ∈ turns, ∃ x ∈ turn.exchanges, ∃ id,
          x.request.Stores id (w₀.lastNumber (w.size - w₀.size).toNat)) := by
  induction h with
  | start =>
    refine ⟨fun _ => hfresh.room, fun hcommitted => ?_⟩
    rw [hfresh.phase] at hcommitted
    cases hcommitted
  | @call turns turn h ih =>
    have hreturned : turn.result = .ok () := hok turn (by simp)
    obtain ⟨hroom, -⟩ := ih fun t ht => hok t (by simp [ht])
    have hphase : turn.writer.phase = .active := by
      by_contra hfinished
      rw [Turn.result, Turn.outcome, run_of_finished hfinished] at hreturned
      cases hreturned
    have hstanding := (h.standing hfresh.standing).1 hphase
    refine ⟨(hstanding.turn hphase).room hreturned (hroom hphase), ?_⟩
    intro hcommitted htaken
    obtain ⟨op, w₁, c₁⟩ := turn
    obtain rfl : op = .commit :=
      ((Turn.step hphase).2.committed_iff hphase (by rw [hreturned]; rfl)).mp hcommitted
    have hsize := (finish_takes_nothing hphase (by simp) (Turn.mk .commit w₁ c₁).run_eq).1
    rw [hsize] at htaken ⊢
    obtain ⟨xs, hasks, x, hx, hstores⟩ :=
      hstanding.commit_last hphase (hroom hphase) hfresh.head htaken c₁
    refine ⟨⟨.commit, w₁, c₁⟩, by simp, x, ?_, _, hstores⟩
    have hexchanges : (Turn.mk .commit w₁ c₁).exchanges = xs := hasks.exchanges_eq
    rwa [hexchanges]

/-- The numbers of the parts that a writer sends, whatever the service answers and whether calls
return or raise: from one to that of the last part which the bytes make that were taken in.

When all calls return and the last is a commit, that last part is sent, unless the writer had parts
and has taken in nothing.  So no number is above the limit of the store just when the stream is cut
into few enough parts; nothing else keeps a number below it. -/
theorem Course.part_numbers {policy : Policy} {session : Session} {parts : List Part}
    (h : Course (ofSession policy session parts) turns w) :
    (∀ turn ∈ turns, ∀ x ∈ turn.exchanges, x.NumberedTo
        ((ofSession policy session parts).lastNumber (w.size - Part.totalSize parts).toNat)) ∧
      ((∀ turn ∈ turns, turn.result = .ok ()) → w.phase = .committed →
        (w.size ≠ Part.totalSize parts ∨ parts = []) →
        ((∀ turn ∈ turns, ∀ x ∈ turn.exchanges, x.NumberedTo partNumberLimit) ↔
          (ofSession policy session parts).lastNumber (w.size - Part.totalSize parts).toNat ≤
            partNumberLimit)) := by
  have hfresh := fresh_ofSession policy session parts
  have hnumbers := (h.standing hfresh.standing).2
  refine ⟨hnumbers, ?_⟩
  intro hok hcommitted htaken
  constructor
  · intro hlimit
    obtain ⟨turn, hturn, x, hx, id, hstores⟩ := (h.sends_last hfresh hok).2 hcommitted htaken
    have hle := (hlimit turn hturn x hx id _ hstores).2
    exact_mod_cast hle
  · intro hle turn hturn x hx
    exact (hnumbers turn hturn x hx).mono hle

namespace Sample

def onePart : Keyed Int Bytes := Part.table [longPart]

theorem appended_course :
    Course (resumedOn onePart) [appending onePart, commitAfter onePart]
      (commitAfter onePart).writerAfter :=
  (Course.start.call (appending onePart)).call (commitAfter onePart)

end Sample

/-- Eight bytes behind one part make the parts two and three. -/
theorem appended_parts_end_with_three :
    (∀ turn ∈ [Sample.appending Sample.onePart, Sample.commitAfter Sample.onePart],
        turn.result = .ok ()) ∧
      (Sample.commitAfter Sample.onePart).writerAfter.size = 12 ∧
      (Sample.resumedOn Sample.onePart).lastNumber 8 = 3 ∧
      ∀ turn ∈ [Sample.appending Sample.onePart, Sample.commitAfter Sample.onePart],
        ∀ x ∈ turn.exchanges, x.NumberedTo partNumberLimit := by
  have hwritten : (Sample.appending Sample.onePart).result.isOk = true := by decide +kernel
  have hcommitted : (Sample.commitAfter Sample.onePart).result = .ok () :=
    Sample.commitAfter_returns
  have hok : ∀ turn ∈ [Sample.appending Sample.onePart, Sample.commitAfter Sample.onePart],
      turn.result = .ok () := by
    rcases hresult : (Sample.appending Sample.onePart).result with e | ⟨⟩
    · rw [hresult] at hwritten
      cases hwritten
    · simp [hresult, hcommitted]
  have hactive : (Sample.commitAfter Sample.onePart).writer.phase = .active := by decide +kernel
  have hsize : (Sample.commitAfter Sample.onePart).writerAfter.size = 12 := by
    rw [(finish_takes_nothing hactive (by simp [Sample.commitAfter]) (Turn.run_eq _)).1]
    decide +kernel
  have hphase : (Sample.commitAfter Sample.onePart).writerAfter.phase = .committed :=
    ((Turn.step hactive).2.committed_iff hactive (by rw [hcommitted]; rfl)).mpr rfl
  have hlast : (Sample.resumedOn Sample.onePart).lastNumber 8 = 3 := by decide +kernel
  obtain ⟨-, hlimit⟩ := Course.part_numbers Sample.appended_course
  have htotal : Part.totalSize (Part.ofTable Sample.onePart) = 4 := by decide +kernel
  refine ⟨hok, hsize, hlast, ?_⟩
  rw [hlimit hok hphase (.inl (by rw [hsize, htotal]; decide)), hsize, htotal]
  exact hlast.le.trans (by decide)

/-! ## 4. A stream of more parts than the store takes -/

/-- A write that makes both slots full sends the first of them under the next number. -/
theorem takeIn_asks_next (hfits : w.Fits) (hne : data.size ≠ 0)
    (hfull : 2 * w.policy.chunk ≤ w.staged.size + data.size) (c : Context σ) :
    ∃ xs, c.Asks ((takeIn data).execute w c).2.2 xs ∧
      ∃ x ∈ xs, x.request.Stores w.session.uploadId (w.parts.length + 1) := by
  obtain ⟨slots, c₁, hborrow, hasks, hready, hpending⟩ := borrow_asks w c
  have hfilled : (slots.fill w.policy.chunk data 0).1.pending.isFull w.policy.chunk = true := by
    have hsize := Slots.fill_pending_size slots w.policy.chunk data 0
    have hle₁ := hfits.ready_le
    have hle₂ := hfits.pending_le
    rw [staged_size] at hfull
    rw [Slot.isFull, decide_eq_true_eq, hsize, hready, hpending]
    omega
  have hstaged : c₁.Asks { c₁ with pool := c₁.pool.putBoth slots w.policy.chunk data 0 } [] :=
    .nothing rfl rfl
  simp only [takeIn, Writing.execute_bind, hborrow, Writing.execute_writer]
  rw [feed_execute_of_full (by omega) hfilled, Writing.execute_bind]
  replace hasks := hasks.trans hstaged
  generalize { c₁ with pool := c₁.pool.putBoth slots w.policy.chunk data 0 } = c₂ at hasks
  have hsend := sendPart_exchange { w with
    slots := some (slots.fill w.policy.chunk data 0).1
    size := w.size + (slots.fill w.policy.chunk data 0).2 } c₂
    (slots.fill w.policy.chunk data 0).1.ready.held
  rcases hsent : (sendPart (slots.fill w.policy.chunk data 0).1.ready.held).execute { w with
    slots := some (slots.fill w.policy.chunk data 0).1
    size := w.size + (slots.fill w.policy.chunk data 0).2 } c₂ with ⟨e | ⟨⟩, w₂, c₃⟩ <;>
    rw [hsent] at hsend
  · exact ⟨_, hasks.trans hsend, _, List.mem_append_right _ (List.mem_singleton_self _),
      .inl ⟨_, _, _, rfl⟩⟩
  · obtain ⟨ys, hrest, -⟩ := sendsParts_sending.feed w.policy data
      (slots.fill w.policy.chunk data 0).1.shift (0 + (slots.fill w.policy.chunk data 0).2)
      { w₂ with slots := some (slots.fill w.policy.chunk data 0).1.shift } c₃
    exact ⟨_, (hasks.trans hsend).trans hrest, _,
      List.mem_append_left _ (List.mem_append_right _ (List.mem_singleton_self _)),
      .inl ⟨_, _, _, rfl⟩⟩

theorem write_asks_next (hphase : w.phase = .active) (hrepair : ∀ b, w.repair ≠ .required b)
    (hfits : w.Fits) (hne : data.size ≠ 0)
    (hfull : 2 * w.policy.chunk ≤ w.staged.size + data.size) (c : Context σ) :
    ∃ x ∈ (Turn.mk (.write data) w c).exchanges,
      x.request.Stores w.session.uploadId (w.parts.length + 1) := by
  obtain ⟨xs, hasks, x, hx, hstores⟩ := takeIn_asks_next hfits hne hfull c
  have hasked : c.Asks (Turn.mk (.write data) w c).contextAfter xs := by
    simp only [Turn.contextAfter, Turn.outcome, Operation.run, Writing.execute_discard,
      write_of_settled hphase hrepair hne]
    exact hasks
  have hexchanges : (Turn.mk (.write data) w c).exchanges = xs := hasked.exchanges_eq
  exact ⟨x, by rwa [hexchanges], hstores⟩

namespace Sample

/-- Parts of one byte are taken, and made. -/
def bytewise : Policy := ⟨1, 1, by decide, by decide⟩

def tenThousand : List Bytes := List.replicate 10000 shortPart

/-- A writer that was resumed on as many parts as the store takes. -/
def atLimit : Writer := ofSession bytewise ⟨"u1", "bucket", "a"⟩ (Part.ofBodies tenThousand)

theorem atLimit_parts : atLimit.parts.length = 10000 := by
  rw [show atLimit.parts = Part.ofBodies tenThousand from rfl, Part.length_ofBodies, tenThousand,
    List.length_replicate]

theorem atLimit_settled (b : Bool) : atLimit.repair ≠ .required b := by
  have hlast : ∃ last, (Part.ofBodies tenThousand).getLast? = some last ∧ last.size = 1 := by
    refine ⟨⟨(List.replicate 9999 shortPart).length + 1, Store.tag shortPart, shortPart.size⟩, ?_,
      rfl⟩
    rw [tenThousand, List.replicate_succ', Part.ofBodies_append_singleton, List.getLast?_concat]
  obtain ⟨last, hlast, hsize⟩ := hlast
  simp [atLimit, ofSession, hlast, hsize, bytewise]

def pastLimit : Turn (Disturbed Store) :=
  ⟨.write twoBytes, atLimit,
    { calmContext (Part.table tenThousand) with pool := ⟨1, by decide, none, [], #[]⟩ }⟩

end Sample

/-- The part that follows the last one which the store takes is sent. -/
theorem part_number_past_limit :
    ∃ x ∈ Sample.pastLimit.exchanges, x.request.Stores "u1" 10001 ∧
      ¬ x.NumberedTo partNumberLimit := by
  have hdata : Sample.twoBytes.size = 2 := by decide
  have hchunk : Sample.atLimit.policy.chunk = 1 := rfl
  have hne : Sample.twoBytes.size ≠ 0 := by omega
  have hfits : Sample.atLimit.Fits := .of_empty (Nat.zero_le _) rfl
  obtain ⟨x, hx, hstores⟩ := write_asks_next rfl Sample.atLimit_settled hfits hne (by omega)
    Sample.pastLimit.context
  rw [Sample.atLimit_parts] at hstores
  refine ⟨x, hx, hstores, ?_⟩
  intro hlimit
  exact absurd (hlimit _ _ hstores).2 (by decide)

end Writer

end ResumableStorage
