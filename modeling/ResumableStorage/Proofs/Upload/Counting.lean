/-
  ResumableStorage/Proofs/Upload/Counting.lean
  ============================================
  **What a call counts** — each part whose upload has returned, with its bytes; a repair,
  when one has been made; and an ending, when the call has finished the writer.  Nothing
  else is counted, and nothing twice, whatever the service answers and wherever the call
  fails.

  The counters are kept by the steps of a call, and some of them only on one of the ways
  in which it can end.  So a step is known by what it adds to them, and a call by the sum.
-/
import ResumableStorage.Proofs.Client.Lookups
import ResumableStorage.Proofs.Upload.Steps

namespace ResumableStorage

/-! ## 1. Counters -/

namespace Meters

/-- Repairs, whichever way they were made. -/
def repaired (m : Meters) : Nat :=
  m.repairs .refetch + m.repairs .copy

/-- Writers that were finished, whichever way they ended. -/
def finished (m : Meters) : Nat :=
  m.endings .closed + m.endings .committed + m.endings .commitFailed + m.endings .cancelled

/-- The counters have grown by parts of these sizes, by repairs, and by these endings. -/
structure Grows (m m' : Meters) (sizes : List Nat) (repairs : Nat) (ended : List Ending) :
    Prop where
  parts : m'.parts = m.parts + sizes.length
  partBytes : m'.partBytes = m.partBytes + sizes.sum
  repaired : m'.repaired = m.repaired + repairs
  endings : ∀ e, m'.endings e = m.endings e + ended.count e

variable {m m₁ m' : Meters} {sizes sizes' : List Nat} {repairs repairs' : Nat}
  {ended ended' : List Ending}

theorem Grows.refl (m : Meters) : m.Grows m [] 0 [] :=
  ⟨rfl, rfl, rfl, fun _ => rfl⟩

theorem Grows.trans (h : m.Grows m₁ sizes repairs ended) (h' : m₁.Grows m' sizes' repairs' ended') :
    m.Grows m' (sizes ++ sizes') (repairs + repairs') (ended ++ ended') := by
  refine ⟨?_, ?_, ?_, ?_⟩
  · rw [h'.parts, h.parts, List.length_append, Nat.add_assoc]
  · rw [h'.partBytes, h.partBytes, List.sum_append, Nat.add_assoc]
  · rw [h'.repaired, h.repaired, Nat.add_assoc]
  · intro e
    rw [h'.endings, h.endings, List.count_append, Nat.add_assoc]

theorem grows_addPart (m : Meters) (size : Nat) : m.Grows (m.addPart size) [size] 0 [] :=
  ⟨rfl, rfl, rfl, fun _ => rfl⟩

theorem grows_addRepair (m : Meters) (mode : RepairMode) : m.Grows (m.addRepair mode) [] 1 [] := by
  refine ⟨by cases mode <;> rfl, by cases mode <;> rfl, ?_, fun _ => by cases mode <;> rfl⟩
  cases mode <;> simp only [repaired, Meters.repairs, addRepair] <;> omega

theorem grows_addEnding (m : Meters) (e : Ending) : m.Grows (m.addEnding e) [] 0 [e] := by
  refine ⟨by cases e <;> rfl, by cases e <;> rfl, by cases e <;> rfl, ?_⟩
  intro e'
  cases e <;> cases e' <;> rfl

/-- Each ending is counted as one of the four. -/
theorem Grows.finished (h : m.Grows m' sizes repairs ended) :
    m'.finished = m.finished + ended.length := by
  have hcount : ∀ l : List Ending, l.length = l.count .closed + l.count .committed +
      l.count .commitFailed + l.count .cancelled := by
    intro l
    induction l with
    | nil => rfl
    | cons e rest ih => cases e <;> simp [ih] <;> omega
  have hended := hcount ended
  simp only [Meters.finished, h.endings]
  omega

end Meters

/-- The ending that is counted when a call leaves a writer in a phase. -/
def Phase.ending? (returned : Bool) : Phase → Option Ending
  | .active => none
  | .closed => some .closed
  | .committed => some (if returned then .committed else .commitFailed)
  | .cancelled => some .cancelled

variable {σ α β : Type} [Service σ]

/-! ## 2. Exchanges -/

namespace Exchange

/-- The size of the part that the exchange has uploaded, if it is the upload of one and has
returned. -/
def uploaded? (x : Exchange σ) : Option Nat :=
  match x.request with
  | .uploadPart _ _ _ number body =>
    if (x.decoded .uploadPart (Part.ofAnswer number body.size)).isOk then some body.size else none
  | _ => none

theorem uploaded?_of_kind {x : Exchange σ} (h : x.request.kind ≠ .uploadPart) :
    x.uploaded? = none := by
  rcases x with ⟨r, s⟩
  cases r <;> first | rfl | exact absurd rfl h

end Exchange

/-- It is the client's call that returns or not. -/
theorem Client.uploaded?_uploadPart (s : Session) (number : Int) (body : Bytes) (c : Context σ) :
    (c.exchange (.uploadPart s.bucket s.key s.uploadId number body)).uploaded? =
      if ((uploadPart s number body).execute c).1.isOk then some body.size else none := by
  rw [uploadPart_decodes s number body c]
  rfl

namespace Context

/-- Of what was asked in between, the parts whose upload has returned were counted; besides them
repairs and endings. -/
def Counts (c c' : Context σ) (repairs : Nat) (ended : List Ending) : Prop :=
  ∃ xs, c.Asks c' xs ∧ c.meters.Grows c'.meters (xs.filterMap Exchange.uploaded?) repairs ended

variable {c c₁ c' : Context σ} {repairs repairs' : Nat} {ended ended' : List Ending}

theorem Counts.nothing (htrace : c'.trace = c.trace) (hservice : c'.service = c.service)
    (hmeters : c'.meters = c.meters) : c.Counts c' 0 [] :=
  ⟨[], .nothing htrace hservice, by rw [hmeters]; exact .refl c.meters⟩

theorem Counts.refl (c : Context σ) : c.Counts c 0 [] := .nothing rfl rfl rfl

theorem Counts.trans (h : c.Counts c₁ repairs ended) (h' : c₁.Counts c' repairs' ended') :
    c.Counts c' (repairs + repairs') (ended ++ ended') := by
  obtain ⟨xs, hasks, hgrows⟩ := h
  obtain ⟨ys, hasks', hgrows'⟩ := h'
  refine ⟨xs ++ ys, hasks.trans hasks', ?_⟩
  rw [List.filterMap_append]
  exact hgrows.trans hgrows'

/-- What comes before counts its parts only. -/
theorem Counts.after (h' : c₁.Counts c' repairs ended) (h : c.Counts c₁ 0 []) :
    c.Counts c' repairs ended := by
  simpa using h.trans h'

/-- What comes behind counts its parts only. -/
theorem Counts.before (h : c.Counts c₁ repairs ended) (h' : c₁.Counts c' 0 []) :
    c.Counts c' repairs ended := by
  simpa using h.trans h'

theorem counts_repair (c : Context σ) (mode : RepairMode) :
    c.Counts { c with meters := c.meters.addRepair mode } 1 [] :=
  ⟨[], .nothing rfl rfl, c.meters.grows_addRepair mode⟩

theorem counts_ending (c : Context σ) (e : Ending) :
    c.Counts { c with meters := c.meters.addEnding e } 0 [e] :=
  ⟨[], .nothing rfl rfl, c.meters.grows_addEnding e⟩

end Context

/-- A run that asks for no part, and leaves the counters alone, counts all there is to count. -/
theorem Run.Quiet.counts {x : Run σ α} {p : Request → Prop} (h : x.Quiet p)
    (hp : ∀ r, p r → r.kind ≠ .uploadPart) (c : Context σ) : c.Counts (x.execute c).2 0 [] := by
  obtain ⟨xs, hasks, -, hmeters, hall⟩ := h c
  refine ⟨xs, hasks, ?_⟩
  have hnone : xs.filterMap Exchange.uploaded? = [] := by
    rw [List.filterMap_eq_nil_iff]
    intro x hx
    exact Exchange.uploaded?_of_kind (hp _ (hall x hx))
  rw [hnone, hmeters]
  exact .refl c.meters

/-! ## 3. Steps that count parts only -/

namespace Writing

/-- The parts whose upload has returned are counted, and nothing else is. -/
def CountsParts (x : Writing σ α) : Prop :=
  ∀ (w : Writer) (c : Context σ), c.Counts (x.execute w c).2.2 0 []

variable {x : Writing σ α}

theorem countsParts_pure (a : α) : (pure a : Writing σ α).CountsParts := fun _ c => .refl c

theorem countsParts_writer : (writer : Writing σ Writer).CountsParts := fun _ c => .refl c

theorem countsParts_change (f : Writer → Writer) : (change f : Writing σ Unit).CountsParts :=
  fun _ c => .refl c

theorem countsParts_onPool (f : Pool → Pool) : (onPool f : Writing σ Unit).CountsParts :=
  fun _ _ => .nothing rfl rfl rfl

theorem countsParts_ofRun {x : Run σ α} {p : Request → Prop} (h : x.Quiet p)
    (hp : ∀ r, p r → r.kind ≠ .uploadPart) : (ofRun x).CountsParts :=
  fun _ c => h.counts hp c

theorem CountsParts.bind {f : α → Writing σ β} (hx : x.CountsParts) (hf : ∀ a, (f a).CountsParts) :
    (x >>= f).CountsParts := by
  intro w c
  have hfirst := hx w c
  rw [execute_bind]
  rcases hrun : x.execute w c with ⟨e | a, w₁, c₁⟩ <;> rw [hrun] at hfirst
  · exact hfirst
  · exact (hf a w₁ c₁).after hfirst

theorem CountsParts.discard (hx : x.CountsParts) : (Functor.discard x).CountsParts := by
  intro w c
  rw [execute_discard]
  exact hx w c

end Writing

namespace Writer

open Writing

theorem sendPart_countsParts (body : Bytes) : (sendPart body : Writing σ Unit).CountsParts := by
  intro w c
  have hsize := Client.uploaded?_uploadPart w.session (w.parts.length + 1) body c
  have hrun := Client.uploadPart_decodes w.session (w.parts.length + 1) body c
  have hasks := c.asks_asked
    (.uploadPart w.session.bucket w.session.key w.session.uploadId (w.parts.length + 1) body)
  simp only [sendPart, Writing.execute_bind, Writing.execute_writer, Writing.execute_ofRun]
  rcases hpart : (Client.uploadPart w.session (w.parts.length + 1) body).execute c
    with ⟨e | part, c₁⟩ <;> rw [hpart] at hsize <;> rw [hpart, Prod.mk.injEq] at hrun <;>
    rw [← hrun.2] at hasks
  · refine ⟨_, hasks, ?_⟩
    rw [List.filterMap_cons_none hsize, hrun.2]
    exact .refl _
  · refine ⟨_, hasks.then_nothing rfl rfl, ?_⟩
    rw [List.filterMap_cons_some hsize, hrun.2]
    exact c.meters.grows_addPart body.size

theorem borrow_countsParts : (borrow : Writing σ Slots).CountsParts := by
  intro w c
  simp only [borrow, Writing.execute_bind, Writing.execute_writer]
  rcases w.slots with _ | slots
  · exact .nothing rfl rfl rfl
  · exact .refl c

theorem release_countsParts : (release : Writing σ Unit).CountsParts := by
  intro w c
  simp only [release, Writing.execute_modify]
  split
  · exact .refl c
  · exact .nothing rfl rfl rfl

theorem countsParts_sending : Sending (σ := σ) (fun x => x.CountsParts) where
  pure := countsParts_pure
  bind hx hf := hx.bind hf
  writer := countsParts_writer
  stage _ := countsParts_change _
  onPool _ := countsParts_onPool _
  borrow := borrow_countsParts
  sendPart := sendPart_countsParts

/-! ## 4. Repairs -/

end Writer

namespace Writing

/-- A repair is counted besides the parts when the run returns, and none when it raises. -/
def CountsRepair (x : Writing σ α) : Prop :=
  ∀ (w : Writer) (c : Context σ),
    c.Counts (x.execute w c).2.2 (x.execute w c).1.isOk.toNat []

theorem CountsParts.then_repair {x : Writing σ α} {f : α → Writing σ β} (hx : x.CountsParts)
    (hf : ∀ a, (f a).CountsRepair) : (x >>= f).CountsRepair := by
  intro w c
  have hfirst := hx w c
  rw [execute_bind]
  rcases hrun : x.execute w c with ⟨e | a, w₁, c₁⟩ <;> rw [hrun] at hfirst
  · exact hfirst
  · exact (hf a w₁ c₁).after hfirst

end Writing

namespace Writer

open Writing

theorem abortion_not_uploadPart (s : Session) : s.abortion.kind ≠ .uploadPart := by
  simp [Session.abortion, Request.kind]

theorem completeUpload_quiet (s : Session) (parts : List Part) :
    (Client.completeUpload s parts : Run σ String).Quiet (·.kind ≠ .uploadPart) :=
  (Client.completeUpload_decodes s parts).quiet (by simp [Session.completion, Request.kind])

theorem carries_not_uploadPart (r : Request) (h : r.Carries) : r.kind ≠ .uploadPart := by
  rcases h with h | h | h <;> rw [h] <;> decide

theorem completeSource_countsParts : (completeSource : Writing σ Unit).CountsParts := by
  apply countsParts_writer.bind
  intro w
  split
  · have hcomplete := orAbort_quiet (abortion_not_uploadPart w.session)
      (completeUpload_quiet (σ := σ) w.session w.parts)
    exact (countsParts_ofRun hcomplete fun _ h => h).discard.bind fun _ => countsParts_change _
  · exact countsParts_pure ()

/-- A repair is counted behind its last request, when nothing can fail any more. -/
theorem replaceSession_countsRepair : (replaceSession : Writing σ Unit).CountsRepair := by
  apply completeSource_countsParts.then_repair
  intro _
  apply countsParts_writer.then_repair
  intro w
  have hcreate := (Client.createUpload_decodes (σ := σ) w.session.bucket w.session.key
    opaqueContent).quiet (p := (·.kind ≠ .uploadPart)) (by simp [Request.kind])
  apply (countsParts_ofRun hcreate fun _ h => h).then_repair
  intro new
  generalize repairMode w.policy w.size = mode
  have hcarry := orAbort_quiet (abortion_not_uploadPart new)
    ((carryOver_quiet (σ := σ) w.session new w.size mode).mono carries_not_uploadPart)
  apply (countsParts_ofRun hcarry fun _ h => h).then_repair
  rintro ⟨parts, content⟩
  have hcount : (do
      ofRun (Run.count (·.addRepair mode))
      ofRun (Run.report (.replaced w.session.key w.session.uploadId new.uploadId mode w.size)) :
        Writing σ Unit).CountsRepair := by
    intro w₁ c
    exact (c.counts_repair mode).before (.nothing rfl rfl rfl)
  apply (countsParts_change _).then_repair
  intro _
  split
  · apply borrow_countsParts.then_repair
    intro slots
    apply (countsParts_onPool _).then_repair
    intro _
    exact (countsParts_change _).then_repair fun _ => hcount
  · exact hcount

/-! ## 5. Endings -/

variable {w w' : Writer} {c c' : Context σ} {result : Except Error Unit}

theorem flushRelease_counts (w : Writer) (c : Context σ) :
    c.Counts (flushRelease.execute w c).2.2 0 [.closed] := by
  have hflush := countsParts_sending.flush w c
  have hrelease := release_countsParts (flush.execute w c).2.1 (flush.execute w c).2.2
  obtain ⟨c₁, hrun, -⟩ := release_asks (flush.execute w c).2.1 (flush.execute w c).2.2
  rw [hrun] at hrelease
  simp only [flushRelease, Writing.execute_bind, Writing.execute_attempt, hrun, countEnding,
    Writing.execute_ofRun, Run.execute_count]
  have hall := ((c₁.counts_ending .closed).after hrelease).after hflush
  rcases (flush.execute w c).1 with e | ⟨⟩
  · exact hall
  · exact hall

theorem close_counts (hphase : w.phase = .active) :
    c.Counts (close.execute w c).2.2 0 [.closed] := by
  simp only [close, enter, Writing.execute_bind, ensureActive_of_active hphase,
    Writing.execute_writer, Writing.execute_change]
  rcases w.sourceCompleted
  · exact flushRelease_counts _ _
  · exact (flushRelease_counts _ _).after (.nothing rfl rfl rfl)

theorem complete_counts (w : Writer) (c : Context σ) :
    c.Counts (complete.execute w c).2.2 0
      [if (complete.execute w c).1.isOk then .committed else .commitFailed] := by
  have hrequest := (completeUpload_quiet (σ := σ) w.session w.parts).counts (fun _ h => h) c
  simp only [complete, countEnding, Writing.execute_bind, Writing.execute_writer,
    Writing.execute_attempt, Writing.execute_ofRun]
  rcases hrun : (Client.completeUpload w.session w.parts).execute c with ⟨e | etag, c₁⟩ <;>
    rw [hrun] at hrequest
  · have hreport : c₁.Counts { c₁ with notices := c₁.notices ++
        [.completeFailed w.session.key w.session.uploadId w.parts.length e] } 0 [] :=
      .nothing rfl rfl rfl
    simp only [Writing.execute_bind, Writing.execute_ofRun, Run.execute_report]
    generalize { c₁ with notices := c₁.notices ++
      [Notice.completeFailed w.session.key w.session.uploadId w.parts.length e] } = c₂ at hreport
    have habort := (abortQuietly_quiet (abortion_not_uploadPart w.session)).counts (fun _ h => h) c₂
    obtain ⟨y, c₃, -, hdone, -⟩ := abortQuietly_asks w.session c₂
    rw [hdone] at habort
    simp only [hdone, Run.execute_count, Writing.execute_throw]
    exact (((c₃.counts_ending .commitFailed).after habort).after hreport).after hrequest
  · simp only [Writing.execute_bind, Writing.execute_ofRun, Run.execute_count, Run.execute_report]
    refine Context.Counts.after ?_ hrequest
    exact Context.Counts.before (c₁.counts_ending .committed) (.nothing rfl rfl rfl)

/-- What is still to be sent is counted before the writer is finished, and when that fails the writer
is not finished. -/
theorem commit_counts (hphase : w.phase = .active)
    (hrun : commit.execute w c = (result, w', c')) :
    c.Counts c' 0 (w'.phase.ending? result.isOk).toList := by
  rcases hsource : w.sourceCompleted
  · rw [commit_eq hphase hsource, Writing.execute_bind] at hrun
    have hrest := countsParts_sending.sendRest w c
    obtain ⟨xs, -, hsends⟩ := sendRest_sendsParts w c
    rcases hsent : sendRest.execute w c with ⟨e | ⟨⟩, w₁, c₁⟩ <;> rw [hsent] at hrest hsends hrun
    · cases hrun
      rw [hsends.advances.phase_eq, hphase]
      exact hrest
    · obtain ⟨c₂, hreleased, -⟩ := release_asks { w₁ with phase := .committed } c₁
      have hrelease := release_countsParts { w₁ with phase := .committed } c₁
      have hcomplete := complete_counts { w₁ with phase := .committed, slots := none } c₂
      have hkept := complete_keepsPhase { w₁ with phase := .committed, slots := none } c₂
      rw [hreleased] at hrelease
      simp only [enter, Writing.execute_bind, Writing.execute_change, hreleased] at hrun
      rw [hrun] at hcomplete hkept
      have hending : (w'.phase.ending? result.isOk).toList =
          [if result.isOk then .committed else .commitFailed] := by
        rw [show w'.phase = .committed from hkept]
        rfl
      rw [hending]
      exact (hcomplete.after hrelease).after hrest
  · obtain ⟨c₁, hreleased, -⟩ := release_asks { w with phase := .committed } c
    have hrelease := release_countsParts { w with phase := .committed } c
    rw [hreleased] at hrelease
    simp only [commit, enter, countEnding, Writing.execute_bind, ensureActive_of_active hphase,
      Writing.execute_writer, hsource, if_true, Writing.execute_change, hreleased,
      Writing.execute_ofRun, Run.execute_count, Run.execute_report] at hrun
    cases hrun
    refine Context.Counts.after ?_ hrelease
    exact Context.Counts.before (c₁.counts_ending .committed) (.nothing rfl rfl rfl)

theorem cancel_counts (hphase : w.phase = .active) :
    c.Counts (cancel.execute w c).2.2 0 [.cancelled] := by
  obtain ⟨c₁, hreleased, -⟩ := release_asks { w with phase := .cancelled } c
  have hrelease := release_countsParts { w with phase := .cancelled } c
  rw [hreleased] at hrelease
  have hended := (c₁.counts_ending .cancelled).after hrelease
  have habort := ((Client.abortUpload_decodes w.session).quiet (p := (·.kind ≠ .uploadPart))
    (abortion_not_uploadPart w.session)).counts (fun _ h => h)
    { c₁ with meters := c₁.meters.addEnding .cancelled }
  simp only [cancel, enter, countEnding, Writing.execute_bind, ensureActive_of_active hphase,
    Writing.execute_writer, Writing.execute_change, hreleased, Writing.execute_ofRun,
    Run.execute_count]
  rcases hsource : w.sourceCompleted
  · simp only [Bool.not_false, if_true, Writing.execute_bind, Writing.execute_attempt,
      Writing.execute_ofRun]
    rcases hrun : (Client.abortUpload w.session).execute
      { c₁ with meters := c₁.meters.addEnding .cancelled } with ⟨e | ⟨⟩, c₂⟩ <;> rw [hrun] at habort
    · exact (hended.before habort).before (.nothing rfl rfl rfl)
    · exact hended.before habort
  · exact hended

/-! ## 6. Calls -/

/-- The upload of the writer has been replaced. -/
def isRepaired (w : Writer) : Bool :=
  w.repair = .done

theorem Advances.isRepaired_eq (h : w.Advances w') : w'.isRepaired = w.isRepaired := by
  rw [isRepaired, isRepaired, h.repair_eq]

theorem Repairs.isRepaired_eq {b : Bool} {xs : List (Exchange σ)} (h : Repairs w c result w' xs)
    (hrepair : w.repair = .required b) : w'.isRepaired = result.isOk := by
  cases h <;> simp [isRepaired, hrepair, Except.isOk, Except.toBool]

theorem Repairs.phase_eq {xs : List (Exchange σ)} (h : Repairs w c result w' xs) :
    w'.phase = w.phase := by
  cases h <;> rfl

theorem Step.write_phase {data : Bytes} {xs : List (Exchange σ)}
    (h : Step w c c' (.write data) result w' xs) : w'.phase = w.phase := by
  cases h with
  | wroteNothing => rfl
  | wrote _ _ hsends => exact hsends.advances.phase_eq
  | notRepaired _ _ hrepairs => exact hrepairs.phase_eq
  | repaired _ _ hrepairs hsends => exact hsends.advances.phase_eq.trans hrepairs.phase_eq

/-- The calls that return and leave a writer committed are the commits that return. -/
theorem Step.committed_iff {op : Operation} {xs : List (Exchange σ)}
    (h : Step w c c' op result w' xs) (hphase : w.phase = .active) (hok : result.isOk = true) :
    w'.phase = .committed ↔ op = .commit := by
  cases op with
  | write data => simp [h.write_phase, hphase]
  | close =>
    cases h with
    | closed hsends => simp [hsends.advances.phase_eq]
  | commit =>
    cases h with
    | committedBefore => simp
    | restNotSent => cases hok
    | committed => simp
    | notCommitted => cases hok
  | cancel => cases h <;> simp

/-- A write may have made a repair before it takes in the bytes, also when it raises after that. -/
theorem write_counts (hphase : w.phase = .active) {data : Bytes} {count : Except Error Nat}
    (hrun : (write data).execute w c = (count, w', c')) :
    ∃ repairs, c.Counts c' repairs [] ∧ w'.isRepaired.toNat = w.isRepaired.toNat + repairs := by
  by_cases hdata : data.size = 0
  · rw [write_of_empty hphase hdata] at hrun
    cases hrun
    exact ⟨0, .refl c, rfl⟩
  have htake : (takeIn data : Writing σ Nat).CountsParts := countsParts_sending.takeIn data
  have hsends : (takeIn data : Writing σ Nat).SendsParts := takeIn_sendsParts data
  by_cases hrepair : ∃ b, w.repair = .required b
  · obtain ⟨b, hrepair⟩ := hrepair
    obtain ⟨replaced, w₁, c₁, xs, hreplace, -, hrepairs, -⟩ := replaceSession_repairs w c
    have hreplaced := replaceSession_countsRepair w c
    have hbefore : w.isRepaired = false := by simp [isRepaired, hrepair]
    have hafter := hrepairs.isRepaired_eq hrepair
    rw [write_of_required hphase hrepair hdata, Writing.execute_bind, hreplace] at hrun
    rw [hreplace] at hreplaced
    rcases replaced with e | ⟨⟩
    · cases hrun
      exact ⟨0, hreplaced, by rw [hbefore, hafter]; rfl⟩
    · have htaken := htake w₁ c₁
      obtain ⟨ys, -, hsent⟩ := hsends w₁ c₁
      simp only at hrun
      rw [hrun] at htaken hsent
      exact ⟨1, hreplaced.before htaken, by rw [hsent.advances.isRepaired_eq, hbefore, hafter]; rfl⟩
  · rw [write_of_settled hphase (fun b hb => hrepair ⟨b, hb⟩) hdata] at hrun
    have htaken := htake w c
    obtain ⟨ys, -, hsent⟩ := hsends w c
    rw [hrun] at htaken hsent
    exact ⟨0, htaken, by rw [hsent.advances.isRepaired_eq, Nat.add_zero]⟩

/-- What a call of a writer in use has counted: its parts, a repair when the writer is a repaired one
since, and an ending when it is finished. -/
theorem run_counts (hphase : w.phase = .active) (op : Operation)
    (hrun : op.run.execute w c = (result, w', c')) :
    ∃ repairs, c.Counts c' repairs (w'.phase.ending? result.isOk).toList ∧
      w'.isRepaired.toNat = w.isRepaired.toNat + repairs := by
  obtain ⟨xs, -, hstep⟩ := step_of_run hphase op hrun
  have hsame : (∀ data, op ≠ .write data) → w'.isRepaired.toNat = w.isRepaired.toNat + 0 := by
    intro hop
    rcases hstep.stays_or_repairs with ⟨hrepair, -⟩ | ⟨data, -, hwrite, -⟩
    · rw [isRepaired, isRepaired, hrepair, Nat.add_zero]
    · exact absurd hwrite (hop data)
  cases op with
  | write data =>
    rw [hstep.write_phase, hphase]
    rcases hwrite : (write data).execute w c with ⟨count, w₁, c₁⟩
    simp only [Operation.run, Writing.execute_discard, hwrite, Prod.mk.injEq] at hrun
    obtain ⟨-, rfl, rfl⟩ := hrun
    exact write_counts hphase hwrite
  | close =>
    have hcounts := close_counts (c := c) hphase
    have hclosed := close_phase (c := c) hphase
    simp only [Operation.run] at hrun
    rw [hrun] at hcounts hclosed
    rw [show w'.phase = .closed from hclosed]
    exact ⟨0, hcounts, hsame (by simp)⟩
  | commit => exact ⟨0, commit_counts hphase hrun, hsame (by simp)⟩
  | cancel =>
    have hcounts := cancel_counts (c := c) hphase
    have hcancelled := cancel_phase (c := c) hphase
    simp only [Operation.run] at hrun
    rw [hrun] at hcounts hcancelled
    rw [show w'.phase = .cancelled from hcancelled]
    exact ⟨0, hcounts, hsame (by simp)⟩

end Writer

end ResumableStorage
