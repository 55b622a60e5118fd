/-
  ResumableStorage/Proofs/Volume/Finishing.lean
  =============================================
  **Writers finish once** — at a desk, whatever the schedule and whatever the service
  answers, a writer that was finished stays as it is and refuses every call, and the
  counters tell how many writers were finished and repaired, and what was uploaded.

  A step of a schedule has five outcomes.  What is kept, and what is counted, is read off
  these, and holds of a schedule by induction on its steps.
-/
import ResumableStorage.Proofs.Upload.Counting
import ResumableStorage.Proofs.Volume.Interleaving

namespace ResumableStorage

variable {σ : Type}

/-! ## 1. Writers of a desk -/

def Writer.isFinished (w : Writer) : Bool :=
  w.phase ≠ .active

/-- What may become of a writer: nothing when it is finished, and a repair is never undone. -/
structure Writer.Later (w w' : Writer) : Prop where
  finished : w.isFinished = true → w' = w
  repaired : w.isRepaired = true → w'.isRepaired = true

theorem Writer.Later.refl (w : Writer) : w.Later w := ⟨fun _ => rfl, id⟩

theorem Writer.Later.trans {w w₁ w' : Writer} (h : w.Later w₁) (h' : w₁.Later w') : w.Later w' := by
  refine ⟨?_, fun hrepaired => h'.repaired (h.repaired hrepaired)⟩
  intro hfinished
  obtain rfl := h.finished hfinished
  exact h'.finished hfinished

/-- Each writer is in its place still, and is what it may have become. -/
def Desk.Keeps (desk desk' : Desk σ) : Prop :=
  ∀ (key : String) (i : Nat) (w : Writer), (desk.writers key)[i]? = some w →
    ∃ w', (desk'.writers key)[i]? = some w' ∧ w.Later w'

theorem countP_set_add {α : Type} {p : α → Bool} {l : List α} {i : Nat} {a : α}
    (h : l[i]? = some a) (b : α) :
    (l.set i b).countP p + (p a).toNat = l.countP p + (p b).toNat := by
  obtain ⟨hlt, rfl⟩ := List.getElem?_eq_some_iff.mp h
  rw [List.countP_set hlt]
  cases ha : p l[i] with
  | false => cases p b <;> simp
  | true =>
    have hpos : 0 < l.countP p := List.countP_pos_iff.mpr ⟨l[i], List.getElem_mem hlt, ha⟩
    cases p b <;> simp <;> omega

/-- How many writers pass a test in whose place there was none before that does.  Those that were
opened in between come last. -/
def newly (p : Writer → Bool) : List Writer → List Writer → Nat
  | [], ws => ws.countP p
  | _ :: _, [] => 0
  | v :: vs, w :: ws => (p w && !p v).toNat + newly p vs ws

/-- Where no writer ceases to pass the test, those that pass it did so before, or do newly. -/
theorem countP_add_newly {p : Writer → Bool} {vs ws : List Writer}
    (h : ∀ (i : Nat) (v : Writer), vs[i]? = some v → p v = true →
      ∃ w, ws[i]? = some w ∧ p w = true) :
    vs.countP p + newly p vs ws = ws.countP p := by
  induction vs generalizing ws with
  | nil => simp [newly]
  | cons v vs ih =>
    cases ws with
    | nil =>
      have hnone : (v :: vs).countP p = 0 := by
        rw [List.countP_eq_zero]
        intro u hu hp
        obtain ⟨i, hi⟩ := List.mem_iff_getElem?.mp hu
        obtain ⟨w, hw, -⟩ := h i u hi hp
        cases hw
      rw [hnone]
      rfl
    | cons w ws =>
      have hrest : vs.countP p + newly p vs ws = ws.countP p :=
        ih fun i u hu hp => h (i + 1) u hu hp
      have hfirst : p v = true → p w = true := by
        intro hp
        obtain ⟨_, hw, hp'⟩ := h 0 v rfl hp
        cases hw
        exact hp'
      simp only [List.countP_cons, newly]
      rcases hv : p v <;> rcases hw : p w
      all_goals simp [hv, hw] at hfirst ⊢
      all_goals omega

namespace Desk

variable {keys : Finset String} {desk desk' : Desk σ} {p : Writer → Bool} {key : String}

/-- How many of the writers at these keys pass a test. -/
def tally (desk : Desk σ) (keys : Finset String) (p : Writer → Bool) : Nat :=
  ∑ key ∈ keys, (desk.writers key).countP p

theorem tally_withWriters (desk : Desk σ) (hkey : key ∈ keys) (c : Context σ) (p : Writer → Bool)
    (ws : List Writer) :
    ({ desk with context := c }.withWriters key ws).tally keys p + (desk.writers key).countP p =
      desk.tally keys p + ws.countP p := by
  have hothers : ∑ other ∈ keys.erase key,
      ((Function.update desk.writers key ws) other).countP p =
        ∑ other ∈ keys.erase key, (desk.writers other).countP p := by
    apply Finset.sum_congr rfl
    intro other hother
    rw [Function.update_of_ne (Finset.ne_of_mem_erase hother)]
  simp only [tally, withWriters]
  rw [← Finset.add_sum_erase keys _ hkey, ← Finset.add_sum_erase keys (fun k =>
    (desk.writers k).countP p) hkey, Function.update_self, hothers]
  omega

theorem tally_opened (desk : Desk σ) (hkey : key ∈ keys) (c : Context σ) {w : Writer}
    (hw : p w = false) :
    ({ desk with context := c }.withWriters key (desk.writers key ++ [w])).tally keys p =
      desk.tally keys p := by
  have htally := desk.tally_withWriters hkey c p (desk.writers key ++ [w])
  rw [List.countP_append, List.countP_singleton, hw] at htally
  exact Nat.add_right_cancel htally

theorem tally_called (desk : Desk σ) (hkey : key ∈ keys) (c : Context σ) (p : Writer → Bool)
    {i : Nat} {w : Writer} (hw : (desk.writers key)[i]? = some w) (w' : Writer) :
    ({ desk with context := c }.withWriters key ((desk.writers key).set i w')).tally keys p +
      (p w).toNat = desk.tally keys p + (p w').toNat := by
  have htally := desk.tally_withWriters hkey c p ((desk.writers key).set i w')
  have hset := countP_set_add (p := p) hw w'
  omega

theorem Keeps.tally_add_newly (h : desk.Keeps desk') (keys : Finset String) {p : Writer → Bool}
    (hp : ∀ {w w' : Writer}, w.Later w' → p w = true → p w' = true) :
    desk'.tally keys p =
      desk.tally keys p + ∑ key ∈ keys, newly p (desk.writers key) (desk'.writers key) := by
  simp only [tally]
  rw [← Finset.sum_add_distrib]
  apply Finset.sum_congr rfl
  intro key _
  symm
  apply countP_add_newly
  intro i w hw hpw
  obtain ⟨w', hw', hlater⟩ := h key i w hw
  exact ⟨w', hw', hp hlater hpw⟩

end Desk

/-! ## 2. Steps of a schedule -/

variable [Service σ]

namespace Operation

/-- What a call tells is all in which it differs from its run. -/
theorem run_of_answer {op : Operation} {w w' : Writer} {c c' : Context σ}
    {answer : Except Error Answer} (hrun : op.answer.execute w c = (answer, w', c')) :
    op.run.execute w c = (answer.map fun _ => (), w', c') := by
  have hrun' := congrArg (fun p => (p.1.map fun _ => (), p.2)) hrun
  rw [← hrun']
  cases op with
  | write data =>
    simp only [run, Operation.answer, Writing.execute_discard, Writing.execute_bind]
    rcases (Writer.write data).execute w c with ⟨_ | _, _, _⟩ <;> rfl
  | close =>
    simp only [run, Operation.answer, Writing.execute_bind]
    rcases Writer.close.execute w c with ⟨_ | _, _, _⟩ <;> rfl
  | commit =>
    simp only [run, Operation.answer, Writing.execute_bind]
    rcases Writer.commit.execute w c with ⟨_ | _, _, _⟩ <;> rfl
  | cancel =>
    simp only [run, Operation.answer, Writing.execute_bind]
    rcases Writer.cancel.execute w c with ⟨_ | _, _, _⟩ <;> rfl

theorem answer_of_finished {w : Writer} (hphase : w.phase ≠ .active) (op : Operation)
    (c : Context σ) : op.answer.execute w c = (.error (.finished w.phase), w, c) := by
  rcases hanswer : op.answer.execute w c with ⟨result, w', c'⟩
  have hrun := run_of_answer hanswer
  rw [Writer.run_of_finished hphase op] at hrun
  rcases result with e | a <;> cases hrun
  rfl

end Operation

/-- The step is the call of a commit, and it has returned. -/
def WriterStep.commits : WriterStep → Except Error Answer → Bool
  | .call _ .commit, .ok .done => true
  | _, _ => false

theorem WriterStep.commits_of_ne {step : WriterStep} {answer : Except Error Answer}
    (h : answer ≠ .ok .done) : step.commits answer = false := by
  unfold commits
  split
  · exact absurd rfl h
  · rfl

theorem Operation.commits_call {op : Operation} {w w' : Writer} {c c' : Context σ}
    {result : Except Error Answer} (hrun : op.answer.execute w c = (result, w', c')) (i : Nat) :
    (WriterStep.call i op).commits result = true ↔ op = .commit ∧ result.isOk = true := by
  cases op with
  | commit =>
    simp only [answer, Writing.execute_bind] at hrun
    rcases hcommit : Writer.commit.execute w c with ⟨e | ⟨⟩, w₁, c₁⟩ <;> rw [hcommit] at hrun <;>
      cases hrun <;> simp [WriterStep.commits, Except.isOk, Except.toBool]
  | _ => simp [WriterStep.commits]

namespace Volume

/-- The ways in which a step about the writers of a path can end: what is answered, and the desk
then. -/
inductive Taken (v : Volume) (desk : Desk σ) (path : String) :
    WriterStep → Except Error Answer → Desk σ → Prop
  | opened {append : Bool} {w : Writer} {c : Context σ} (hcounts : desk.context.Counts c 0 [])
      (hphase : w.phase = .active) (hrepair : w.isRepaired = false) :
      Taken v desk path (.start append) (.ok (.opened w.session w.parts))
        ({ desk with context := c }.withWriters (v.key path) (desk.writers (v.key path) ++ [w]))
  | notOpened {append : Bool} {e : Error} {c : Context σ} (hcounts : desk.context.Counts c 0 []) :
      Taken v desk path (.start append) (.error e) { desk with context := c }
  | absent {i : Nat} {op : Operation} (h : (desk.writers (v.key path))[i]? = none) :
      Taken v desk path (.call i op) (.ok .absent) desk
  | refused {i : Nat} {op : Operation} {w : Writer}
      (h : (desk.writers (v.key path))[i]? = some w) (hphase : w.phase ≠ .active) :
      Taken v desk path (.call i op) (.error (.finished w.phase)) desk
  | called {i : Nat} {op : Operation} {w w' : Writer} {c : Context σ}
      {result : Except Error Answer} (h : (desk.writers (v.key path))[i]? = some w)
      (hphase : w.phase = .active)
      (hrun : op.answer.execute w desk.context = (result, w', c)) :
      Taken v desk path (.call i op) result
        ({ desk with context := c }.withWriters (v.key path)
          ((desk.writers (v.key path)).set i w'))

variable {v : Volume} {desk desk' : Desk σ} {path : String}

/-- To open a writer is to look up a session or to start one; nothing of it is counted. -/
theorem writer_counts (v : Volume) (path : String) (append : Bool) (c : Context σ) :
    c.Counts ((v.writer path append).execute c).2 0 [] ∧
      ∀ w, ((v.writer path append).execute c).1 = .ok w →
        w.phase = .active ∧ w.isRepaired = false := by
  have hopens : ∀ r : Request, r.Opens → r.kind ≠ .uploadPart := by
    rintro r (h | h | h) <;> rw [h] <;> decide
  refine ⟨(v.writer_quiet path append).counts hopens c, ?_⟩
  intro w hw
  obtain ⟨s, parts, rfl⟩ := writer_eq_ok hw
  refine ⟨rfl, ?_⟩
  simp only [Writer.isRepaired, Writer.ofSession]
  split <;> simp

/-- The call of a finished writer changes nothing at all. -/
theorem step_of_finished {i : Nat} {w : Writer} (h : (desk.writers (v.key path))[i]? = some w)
    (hphase : w.phase ≠ .active) (op : Operation) :
    v.step desk path (.call i op) = (.error (.finished w.phase), desk) := by
  obtain ⟨hlt, hw⟩ := List.getElem?_eq_some_iff.mp h
  have hset : (desk.writers (v.key path)).set i w = desk.writers (v.key path) := by
    rw [← hw, List.set_getElem_self]
  simp only [step, h, op.answer_of_finished hphase, Desk.withWriters, hset, Function.update_eq_self]

theorem step_taken (v : Volume) (desk : Desk σ) (path : String) (step : WriterStep) :
    Taken v desk path step (v.step desk path step).1 (v.step desk path step).2 := by
  cases step with
  | start append =>
    obtain ⟨hcounts, hopened⟩ := v.writer_counts path append desk.context
    simp only [Volume.step]
    rcases hw : ((v.writer path append).execute desk.context).1 with e | w
    · exact .notOpened hcounts
    · obtain ⟨hphase, hrepair⟩ := hopened w hw
      exact .opened hcounts hphase hrepair
  | call i op =>
    rcases h : (desk.writers (v.key path))[i]? with _ | w
    · simp only [Volume.step, h]
      exact .absent h
    · by_cases hphase : w.phase = .active
      · simp only [Volume.step, h]
        exact .called h hphase rfl
      · rw [step_of_finished h hphase op]
        exact .refused h hphase

end Volume

/-! ## 3. What is kept -/

namespace Volume

variable {v : Volume} {desk desk' : Desk σ} {path : String} {step : WriterStep}
  {answer : Except Error Answer}

theorem Taken.keeps (h : Taken v desk path step answer desk') : desk.Keeps desk' := by
  intro key j u hu
  have hsame : ∃ w', (desk.writers key)[j]? = some w' ∧ u.Later w' := ⟨u, hu, .refl u⟩
  cases h with
  | notOpened | absent | refused => exact hsame
  | @opened _ w c =>
    simp only [Desk.withWriters]
    by_cases hkey : key = v.key path
    · subst hkey
      obtain ⟨hlt, -⟩ := List.getElem?_eq_some_iff.mp hu
      rw [Function.update_self, List.getElem?_append_left hlt]
      exact hsame
    · rw [Function.update_of_ne hkey]
      exact hsame
  | @called i op w w' c _ hw hphase hrun =>
    simp only [Desk.withWriters]
    by_cases hkey : key = v.key path
    · subst hkey
      obtain ⟨hlt, -⟩ := List.getElem?_eq_some_iff.mp hu
      rw [Function.update_self]
      by_cases hj : i = j
      · subst hj
        rw [hw, Option.some.injEq] at hu
        subst hu
        obtain ⟨repairs, -, hrepaired⟩ :=
          Writer.run_counts hphase op (Operation.run_of_answer hrun)
        refine ⟨w', List.getElem?_set_self hlt, ?_, ?_⟩
        · simp [Writer.isFinished, hphase]
        · intro hbefore
          rw [hbefore] at hrepaired
          rcases hafter : w'.isRepaired
          · rw [hafter, Bool.toNat_true, Bool.toNat_false] at hrepaired
            omega
          · rfl
      · rw [List.getElem?_set_ne hj]
        exact hsame
    · rw [Function.update_of_ne hkey]
      exact hsame

theorem serve_keeps (v : Volume) (desk : Desk σ) (schedule : Schedule) :
    desk.Keeps (v.serve desk schedule).2 := by
  induction schedule generalizing desk with
  | nil => exact fun key i w hw => ⟨w, hw, .refl w⟩
  | cons x rest ih =>
    obtain ⟨path, step⟩ := x
    intro key i w hw
    obtain ⟨w₁, hw₁, hlater⟩ := (v.step_taken desk path step).keeps key i w hw
    obtain ⟨w', hw', hlater'⟩ := ih (v.step desk path step).2 key i w₁ hw₁
    exact ⟨w', hw', hlater.trans hlater'⟩

end Volume

/-! ## 4. What is counted -/

namespace Desk

variable {keys : Finset String} {desk desk₁ desk' : Desk σ}

/-- As many repairs and endings were counted as there are more writers at these keys that are
repaired and finished, and as many endings by a commit as there were `commits`. -/
def Counts (keys : Finset String) (desk desk' : Desk σ) (commits : Nat) : Prop :=
  ∃ repairs ended, desk.context.Counts desk'.context repairs ended ∧
    desk'.tally keys Writer.isRepaired = desk.tally keys Writer.isRepaired + repairs ∧
    desk'.tally keys Writer.isFinished = desk.tally keys Writer.isFinished + ended.length ∧
    ended.count .committed = commits

theorem Counts.of_same {c : Context σ} (h : desk.context.Counts c 0 []) :
    Counts keys desk { desk with context := c } 0 :=
  ⟨0, [], h, rfl, rfl, rfl⟩

theorem Counts.trans {commits commits' : Nat} (h : Counts keys desk desk₁ commits)
    (h' : Counts keys desk₁ desk' commits') : Counts keys desk desk' (commits + commits') := by
  obtain ⟨repairs, ended, hcounts, hrepaired, hfinished, hcommits⟩ := h
  obtain ⟨repairs', ended', hcounts', hrepaired', hfinished', hcommits'⟩ := h'
  refine ⟨repairs + repairs', ended ++ ended', hcounts.trans hcounts', ?_, ?_, ?_⟩
  · rw [hrepaired', hrepaired, Nat.add_assoc]
  · rw [hfinished', hfinished, List.length_append, Nat.add_assoc]
  · rw [List.count_append, hcommits, hcommits']

end Desk

theorem Phase.length_ending? (phase : Phase) (returned : Bool) :
    (phase.ending? returned).toList.length = (decide (phase ≠ .active)).toNat := by
  cases phase <;> rfl

theorem Phase.count_committed_ending? (phase : Phase) (returned : Bool) :
    (phase.ending? returned).toList.count .committed =
      (decide (phase = .committed) && returned).toNat := by
  cases phase <;> cases returned <;> rfl

namespace Volume

variable {v : Volume} {desk desk' : Desk σ} {path : String} {step : WriterStep}
  {answer : Except Error Answer} {keys : Finset String}

theorem Taken.counts (h : Taken v desk path step answer desk') (hkey : v.key path ∈ keys) :
    Desk.Counts keys desk desk' (step.commits answer).toNat := by
  cases h with
  | @notOpened _ _ c hcounts => exact .of_same hcounts
  | absent =>
    rw [WriterStep.commits_of_ne (by simp)]
    exact .of_same (.refl desk.context)
  | refused =>
    rw [WriterStep.commits_of_ne (by simp)]
    exact .of_same (.refl desk.context)
  | @opened _ w c hcounts hphase hrepair =>
    have hfinished : w.isFinished = false := by simp [Writer.isFinished, hphase]
    exact ⟨0, [], hcounts, desk.tally_opened hkey c hrepair, desk.tally_opened hkey c hfinished, rfl⟩
  | @called i op w w' c result hw hphase hrun =>
    have hran := Operation.run_of_answer hrun
    have hok : (answer.map fun _ => ()).isOk = answer.isOk := by cases answer <;> rfl
    obtain ⟨repairs, hcounts, hrepaired⟩ := Writer.run_counts hphase op hran
    refine ⟨repairs, _, hcounts, ?_, ?_, ?_⟩
    · have htally := desk.tally_called hkey c Writer.isRepaired hw w'
      omega
    · have htally := desk.tally_called hkey c Writer.isFinished hw w'
      have hbefore : w.isFinished = false := by simp [Writer.isFinished, hphase]
      rw [hbefore, Bool.toNat_false, Nat.add_zero] at htally
      rw [Phase.length_ending?]
      exact htally
    · obtain ⟨xs, -, hstep⟩ := Writer.step_of_run hphase op hran
      rw [Phase.count_committed_ending?, hok]
      congr 1
      rw [Bool.eq_iff_iff, Operation.commits_call hrun, Bool.and_eq_true, decide_eq_true_eq]
      constructor
      · rintro ⟨hcommitted, hreturned⟩
        exact ⟨(hstep.committed_iff hphase (hok.trans hreturned)).mp hcommitted, hreturned⟩
      · rintro ⟨hop, hreturned⟩
        exact ⟨(hstep.committed_iff hphase (hok.trans hreturned)).mpr hop, hreturned⟩

/-- The calls of a commit that have returned. -/
def commits (schedule : Schedule) (replies : List Reply) : Nat :=
  (schedule.zip replies).countP fun x => x.1.2.commits x.2.2

theorem serve_counts (v : Volume) (desk : Desk σ) {schedule : Schedule}
    (hkeys : ∀ x ∈ schedule, v.key x.1 ∈ keys) :
    Desk.Counts keys desk (v.serve desk schedule).2
      (commits schedule (v.serve desk schedule).1) := by
  induction schedule generalizing desk with
  | nil => exact .of_same (.refl desk.context)
  | cons x rest ih =>
    obtain ⟨path, step⟩ := x
    have hstep := (v.step_taken desk path step).counts (hkeys (path, step) List.mem_cons_self)
    have hrest := ih (v.step desk path step).2 fun x hx => hkeys x (List.mem_cons_of_mem _ hx)
    have hcommits : commits ((path, step) :: rest) (v.serve desk ((path, step) :: rest)).1 =
        (step.commits (v.step desk path step).1).toNat +
          commits rest (v.serve (v.step desk path step).2 rest).1 := by
      simp only [commits, serve, List.zip_cons_cons, List.countP_cons]
      cases step.commits (v.step desk path step).1 <;> simp [Nat.add_comm]
    rw [hcommits]
    exact hstep.trans hrest

end Volume

/-! ## 5. All steps -/

namespace Desk

variable {desk desk' : Desk σ}

/-- A writer that was finished before is the same still; every call of it raises the error of its
phase and leaves the desk alone: the service, the record of requests, the pool, and all writers. -/
structure Absorbs (v : Volume) (desk desk' : Desk σ) : Prop where
  stays : ∀ {key : String} {i : Nat} {w : Writer}, (desk.writers key)[i]? = some w →
    w.phase ≠ .active → (desk'.writers key)[i]? = some w
  refuses : ∀ {path : String} {i : Nat} {w : Writer},
    (desk.writers (v.key path))[i]? = some w → w.phase ≠ .active →
      ∀ op, v.step desk' path (.call i op) = (.error (.finished w.phase), desk')

/-- The sizes of the parts that were uploaded in between, by calls that have returned. -/
def uploadedSince (desk desk' : Desk σ) : List Nat :=
  (desk.context.exchanges desk'.context).filterMap Exchange.uploaded?

/-- Only writers at these keys have changed, and what the counters have grown by is what was done:
parts and bytes that were uploaded, writers that were repaired, writers that were finished, and
commits that have returned. -/
structure Accounted (keys : Finset String) (desk desk' : Desk σ) (commits : Nat) : Prop where
  others : ∀ key ∉ keys, desk'.writers key = desk.writers key
  parts : desk'.context.meters.parts =
    desk.context.meters.parts + (desk.uploadedSince desk').length
  partBytes : desk'.context.meters.partBytes =
    desk.context.meters.partBytes + (desk.uploadedSince desk').sum
  repaired : desk'.context.meters.repaired = desk.context.meters.repaired +
    ∑ key ∈ keys, newly Writer.isRepaired (desk.writers key) (desk'.writers key)
  finished : desk'.context.meters.finished = desk.context.meters.finished +
    ∑ key ∈ keys, newly Writer.isFinished (desk.writers key) (desk'.writers key)
  committed : desk'.context.meters.committed = desk.context.meters.committed + commits

theorem Keeps.absorbs (h : desk.Keeps desk') (v : Volume) : desk.Absorbs v desk' := by
  have hstays : ∀ {key : String} {i : Nat} {w : Writer}, (desk.writers key)[i]? = some w →
      w.phase ≠ .active → (desk'.writers key)[i]? = some w := by
    intro key i w hw hphase
    obtain ⟨w', hw', hlater⟩ := h key i w hw
    rw [hw', hlater.finished (by simpa [Writer.isFinished] using hphase)]
  refine ⟨hstays, ?_⟩
  intro path i w hw hphase op
  exact Volume.step_of_finished (hstays hw hphase) hphase op

end Desk

namespace Volume

/-- The keys that a schedule is about. -/
def keysOf (v : Volume) (schedule : Schedule) : Finset String :=
  (schedule.map fun x => v.key x.1).toFinset

theorem serve_writers_of_notMem (v : Volume) (desk : Desk σ) {schedule : Schedule} {key : String}
    (hkey : ∀ x ∈ schedule, v.key x.1 ≠ key) :
    (v.serve desk schedule).2.writers key = desk.writers key := by
  induction schedule generalizing desk with
  | nil => rfl
  | cons x rest ih =>
    obtain ⟨path, step⟩ := x
    have hrest := ih (v.step desk path step).2 fun x hx => hkey x (List.mem_cons_of_mem _ hx)
    have hne : key ≠ v.key path := (hkey (path, step) List.mem_cons_self).symm
    exact hrest.trans (v.step_writers_of_ne desk step hne)

/-- Whatever the service answers, and in whichever order the writers are opened and called: one that
was finished is absorbed by the phase that it has entered, and the counters grow by one for each
writer that is finished, for each that is repaired, for each commit that returns, and for each part
whose upload returns. -/
theorem writers_finish_once (v : Volume) (desk : Desk σ) (schedule : Schedule) :
    desk.Absorbs v (v.serve desk schedule).2 ∧
      desk.Accounted (v.keysOf schedule) (v.serve desk schedule).2
        (commits schedule (v.serve desk schedule).1) := by
  have hkeeps := v.serve_keeps desk schedule
  have hmem : ∀ x ∈ schedule, v.key x.1 ∈ v.keysOf schedule := by
    intro x hx
    exact List.mem_toFinset.mpr (List.mem_map.mpr ⟨x, hx, rfl⟩)
  obtain ⟨repairs, ended, ⟨xs, hasks, hgrows⟩, hrepaired, hfinished, hcommits⟩ :=
    v.serve_counts desk hmem
  have huploaded : desk.uploadedSince (v.serve desk schedule).2 =
      xs.filterMap Exchange.uploaded? := by
    rw [Desk.uploadedSince, hasks.exchanges_eq]
  have hnewlyRepaired := hkeeps.tally_add_newly (v.keysOf schedule) Writer.Later.repaired
  have hnewlyFinished := hkeeps.tally_add_newly (v.keysOf schedule) (p := Writer.isFinished)
    fun hlater hw => by rwa [hlater.finished hw]
  refine ⟨hkeeps.absorbs v, ?_, ?_, ?_, ?_, ?_, ?_⟩
  · intro key hkey
    apply v.serve_writers_of_notMem desk
    rintro x hx rfl
    exact hkey (hmem x hx)
  · rw [huploaded]
    exact hgrows.parts
  · rw [huploaded]
    exact hgrows.partBytes
  · rw [hgrows.repaired]
    omega
  · rw [hgrows.finished]
    omega
  · rw [← hcommits]
    exact hgrows.endings .committed

end Volume

namespace Troubled

/-- The first part does not arrive, and the first completion is not answered. -/
def context : Context (Disturbed Store) :=
  { Neighbours.context (Store.empty 0) with
    service := {
      service := Store.empty 0
      queues := [(.uploadPart, [some ⟨false, .fails (.unreachable "down")⟩]),
        (.completeUpload, [some ⟨true, .fails (.unreachable "down")⟩])] } }

/-- One writer is closed, the next is committed, a third is cancelled and then committed, and a fourth
is committed without content. -/
def schedule : Schedule :=
  [("/a", .start false), ("/a", .call 0 (.write ⟨#[97]⟩)), ("/a", .call 0 .close),
    ("/b", .start false), ("/b", .call 0 (.write ⟨#[98]⟩)), ("/b", .call 0 .commit),
    ("/c", .start false), ("/c", .call 0 .cancel), ("/c", .call 0 .commit),
    ("/d", .start false), ("/d", .call 0 .commit)]

end Troubled

/-- The part of the first writer was not uploaded, and the commit of the second was in vain. -/
example : (Neighbours.volume.serve Troubled.context.desk Troubled.schedule).2.context.meters =
    { parts := 2, partBytes := 1, closed := 1, committed := 1, commitFailed := 1, cancelled := 1 } :=
  by decide +kernel

end ResumableStorage
