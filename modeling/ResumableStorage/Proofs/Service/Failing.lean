/-
  ResumableStorage/Proofs/Service/Failing.lean
  ============================================
  **A store whose requests fail** — what can come of a request when the plan of
  disturbances holds failures only: the store's own answer, an error with or without
  the effect, or a body that cannot be read.  Without disturbances it is always the
  store's own answer.

  The cases stand in one relation, `Sent`.  What an operation does under every pattern
  of failures is proved from it, and the same proof tells what the operation does when
  nothing fails.
-/
import ResumableStorage.Proofs.Execution
import ResumableStorage.Service.Disturbance
import ResumableStorage.Store.Answers

namespace ResumableStorage

/-! ## 1. Plans of failures -/

/-- The answer to a request for an object whose body breaks off while it is read. -/
def brokenBody (content : Bytes) (f : ReadFailure) : Value :=
  .object [("Body", .stream content (some f))]

/-- A disturbance that makes a request of a kind fail: with an error, before or after the
effect, or with a body that cannot be read. -/
inductive Disturbance.Fails : RequestKind → Disturbance → Prop
  | error (kind : RequestKind) (afterEffect : Bool) (f : Failure) :
      Fails kind ⟨afterEffect, .fails f⟩
  | body (afterEffect : Bool) (content : Bytes) (f : ReadFailure) :
      Fails .getObject ⟨afterEffect, .answers (brokenBody content f)⟩

namespace Disturbed

variable {σ : Type}

def FailsOnly (d : Disturbed σ) : Prop :=
  ∀ q ∈ d.queues, ∀ x, some x ∈ q.2 → Disturbance.Fails q.1 x

/-- The plan lets every request through. -/
def IsCalm (d : Disturbed σ) : Prop :=
  ∀ q ∈ d.queues, ∀ x ∈ q.2, x = none

/-- The plan holds disturbances of one sort only. -/
def Within (d : Disturbed σ) (sort : RequestKind → Disturbance → Prop) : Prop :=
  ∀ q ∈ d.queues, ∀ x, some x ∈ q.2 → sort q.1 x

variable {d : Disturbed σ} {kind : RequestKind} {x : Disturbance}
  {sort sort' : RequestKind → Disturbance → Prop}

theorem calm_isCalm (s : σ) : (calm s).IsCalm := by
  intro q hq
  cases hq

theorem IsCalm.within (h : d.IsCalm) : d.Within sort := by
  intro q hq x hx
  have hnone := h q hq (some x) hx
  cases hnone

theorem IsCalm.failsOnly (h : d.IsCalm) : d.FailsOnly := h.within

theorem Within.mono (h : d.Within sort) (hsort : ∀ kind x, sort kind x → sort' kind x) :
    d.Within sort' :=
  fun q hq x hx => hsort q.1 x (h q hq x hx)

/-- Taking the next disturbance of a kind off its queue leaves a part of each queue. -/
theorem next_queues {q : RequestKind × List (Option Disturbance)}
    (hq : q ∈ (d.next kind).2.queues) : ∃ p ∈ d.queues, p.1 = q.1 ∧ ∀ x ∈ q.2, x ∈ p.2 := by
  unfold next at hq
  split at hq
  · rename_i head rest hlookup
    simp only [List.mem_map] at hq
    obtain ⟨p, hp, rfl⟩ := hq
    by_cases hk : p.1 = kind
    · refine ⟨(kind, head :: rest), ?_, ?_, ?_⟩
      · obtain ⟨l₁, l₂, hl, -⟩ := List.lookup_eq_some_iff.mp hlookup
        rw [hl]
        simp
      · simp [hk]
      · intro x hx
        rw [if_pos hk] at hx
        exact List.mem_cons_of_mem _ hx
    · rw [if_neg hk]
      exact ⟨p, hp, rfl, fun x hx => hx⟩
  · exact ⟨q, hq, rfl, fun x hx => hx⟩

theorem next_service (d : Disturbed σ) (kind : RequestKind) :
    (d.next kind).2.service = d.service := by
  unfold next
  split <;> rfl

theorem next_mem (h : (d.next kind).1 = some x) : ∃ q ∈ d.queues, q.1 = kind ∧ some x ∈ q.2 := by
  unfold next at h
  split at h
  · rename_i head rest hlookup
    obtain ⟨l₁, l₂, hl, -⟩ := List.lookup_eq_some_iff.mp hlookup
    refine ⟨(kind, head :: rest), by rw [hl]; simp, rfl, ?_⟩
    simp only at h
    simp [h]
  · cases h

theorem Within.sort_of_next (h : d.Within sort) (hx : (d.next kind).1 = some x) : sort kind x := by
  obtain ⟨q, hq, rfl, hmem⟩ := next_mem hx
  exact h q hq x hmem

theorem IsCalm.next_eq_none (h : d.IsCalm) (kind : RequestKind) : (d.next kind).1 = none := by
  rcases hx : (d.next kind).1 with _ | x
  · rfl
  · have hnone : d.Within fun _ _ => False := h.within
    have hfalse : False := hnone.sort_of_next hx
    exact hfalse.elim

/-- A request takes the next disturbance of its kind off the plan, and nothing else. -/
theorem answer_queues [Service σ] (r : Request) (d : Disturbed σ) :
    (Service.answer r d).2.queues = (d.next r.kind).2.queues := by
  simp only [Service.answer, under]
  split
  · simp_all
  · split
    · split <;> simp_all
    · simp_all

theorem Within.answer [Service σ] (h : d.Within sort) (r : Request) :
    (Service.answer r d).2.Within sort := by
  intro q hq x hx
  rw [answer_queues] at hq
  obtain ⟨p, hp, hkind, hsub⟩ := next_queues hq
  exact hkind ▸ h p hp x (hsub _ hx)

theorem IsCalm.answer [Service σ] (h : d.IsCalm) (r : Request) :
    (Service.answer r d).2.IsCalm := by
  intro q hq x hx
  rw [answer_queues] at hq
  obtain ⟨p, hp, -, hsub⟩ := next_queues hq
  exact h p hp x (hsub x hx)

/-! ## 2. Answers -/

/-- What a disturbed store answers, and the store afterwards: its own answer, or what a disturbance
has put in the place of it, before the effect or after it. -/
inductive Answers (d : Disturbed Store) (r : Request) : Except Failure Value → Store → Prop
  | granted {v : Value} {s : Store} (hnext : (d.next r.kind).1 = none)
      (h : d.service.effect r = .ok (v, s)) : Answers d r (.ok v) s
  /-- The store's own error comes first where the disturbance is to follow the effect. -/
  | refused {f : Failure} (h : d.service.effect r = .error f) : Answers d r (.error f) d.service
  | before {x : Disturbance} (hnext : (d.next r.kind).1 = some x) (hx : x.afterEffect = false) :
      Answers d r x.outcome.toAnswer d.service
  | after {x : Disturbance} {v : Value} {s : Store} (hnext : (d.next r.kind).1 = some x)
      (hx : x.afterEffect = true) (h : d.service.effect r = .ok (v, s)) :
      Answers d r x.outcome.toAnswer s

/-- The inversion of a request under any plan. -/
theorem answer_answers (d : Disturbed Store) (r : Request) :
    Answers d r (Service.answer r d).1 (Service.answer r d).2.service := by
  simp only [Service.answer, under]
  rcases hnext : d.next r.kind with ⟨x, d'⟩
  have hservice : d'.service = d.service := by
    have h := next_service d r.kind
    rwa [hnext] at h
  have hfst : (d.next r.kind).1 = x := by rw [hnext]
  cases x with
  | none =>
    simp only [hservice]
    rcases heffect : d.service.effect r with f | ⟨v, s⟩
    · exact .refused heffect
    · exact .granted hfst heffect
  | some x =>
    rcases hafter : x.afterEffect with _ | _
    · simp only [hservice, hafter, Bool.false_eq_true, if_false]
      exact .before hfst hafter
    · simp only [hservice, hafter, if_true]
      rcases heffect : d.service.effect r with f | ⟨v, s⟩
      · exact .refused heffect
      · exact .after hfst hafter heffect

/-- With nothing disturbed the answer is the store's own. -/
theorem IsCalm.answer_cases {d : Disturbed Store} (h : d.IsCalm) (r : Request) :
    (∃ v, d.service.effect r = .ok (v, (Service.answer r d).2.service) ∧
        (Service.answer r d).1 = .ok v) ∨
      ∃ f, d.service.effect r = .error f ∧ (Service.answer r d).1 = .error f ∧
        (Service.answer r d).2.service = d.service := by
  have hanswers := answer_answers d r
  generalize (Service.answer r d).1 = answer at hanswers ⊢
  generalize (Service.answer r d).2.service = s at hanswers ⊢
  cases hanswers with
  | granted hnext heffect => exact .inl ⟨_, heffect, rfl⟩
  | refused heffect => exact .inr ⟨_, heffect, rfl, rfl⟩
  | before hnext hx =>
    rw [h.next_eq_none] at hnext
    cases hnext
  | after hnext hx heffect =>
    rw [h.next_eq_none] at hnext
    cases hnext

theorem IsCalm.answer_granted {d : Disturbed Store} (h : d.IsCalm) {r : Request} {v : Value}
    {s : Store} (heffect : d.service.effect r = .ok (v, s)) :
    (Service.answer r d).1 = .ok v ∧ (Service.answer r d).2.service = s := by
  rcases h.answer_cases r with ⟨v', heffect', hanswer⟩ | ⟨f, heffect', -, -⟩ <;>
    rw [heffect] at heffect'
  · simp only [Except.ok.injEq, Prod.mk.injEq] at heffect'
    exact ⟨by rw [hanswer, heffect'.1], heffect'.2.symm⟩
  · cases heffect'

theorem IsCalm.answer_refused {d : Disturbed Store} (h : d.IsCalm) {r : Request} {f : Failure}
    (heffect : d.service.effect r = .error f) :
    (Service.answer r d).1 = .error f ∧ (Service.answer r d).2.service = d.service := by
  rcases h.answer_cases r with ⟨v, heffect', -⟩ | ⟨f', heffect', hanswer, hservice⟩ <;>
    rw [heffect] at heffect'
  · cases heffect'
  · cases heffect'
    exact ⟨hanswer, hservice⟩

end Disturbed

/-! ## 3. Requests -/

namespace Context

def store (c : Context (Disturbed Store)) : Store := c.service.service

/-- What every run keeps of a context: the plan still holds failures only, or nothing at all, and
the pool lends buffers of the same size. -/
structure Leads (c c' : Context (Disturbed Store)) : Prop where
  failsOnly : c'.service.FailsOnly
  calm : c.service.IsCalm → c'.service.IsCalm
  capacity : c'.pool.capacity = c.pool.capacity

theorem Leads.refl {c : Context (Disturbed Store)} (h : c.service.FailsOnly) : c.Leads c :=
  ⟨h, id, rfl⟩

/-- What is put into the buffers of the pool does not matter to the service. -/
theorem Leads.withPool {c : Context (Disturbed Store)} (h : c.service.FailsOnly) {p : Pool}
    (hcapacity : p.capacity = c.pool.capacity) : c.Leads { c with pool := p } :=
  ⟨h, id, hcapacity⟩

theorem Leads.trans {a b c : Context (Disturbed Store)} (h₁ : a.Leads b) (h₂ : b.Leads c) :
    a.Leads c :=
  ⟨h₂.failsOnly, fun h => h₂.calm (h₁.calm h), h₂.capacity.trans h₁.capacity⟩

end Context

/-- What can come of a request: the result, and the store afterwards. -/
inductive Sent (c : Context (Disturbed Store)) (r : Request) : Except Error Value → Store → Prop
  | granted {v : Value} {s : Store} (h : c.store.effect r = .ok (v, s)) : Sent c r (.ok v) s
  /-- An error.  Where nothing is disturbed the store itself has refused. -/
  | failed {e : Error} {s : Store} (hs : s = c.store ∨ ∃ v, c.store.effect r = .ok (v, s))
      (hwhy : c.service.IsCalm → ∃ f, c.store.effect r = .error f) : Sent c r (.error e) s
  | broken {s : Store} (content : Bytes) (f : ReadFailure)
      (hs : s = c.store ∨ ∃ v, c.store.effect r = .ok (v, s)) (hkind : r.kind = .getObject)
      (hwhy : ¬ c.service.IsCalm) : Sent c r (.ok (brokenBody content f)) s

theorem Sent.of_answers {c : Context (Disturbed Store)} (hf : c.service.FailsOnly) {r : Request}
    {answer : Except Failure Value} {s : Store} (h : c.service.Answers r answer s)
    (action : Action) : Sent c r (answer.mapError fun f => .storage (.failed action f)) s := by
  have hdisturbed : ∀ {x : Disturbance} {s : Store}, (c.service.next r.kind).1 = some x →
      (s = c.store ∨ ∃ v, c.store.effect r = .ok (v, s)) →
      Sent c r (x.outcome.toAnswer.mapError fun f => .storage (.failed action f)) s := by
    intro x s hnext hs
    have hcalm : ¬ c.service.IsCalm := by
      intro hcalm
      rw [hcalm.next_eq_none] at hnext
      cases hnext
    have hx := Disturbed.Within.sort_of_next hf hnext
    generalize hkind : r.kind = kind at hx
    cases hx with
    | error kind afterEffect f => exact .failed hs fun h => absurd h hcalm
    | body afterEffect content f => exact .broken content f hs hkind hcalm
  cases h with
  | granted hnext h => exact .granted h
  | refused h => exact .failed (.inl rfl) fun _ => ⟨_, h⟩
  | before hnext hx => exact hdisturbed hnext (.inl rfl)
  | after hnext hx h => exact hdisturbed hnext (.inr ⟨_, h⟩)

/-- The inversion of a request under a plan of failures. -/
theorem Run.send_sent {c : Context (Disturbed Store)} (hf : c.service.FailsOnly) (action : Action)
    (r : Request) : ∃ result c', (Run.send action r).execute c = (result, c') ∧ c.Leads c' ∧
      Sent c r result c'.store :=
  ⟨_, _, execute_send action r c, ⟨Disturbed.Within.answer hf r, fun h => h.answer r, rfl⟩,
    .of_answers hf (Disturbed.answer_answers c.service r) action⟩

/-- A request that the store grants is answered so, or something was disturbed. -/
theorem Sent.of_effect {c : Context (Disturbed Store)} {r : Request} {result : Except Error Value}
    {v : Value} {s s' : Store} (h : Sent c r result s') (hkind : r.kind ≠ .getObject)
    (heffect : c.store.effect r = .ok (v, s)) :
    result = .ok v ∧ s' = s ∨
      ∃ e, result = .error e ∧ ¬ c.service.IsCalm ∧ (s' = c.store ∨ s' = s) := by
  cases h with
  | granted h =>
    rw [heffect, Except.ok.injEq, Prod.mk.injEq] at h
    obtain ⟨rfl, rfl⟩ := h
    exact .inl ⟨rfl, rfl⟩
  | failed hs hwhy =>
    refine .inr ⟨_, rfl, ?_, ?_⟩
    · intro hcalm
      obtain ⟨f, h⟩ := hwhy hcalm
      rw [heffect] at h
      cases h
    · apply hs.imp_right
      rintro ⟨v', h⟩
      rw [heffect, Except.ok.injEq, Prod.mk.injEq] at h
      exact h.2.symm
  | broken content f hs hobject => exact absurd hobject hkind

/-- With nothing disturbed the store's own answer comes back. -/
theorem Run.send_granted {c : Context (Disturbed Store)} (hcalm : c.service.IsCalm) (action : Action)
    {r : Request} (hkind : r.kind ≠ .getObject) {v : Value} {s : Store}
    (heffect : c.store.effect r = .ok (v, s)) :
    ∃ c', (Run.send action r).execute c = (.ok v, c') ∧ c.Leads c' ∧ c'.store = s := by
  obtain ⟨result, c', hsend, hleads, hsent⟩ := Run.send_sent hcalm.failsOnly action r
  rcases hsent.of_effect hkind heffect with ⟨rfl, hstore⟩ | ⟨_, -, hnot, -⟩
  · exact ⟨c', hsend, hleads, hstore⟩
  · exact absurd hcalm hnot

end ResumableStorage
