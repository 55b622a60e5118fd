/-
  ResumableStorage/Proofs/Service/Queues.lean
  ===========================================
  **Plans kind by kind** — a request takes the first disturbance of its own queue and
  leaves every other queue alone.  So a plan may be calm for some kinds of requests while
  it disturbs others, and a plan that lets `n` requests of a kind through and has the
  next one fail says of each request that is sent what becomes of it.
-/
import ResumableStorage.Proofs.Service.Exchanges
import ResumableStorage.Proofs.Service.Failing

namespace ResumableStorage

namespace Disturbed

variable {σ : Type} {d : Disturbed σ} {kind other : RequestKind} {f : Failure} {n : Nat}

/-! ## 1. Queues -/

/-- What is planned for the requests of a kind, in the order in which they are sent. -/
def queue (d : Disturbed σ) (kind : RequestKind) : List (Option Disturbance) :=
  (d.queues.lookup kind).getD []

theorem next_fst (d : Disturbed σ) (kind : RequestKind) :
    (d.next kind).1 = (d.queue kind).head?.join := by
  unfold next queue
  rcases d.queues.lookup kind with _ | ⟨_ | ⟨x, rest⟩⟩ <;> rfl

/-- A look-up in a table in which the entry of one key was changed. -/
theorem lookup_map_if {α β : Type} [DecidableEq α] (k k' : α) (b : β) (l : List (α × β)) :
    (l.map fun e => if e.1 = k then (k, b) else e).lookup k' =
      if k' = k then (l.lookup k').map fun _ => b else l.lookup k' := by
  induction l with
  | nil => simp
  | cons e rest ih =>
    obtain ⟨k₀, b₀⟩ := e
    rw [List.map_cons]
    by_cases hfound : k' = k₀
    · subst hfound
      by_cases hk : k' = k
      · simp [hk]
      · simp [hk]
    · by_cases hk : k₀ = k
      · subst hk
        simpa [List.lookup_cons, beq_false_of_ne hfound, hfound] using ih
      · simpa [List.lookup_cons, beq_false_of_ne hfound, hk] using ih

/-- A request takes the first disturbance of its queue, and nothing of any other. -/
theorem queue_next (d : Disturbed σ) (kind other : RequestKind) :
    (d.next kind).2.queue other =
      if other = kind then (d.queue kind).tail else d.queue other := by
  unfold next
  split
  · rename_i head rest hlookup
    by_cases hkind : other = kind
    · subst hkind
      simp [queue, lookup_map_if, hlookup]
    · simp [queue, lookup_map_if, hkind]
  · rename_i hnone
    by_cases hkind : other = kind
    · subst hkind
      rw [if_pos rfl]
      unfold queue
      rcases hlookup : d.queues.lookup other with _ | ⟨_ | ⟨x, rest⟩⟩
      · rfl
      · rfl
      · exact absurd hlookup (hnone x rest)
    · rw [if_neg hkind]

theorem queue_next_suffix (d : Disturbed σ) (kind other : RequestKind) :
    (d.next kind).2.queue other <:+ d.queue other := by
  rw [queue_next]
  split
  · rename_i hkind
    subst hkind
    exact List.tail_suffix _
  · exact List.suffix_refl _

theorem queue_answer [Service σ] (r : Request) (d : Disturbed σ) (other : RequestKind) :
    (Service.answer r d).2.queue other = (d.next r.kind).2.queue other := by
  rw [queue, answer_queues, queue]

/-- A request of another kind leaves what is planned for a kind as it is. -/
theorem queue_answer_of_ne [Service σ] {r : Request} (hne : r.kind ≠ kind) :
    (Service.answer r d).2.queue kind = d.queue kind := by
  rw [queue_answer, queue_next, if_neg hne.symm]

/-! ## 2. Plans that are calm for a kind -/

/-- The plan lets every request of a kind through. -/
def IsCalmFor (d : Disturbed σ) (kind : RequestKind) : Prop :=
  ∀ x ∈ d.queue kind, x = none

theorem IsCalm.next (h : d.IsCalm) (kind : RequestKind) : (d.next kind).2.IsCalm := by
  intro q hq x hx
  obtain ⟨p, hp, -, hsub⟩ := next_queues hq
  exact h p hp x (hsub x hx)

theorem IsCalm.calmFor (h : d.IsCalm) (kind : RequestKind) : d.IsCalmFor kind := by
  intro x hx
  unfold queue at hx
  rcases hlookup : d.queues.lookup kind with _ | xs <;> rw [hlookup] at hx
  · cases hx
  · obtain ⟨l₁, l₂, hqueues, -⟩ := List.lookup_eq_some_iff.mp hlookup
    exact h (kind, xs) (by rw [hqueues]; simp) x hx

theorem IsCalmFor.of_suffix {d' : Disturbed σ} (h : d.IsCalmFor kind)
    (hsuffix : d'.queue kind <:+ d.queue kind) : d'.IsCalmFor kind :=
  fun x hx => h x (hsuffix.subset hx)

theorem IsCalmFor.answer [Service σ] (h : d.IsCalmFor kind) (r : Request) :
    (Service.answer r d).2.IsCalmFor kind :=
  h.of_suffix (queue_answer r d kind ▸ queue_next_suffix d r.kind kind)

/-! ## 3. Plans that have one request fail -/

/-- The plan lets the next `n` requests of a kind through. -/
def Lets (d : Disturbed σ) (kind : RequestKind) (n : Nat) : Prop :=
  ∀ x ∈ (d.queue kind).take n, x = none

/-- The plan lets `n` requests of a kind through and has the next one fail before it takes
effect. -/
structure FailsAfter (d : Disturbed σ) (kind : RequestKind) (n : Nat) (f : Failure) : Prop where
  lets : d.Lets kind n
  fails : (d.queue kind)[n]? = some (some ⟨false, .fails f⟩)

theorem IsCalmFor.lets (h : d.IsCalmFor kind) (n : Nat) : d.Lets kind n :=
  fun x hx => h x (List.mem_of_mem_take hx)

theorem Lets.next_eq_none (h : d.Lets kind n) (hn : 0 < n) : (d.next kind).1 = none := by
  rw [next_fst]
  rcases hqueue : d.queue kind with _ | ⟨x, rest⟩
  · rfl
  · refine h x ?_
    rw [hqueue, List.take_cons hn]
    exact List.mem_cons_self

theorem IsCalmFor.next_eq_none (h : d.IsCalmFor kind) : (d.next kind).1 = none :=
  (h.lets 1).next_eq_none Nat.one_pos

/-- Of the requests that are let through one is used up. -/
theorem Lets.tail {d' : Disturbed σ} (h : d.Lets kind (n + 1))
    (hqueue : d'.queue kind = (d.queue kind).tail) : d'.Lets kind n := by
  intro x hx
  rw [hqueue, ← List.drop_one, List.take_drop, Nat.add_comm] at hx
  exact h x (List.mem_of_mem_drop hx)

theorem FailsAfter.of_queue_eq {d' : Disturbed σ} (h : d.FailsAfter kind n f)
    (hqueue : d'.queue kind = d.queue kind) : d'.FailsAfter kind n f where
  lets x hx := h.lets x (hqueue ▸ hx)
  fails := hqueue ▸ h.fails

/-! ## 4. Answers -/

/-- An effect that is let through is that of the service itself. -/
theorem under_of_next {α : Type} {effect : σ → Except Failure α × σ}
    {replace : Outcome → Except Failure α} (h : (d.next kind).1 = none) :
    under kind effect replace d = ((effect d.service).1,
      { (d.next kind).2 with service := (effect d.service).2 }) := by
  have hservice := next_service d kind
  simp only [under]
  rcases hnext : d.next kind with ⟨x, d'⟩
  rw [hnext] at h hservice
  cases h
  rw [← hservice]

theorem answer_of_next [Service σ] {r : Request} (h : (d.next r.kind).1 = none) :
    Service.answer r d = ((Service.answer r d.service).1,
      { (d.next r.kind).2 with service := (Service.answer r d.service).2 }) :=
  under_of_next h

theorem pages_of_next [Service σ] (l : Listing) (h : (d.next .listObjects).1 = none) :
    Service.pages l d = ((Service.pages l d.service).1,
      { (d.next .listObjects).2 with service := (Service.pages l d.service).2 }) :=
  under_of_next h

/-- A request that fails before it takes effect leaves the service as it is. -/
theorem answer_of_head [Service σ] {r : Request}
    (h : (d.queue r.kind).head? = some (some ⟨false, .fails f⟩)) :
    (Service.answer r d).1 = .error f ∧ (Service.answer r d).2.service = d.service := by
  have hservice := next_service d r.kind
  have hfst := next_fst d r.kind
  rw [h] at hfst
  simp only [Service.answer, under]
  rcases hnext : d.next r.kind with ⟨x, d'⟩
  rw [hnext] at hfst hservice
  cases hfst
  exact ⟨rfl, hservice⟩

end Disturbed

/-! ## 5. Requests -/

namespace Context

variable {c : Context (Disturbed Store)} {r : Request} {v : Value} {s : Store} {f : Failure}

theorem asked_queue (c : Context (Disturbed Store)) (r : Request) (kind : RequestKind) :
    (c.asked r).service.queue kind =
      if kind = r.kind then (c.service.queue r.kind).tail else c.service.queue kind :=
  (Disturbed.queue_answer r c.service kind).trans (Disturbed.queue_next c.service r.kind kind)

theorem exchange_granted (hnext : (c.service.next r.kind).1 = none)
    (heffect : c.store.effect r = .ok (v, s)) :
    (c.exchange r).answer = .ok v ∧ (c.asked r).store = s := by
  have hown : Service.answer r c.service.service = (.ok v, s) := by
    simp only [Service.answer]
    rw [show c.service.service.effect r = .ok (v, s) from heffect]
  have hanswer := Disturbed.answer_of_next hnext
  rw [hown] at hanswer
  exact ⟨congrArg Prod.fst hanswer, congrArg (fun p => p.2.service) hanswer⟩

theorem exchange_refused (hnext : (c.service.next r.kind).1 = none)
    (heffect : c.store.effect r = .error f) :
    (c.exchange r).answer = .error f ∧ (c.asked r).store = c.store := by
  have hown : Service.answer r c.service.service = (.error f, c.service.service) := by
    simp only [Service.answer]
    rw [show c.service.service.effect r = .error f from heffect]
  have hanswer := Disturbed.answer_of_next hnext
  rw [hown] at hanswer
  exact ⟨congrArg Prod.fst hanswer, congrArg (fun p => p.2.service) hanswer⟩

/-- A request that fails before it takes effect. -/
theorem exchange_failed
    (hhead : (c.service.queue r.kind).head? = some (some ⟨false, .fails f⟩)) :
    (c.exchange r).answer = .error f ∧ (c.asked r).store = c.store :=
  Disturbed.answer_of_head hhead

end Context

namespace Run

variable {α : Type} {c : Context (Disturbed Store)} {x : Run (Disturbed Store) α}
  {action : Action} {r : Request} {decode : Value → Except Error α} {v : Value} {s : Store}
  {f : Failure} {p : Request → Prop} {kind : RequestKind}

/-- An action whose request is granted is the decoded answer. -/
theorem Decodes.granted (h : x.Decodes action r decode)
    (hnext : (c.service.next r.kind).1 = none) (heffect : c.store.effect r = .ok (v, s)) :
    x.execute c = (decode v, c.asked r) ∧ (c.asked r).store = s := by
  obtain ⟨hanswer, hstore⟩ := c.exchange_granted hnext heffect
  exact ⟨by rw [h c, Exchange.decoded_of_ok hanswer], hstore⟩

/-- An action whose request is refused fails with the refusal. -/
theorem Decodes.refused (h : x.Decodes action r decode)
    (hnext : (c.service.next r.kind).1 = none) (heffect : c.store.effect r = .error f) :
    x.execute c = (.error (.storage (.failed action f)), c.asked r) ∧
      (c.asked r).store = c.store := by
  obtain ⟨hanswer, hstore⟩ := c.exchange_refused hnext heffect
  exact ⟨by rw [h c, Exchange.decoded_of_error hanswer], hstore⟩

/-- A run that sends no request of a kind leaves what is planned for the kind as it is. -/
theorem Quiet.queue_eq (h : x.Quiet p) (hp : ∀ r, p r → r.kind ≠ kind)
    (c : Context (Disturbed Store)) :
    (x.execute c).2.service.queue kind = c.service.queue kind :=
  h.keeps (P := fun d => d.queue kind = c.service.queue kind)
    (fun _ _ hr hd => (Disturbed.queue_answer_of_ne (hp _ hr)).trans hd) rfl

theorem Quiet.calmFor (h : x.Quiet p) (hcalm : c.service.IsCalmFor kind) :
    (x.execute c).2.service.IsCalmFor kind :=
  h.keeps (P := fun d => d.IsCalmFor kind) (fun r _ _ hd => hd.answer r) hcalm

theorem Quiet.leads (h : x.Quiet p) (hf : c.service.FailsOnly) : c.Leads (x.execute c).2 where
  failsOnly := h.keeps (P := Disturbed.FailsOnly)
    (fun r _ _ hd => Disturbed.Within.answer hd r) hf
  calm hcalm := h.keeps (P := Disturbed.IsCalm) (fun r _ _ hd => hd.answer r) hcalm
  capacity := by
    obtain ⟨_, -, hpool, -⟩ := h c
    rw [hpool]

end Run

end ResumableStorage
