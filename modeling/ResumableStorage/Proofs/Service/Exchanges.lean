/-
  ResumableStorage/Proofs/Service/Exchanges.lean
  ==============================================
  **What a service was asked** — a run puts every request on record before it is
  answered, and changes the service by nothing else.  So the service that each request
  met can be told from the record, and a statement on a run can speak of every request
  that it has sent, of the answer, and of the state in which the service was then.

  All of it holds for every service.
-/
import ResumableStorage.Proofs.Execution

namespace ResumableStorage

/-! ## 1. Exchanges -/

/-- A request and the service that it met. -/
structure Exchange (σ : Type) where
  request : Request
  service : σ

variable {σ α β : Type} [Service σ]

namespace Exchange

def answer (x : Exchange σ) : Except Failure Value :=
  (Service.answer x.request x.service).1

/-- The service once it has answered. -/
def next (x : Exchange σ) : σ :=
  (Service.answer x.request x.service).2

/-- The answer as an action gets it: a failure is its error, and what is answered is decoded. -/
def decoded (x : Exchange σ) (action : Action) (decode : Value → Except Error α) :
    Except Error α :=
  x.answer.mapError (fun f => .storage (.failed action f)) >>= decode

variable {x : Exchange σ} {action : Action} {decode : Value → Except Error α}

theorem decoded_of_ok {v : Value} (h : x.answer = .ok v) : x.decoded action decode = decode v := by
  rw [decoded, h]
  rfl

theorem decoded_of_error {f : Failure} (h : x.answer = .error f) :
    x.decoded action decode = .error (.storage (.failed action f)) := by
  rw [decoded, h]
  rfl

/-- What was decoded was answered. -/
theorem answer_of_decoded {a : α} (h : x.decoded action decode = .ok a) :
    ∃ v, x.answer = .ok v ∧ decode v = .ok a := by
  rcases hanswer : x.answer with f | v
  · rw [decoded_of_error hanswer] at h
    cases h
  · rw [decoded_of_ok hanswer] at h
    exact ⟨v, rfl, h⟩

/-- Each exchange meets the service that the one before has left; the first meets `s`, and the last
leaves `s'`. -/
def Chain : σ → List (Exchange σ) → σ → Prop
  | s, [], s' => s' = s
  | s, x :: rest, s' => x.service = s ∧ Chain x.next rest s'

variable {s s' : σ} {xs ys : List (Exchange σ)}

theorem chain_append : Chain s (xs ++ ys) s' ↔ ∃ m, Chain s xs m ∧ Chain m ys s' := by
  induction xs generalizing s with
  | nil => simp [Chain]
  | cons x rest ih =>
    simp only [List.cons_append, Chain, ih]
    constructor
    · rintro ⟨hx, m, hrest, hys⟩
      exact ⟨m, ⟨hx, hrest⟩, hys⟩
    · rintro ⟨m, ⟨hx, hrest⟩, hys⟩
      exact ⟨hx, m, hrest, hys⟩

/-- A relation between states of the service that every exchange keeps holds from the first to the
last. -/
theorem Chain.related (h : Chain s xs s') {R : σ → σ → Prop} (hrefl : ∀ s, R s s)
    (htrans : ∀ {s₁ s₂ s₃}, R s₁ s₂ → R s₂ s₃ → R s₁ s₃)
    (heach : ∀ x ∈ xs, R x.service x.next) : R s s' := by
  induction xs generalizing s with
  | nil =>
    rw [show s' = s from h]
    exact hrefl s
  | cons x rest ih =>
    obtain ⟨rfl, hrest⟩ := h
    have hfirst := heach x List.mem_cons_self
    exact htrans hfirst (ih hrest fun y hy => heach y (List.mem_cons_of_mem _ hy))

/-- What every exchange keeps of the service holds of each service that is met, and of the last. -/
theorem Chain.keeps (h : Chain s xs s') {p : σ → Prop} (hs : p s)
    (heach : ∀ x ∈ xs, p x.service → p x.next) : (∀ x ∈ xs, p x.service) ∧ p s' := by
  induction xs generalizing s with
  | nil =>
    rw [show s' = s from h]
    exact ⟨by simp, hs⟩
  | cons x rest ih =>
    obtain ⟨rfl, hrest⟩ := h
    obtain ⟨hall, hlast⟩ := ih hrest (heach x List.mem_cons_self hs) fun y hy =>
      heach y (List.mem_cons_of_mem _ hy)
    refine ⟨?_, hlast⟩
    intro y hy
    rcases List.mem_cons.mp hy with rfl | hy
    · exact hs
    · exact hall y hy

end Exchange

/-! ## 2. From the record -/

namespace Event

/-- What an event leaves of the service that it met. -/
def leave : Event → σ → σ
  | sent r, s => (Service.answer r s).2
  | listed l, s => (Service.pages l s).2
  | released, s => s

/-- The requests among events, each with the service that it met when `s` met the first event. -/
def exchanges : List Event → σ → List (Exchange σ)
  | [], _ => []
  | sent r :: rest, s => ⟨r, s⟩ :: exchanges rest (leave (sent r) s)
  | listed l :: rest, s => exchanges rest (leave (listed l) s)
  | released :: rest, s => exchanges rest s

end Event

namespace Context

variable {a b c c' : Context σ} {xs ys : List (Exchange σ)}

/-- The requests on record in `c'` and not yet in `c`, each with the service that it met. -/
def exchanges (c c' : Context σ) : List (Exchange σ) :=
  Event.exchanges (c'.trace.drop c.trace.length) c.service

/-- From one context to the other the service was asked `xs`, and changed by nothing else. -/
structure Asks (c c' : Context σ) (xs : List (Exchange σ)) : Prop where
  chain : Exchange.Chain c.service xs c'.service
  /-- The record grows by events whose requests are `xs`, whatever follows them. -/
  record : ∃ events, c'.trace = c.trace ++ events ∧
    ∀ more, Event.exchanges (events ++ more) c.service =
      xs ++ Event.exchanges more c'.service

theorem Asks.exchanges_eq (h : c.Asks c' xs) : c.exchanges c' = xs := by
  obtain ⟨events, htrace, hevents⟩ := h.record
  have hall := hevents []
  simp only [List.append_nil, Event.exchanges] at hall
  rw [exchanges, htrace, List.drop_left, hall]

/-- Nothing was asked when the service and the record are the same. -/
theorem Asks.nothing (htrace : c'.trace = c.trace) (hservice : c'.service = c.service) :
    c.Asks c' [] :=
  ⟨hservice, [], by rw [htrace, List.append_nil], by rw [hservice]; simp⟩

theorem Asks.refl (c : Context σ) : c.Asks c [] := .nothing rfl rfl

theorem Asks.trans (h : a.Asks b xs) (h' : b.Asks c ys) : a.Asks c (xs ++ ys) := by
  obtain ⟨events, htrace, hevents⟩ := h.record
  obtain ⟨events', htrace', hevents'⟩ := h'.record
  refine ⟨Exchange.chain_append.mpr ⟨_, h.chain, h'.chain⟩, events ++ events', ?_, ?_⟩
  · rw [htrace', htrace, List.append_assoc]
  · intro more
    rw [List.append_assoc, hevents, hevents', List.append_assoc]

/-- What follows without a request. -/
theorem Asks.then_nothing (h : a.Asks b xs) (htrace : c.trace = b.trace)
    (hservice : c.service = b.service) : a.Asks c xs := by
  have hnothing := h.trans (.nothing htrace hservice)
  rwa [List.append_nil] at hnothing

/-! ## 3. One request -/

/-- A request, met by the service as it is. -/
def exchange (c : Context σ) (r : Request) : Exchange σ := ⟨r, c.service⟩

/-- The context once the service has answered a request. -/
def asked (c : Context σ) (r : Request) : Context σ :=
  { c with trace := c.trace ++ [.sent r], service := (c.exchange r).next }

theorem asks_asked (c : Context σ) (r : Request) : c.Asks (c.asked r) [c.exchange r] :=
  ⟨⟨rfl, rfl⟩, [.sent r], rfl, fun _ => rfl⟩

end Context

namespace Run

/-- The run is one request, and its result is the answer, decoded. -/
def Decodes (x : Run σ α) (action : Action) (r : Request) (decode : Value → Except Error α) :
    Prop :=
  ∀ c : Context σ, x.execute c = ((c.exchange r).decoded action decode, c.asked r)

theorem decodes_send_bind {action : Action} {r : Request} {decode : Value → Except Error α}
    {f : Value → Run σ α} (hf : ∀ v c, (f v).execute c = (decode v, c)) :
    (send action r >>= f).Decodes action r decode := by
  intro c
  have hsend : (send action r).execute c = ((c.exchange r).answer.mapError
      (fun f => .storage (.failed action f)), c.asked r) := execute_send action r c
  rw [execute_bind, hsend, Exchange.decoded]
  rcases (c.exchange r).answer with f | v
  · rfl
  · exact hf v _

/-! ## 4. Runs that ask requests of one sort -/

/-- The run asks only requests that satisfy `p`, and leaves the pool alone. -/
def AsksOnly (x : Run σ α) (p : Request → Prop) : Prop :=
  ∀ c, ∃ xs, c.Asks (x.execute c).2 xs ∧ (x.execute c).2.pool = c.pool ∧ ∀ y ∈ xs, p y.request

/-- The run asks only requests that satisfy `p`, and leaves the pool and the counters alone. -/
def Quiet (x : Run σ α) (p : Request → Prop) : Prop :=
  ∀ c, ∃ xs, c.Asks (x.execute c).2 xs ∧ (x.execute c).2.pool = c.pool ∧
    (x.execute c).2.meters = c.meters ∧ ∀ y ∈ xs, p y.request

variable {p q : Request → Prop} {x : Run σ α}

theorem Quiet.asksOnly (h : x.Quiet p) : x.AsksOnly p := by
  intro c
  obtain ⟨xs, hasks, hpool, -, hall⟩ := h c
  exact ⟨xs, hasks, hpool, hall⟩

theorem Quiet.mono (h : x.Quiet p) (hpq : ∀ r, p r → q r) : x.Quiet q := by
  intro c
  obtain ⟨xs, hasks, hpool, hmeters, hall⟩ := h c
  exact ⟨xs, hasks, hpool, hmeters, fun y hy => hpq _ (hall y hy)⟩

theorem Decodes.quiet {action : Action} {r : Request} {decode : Value → Except Error α}
    (h : x.Decodes action r decode) (hr : p r) : x.Quiet p := by
  intro c
  rw [h c]
  refine ⟨[c.exchange r], c.asks_asked r, rfl, rfl, ?_⟩
  intro y hy
  rw [List.mem_singleton.mp hy]
  exact hr

theorem quiet_pure (a : α) : (pure a : Run σ α).Quiet p :=
  fun c => ⟨[], .refl c, rfl, rfl, by simp⟩

theorem quiet_throw (e : Error) : (throw e : Run σ α).Quiet p :=
  fun c => ⟨[], .refl c, rfl, rfl, by simp⟩

theorem quiet_get : (get : Run σ (Context σ)).Quiet p :=
  fun c => ⟨[], .refl c, rfl, rfl, by simp⟩

theorem quiet_report (n : Notice) : (report n : Run σ Unit).Quiet p :=
  fun _ => ⟨[], .nothing rfl rfl, rfl, rfl, by simp⟩

theorem quiet_decoded (x : Except Malformed α) : (decoded x : Run σ α).Quiet p := by
  intro c
  rw [execute_decoded]
  exact ⟨[], .refl c, rfl, rfl, by simp⟩

/-- The release of a body is on record without being a request. -/
theorem quiet_released : (record .released : Run σ Unit).Quiet p :=
  fun _ => ⟨[], ⟨rfl, [.released], rfl, fun _ => rfl⟩, rfl, rfl, by simp⟩

theorem Quiet.bind {f : α → Run σ β} (hx : x.Quiet p) (hf : ∀ a, (f a).Quiet p) :
    (x >>= f).Quiet p := by
  intro c
  obtain ⟨xs, hasks, hpool, hmeters, hall⟩ := hx c
  rw [execute_bind]
  rcases hrun : x.execute c with ⟨e | a, c₁⟩ <;> rw [hrun] at hasks hpool hmeters
  · exact ⟨xs, hasks, hpool, hmeters, hall⟩
  · obtain ⟨ys, hasks', hpool', hmeters', hall'⟩ := hf a c₁
    refine ⟨xs ++ ys, hasks.trans hasks', hpool'.trans hpool, hmeters'.trans hmeters, ?_⟩
    intro y hy
    exact (List.mem_append.mp hy).elim (hall y) (hall' y)

theorem Quiet.tryCatch {f : Error → Run σ α} (hx : x.Quiet p) (hf : ∀ e, (f e).Quiet p) :
    (tryCatch x f).Quiet p := by
  intro c
  obtain ⟨xs, hasks, hpool, hmeters, hall⟩ := hx c
  rw [execute_tryCatch]
  rcases hrun : x.execute c with ⟨e | a, c₁⟩ <;> rw [hrun] at hasks hpool hmeters
  · obtain ⟨ys, hasks', hpool', hmeters', hall'⟩ := hf e c₁
    refine ⟨xs ++ ys, hasks.trans hasks', hpool'.trans hpool, hmeters'.trans hmeters, ?_⟩
    intro y hy
    exact (List.mem_append.mp hy).elim (hall y) (hall' y)
  · exact ⟨xs, hasks, hpool, hmeters, hall⟩

theorem Quiet.notFoundAs (hx : x.Quiet p) (path : String) : (notFoundAs path x).Quiet p :=
  hx.tryCatch fun _ => quiet_throw _

theorem Quiet.discard (hx : x.Quiet p) : (discard x).Quiet p := by
  intro c
  obtain ⟨xs, hasks, hrest⟩ := hx c
  rw [execute_discard]
  exact ⟨xs, hasks, hrest⟩

theorem Quiet.forM {f : α → Run σ PUnit} {l : List α} (hf : ∀ a ∈ l, (f a).Quiet p) :
    (l.forM f).Quiet p := by
  induction l with
  | nil => exact quiet_pure _
  | cons a rest ih =>
    exact (hf a List.mem_cons_self).bind fun _ => ih fun b hb => hf b (List.mem_cons_of_mem _ hb)

/-- What requests that satisfy `p` keep of a service, a run that asks only these keeps. -/
theorem Quiet.keeps {P : σ → Prop} (h : x.Quiet p)
    (hP : ∀ r s, p r → P s → P (Service.answer r s).2) {c : Context σ} (hc : P c.service) :
    P (x.execute c).2.service := by
  obtain ⟨xs, hasks, -, -, hall⟩ := h c
  exact (hasks.chain.keeps hc fun y hy => hP y.request y.service (hall y hy)).2

end Run

/-! ## 5. Runs of a writer -/

namespace Writing

variable {P : Exchange σ → Prop} {x : Writing σ α} {f : α → Writing σ β} {w w' : Writer}
  {c c' : Context σ}

/-- Every exchange of the run that starts here satisfies `P`. -/
def Asking (x : Writing σ α) (P : Exchange σ → Prop) (w : Writer) (c : Context σ) : Prop :=
  ∃ xs, c.Asks (x.execute w c).2.2 xs ∧ ∀ y ∈ xs, P y

theorem Asking.of_asks {xs : List (Exchange σ)} (h : c.Asks (x.execute w c).2.2 xs)
    (hxs : ∀ y ∈ xs, P y) : x.Asking P w c :=
  ⟨xs, h, hxs⟩

theorem Asking.of_nothing (h : c.Asks (x.execute w c).2.2 []) : x.Asking P w c :=
  ⟨[], h, by simp⟩

theorem Asking.exchanges (h : x.Asking P w c) :
    ∀ y ∈ c.exchanges (x.execute w c).2.2, P y := by
  obtain ⟨xs, hasks, hall⟩ := h
  rwa [hasks.exchanges_eq]

theorem asking_pure (a : α) : (pure a : Writing σ α).Asking P w c := .of_nothing (.refl c)

theorem asking_throw (e : Error) : (throw e : Writing σ α).Asking P w c := .of_nothing (.refl c)

theorem asking_change (f : Writer → Writer) : (change f : Writing σ Unit).Asking P w c :=
  .of_nothing (.refl c)

theorem asking_writer : (writer : Writing σ Writer).Asking P w c := .of_nothing (.refl c)

theorem Asking.bind (hx : x.Asking P w c)
    (hf : ∀ a w₁ c₁, x.execute w c = (.ok a, w₁, c₁) → (f a).Asking P w₁ c₁) :
    (x >>= f).Asking P w c := by
  obtain ⟨xs, hasks, hall⟩ := hx
  rw [Asking, execute_bind]
  rcases hrun : x.execute w c with ⟨e | a, w₁, c₁⟩ <;> rw [hrun] at hasks
  · exact ⟨xs, hasks, hall⟩
  · obtain ⟨ys, hasks', hall'⟩ := hf a w₁ c₁ hrun
    refine ⟨xs ++ ys, hasks.trans hasks', ?_⟩
    intro y hy
    exact (List.mem_append.mp hy).elim (hall y) (hall' y)

theorem Asking.discard (h : x.Asking P w c) : (discard x).Asking P w c := by
  rw [Asking, execute_discard]
  exact h

theorem Asking.attempt (h : x.Asking P w c) : (attempt x).Asking P w c := by
  rw [Asking, execute_attempt]
  exact h

end Writing

end ResumableStorage
