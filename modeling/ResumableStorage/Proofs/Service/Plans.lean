/-
  ResumableStorage/Proofs/Service/Plans.lean
  ==========================================
  **Exchanges with a disturbed store** — what the store is after a request, and what an
  answer tells of it, under plans of three sorts: any failures, failures that come before
  the effect of their request, and such failures of everything but the dropping of an
  upload.
-/
import ResumableStorage.Proofs.Service.Exchanges
import ResumableStorage.Proofs.Service.Failing

namespace ResumableStorage

/-! ## 1. Plans -/

namespace Disturbance

/-- A failure that comes before the effect. -/
def Early (kind : RequestKind) (x : Disturbance) : Prop :=
  Fails kind x ∧ x.afterEffect = false

/-- A failure that comes before the effect, of anything but the dropping of an upload. -/
def SparesAborts (kind : RequestKind) (x : Disturbance) : Prop :=
  Early kind x ∧ kind ≠ .abortUpload

end Disturbance

namespace Disturbed

variable {d : Disturbed Store}

theorem Within.fails_of_early (h : d.Within Disturbance.Early) : d.Within Disturbance.Fails :=
  h.mono fun _ _ hx => hx.1

theorem Within.early_of_sparesAborts (h : d.Within Disturbance.SparesAborts) :
    d.Within Disturbance.Early :=
  h.mono fun _ _ hx => hx.1

namespace Answers

variable {r : Request} {answer : Except Failure Value} {s : Store} {v : Value} {f : Failure}

/-- Under every plan the store is left as it was or as the request makes it. -/
theorem store_cases (h : d.Answers r answer s) :
    s = d.service ∨ ∃ v, d.service.effect r = .ok (v, s) := by
  cases h with
  | granted hnext heffect => exact .inr ⟨_, heffect⟩
  | refused heffect => exact .inl rfl
  | before hnext hx => exact .inl rfl
  | after hnext hx heffect => exact .inr ⟨_, heffect⟩

/-- Where requests only fail, an answer is the store's own. -/
theorem effect_of_ok (h : d.Answers r answer s) (hplan : d.Within Disturbance.Fails)
    (hkind : r.kind ≠ .getObject) (hanswer : answer = .ok v) : d.service.effect r = .ok (v, s) := by
  have hfails : ∀ {x : Disturbance}, (d.next r.kind).1 = some x → x.outcome.toAnswer ≠ .ok v := by
    intro x hnext
    have hx := hplan.sort_of_next hnext
    generalize r.kind = kind at hx hkind
    cases hx with
    | error kind afterEffect f => simp [Outcome.toAnswer]
    | body afterEffect content f => exact absurd rfl hkind
  cases h with
  | granted hnext heffect =>
    cases hanswer
    exact heffect
  | refused heffect => cases hanswer
  | before hnext hx => exact absurd hanswer (hfails hnext)
  | after hnext hx heffect => exact absurd hanswer (hfails hnext)

/-- Where failures come before the effect, an error leaves the store as it was. -/
theorem store_of_error (h : d.Answers r answer s) (hplan : d.Within Disturbance.Early)
    (hanswer : answer = .error f) : s = d.service := by
  cases h with
  | granted hnext heffect => cases hanswer
  | refused heffect => rfl
  | before hnext hx => rfl
  | after hnext hx heffect =>
    have hearly := (hplan.sort_of_next hnext).2
    rw [hx] at hearly
    cases hearly

/-- Where the dropping of an upload is never disturbed, it is done or the store has refused it. -/
theorem effect_of_abort (h : d.Answers r answer s) (hplan : d.Within Disturbance.SparesAborts)
    (hkind : r.kind = .abortUpload) :
    (∃ v, d.service.effect r = .ok (v, s)) ∨ ∃ f, d.service.effect r = .error f ∧ s = d.service := by
  cases h with
  | granted hnext heffect => exact .inl ⟨_, heffect⟩
  | refused heffect => exact .inr ⟨_, heffect, rfl⟩
  | before hnext hx => exact absurd hkind (hplan.sort_of_next hnext).2
  | after hnext hx heffect => exact absurd hkind (hplan.sort_of_next hnext).2

end Answers

end Disturbed

/-! ## 2. Exchanges -/

namespace Exchange

variable {x : Exchange (Disturbed Store)} {xs : List (Exchange (Disturbed Store))}
  {d d' : Disturbed Store} {sort : RequestKind → Disturbance → Prop} {v : Value} {f : Failure}

/-- The store that the request met. -/
def store (x : Exchange (Disturbed Store)) : Store := x.service.service

/-- The store that the exchange has left. -/
def storeAfter (x : Exchange (Disturbed Store)) : Store := x.next.service

theorem answers (x : Exchange (Disturbed Store)) :
    x.service.Answers x.request x.answer x.storeAfter :=
  Disturbed.answer_answers x.service x.request

theorem Chain.within (h : Chain d xs d') (hd : d.Within sort) :
    (∀ x ∈ xs, x.service.Within sort) ∧ d'.Within sort :=
  h.keeps (p := fun d => d.Within sort) hd fun x _ hx => Disturbed.Within.answer hx x.request

variable {α : Type} {action : Action} {decode : Value → Except Error α}

/-- Where requests only fail, what was decoded is the store's own answer. -/
theorem effect_of_decoded (hplan : x.service.Within Disturbance.Fails)
    (hkind : x.request.kind ≠ .getObject) {a : α} (h : x.decoded action decode = .ok a) :
    ∃ v, x.store.effect x.request = .ok (v, x.storeAfter) ∧ decode v = .ok a := by
  obtain ⟨v, hanswer, hdecode⟩ := answer_of_decoded h
  exact ⟨v, x.answers.effect_of_ok hplan hkind hanswer, hdecode⟩

/-- An action fails by the failure of its request when it can decode what a store answers of its
own accord. -/
theorem answer_of_decoded_error (hplan : x.service.Within Disturbance.Fails)
    (hkind : x.request.kind ≠ .getObject)
    (hdecode : ∀ v s, x.store.effect x.request = .ok (v, s) → ∃ a, decode v = .ok a) {e : Error}
    (h : x.decoded action decode = .error e) :
    ∃ f, x.answer = .error f ∧ e = .storage (.failed action f) := by
  rcases hanswer : x.answer with f | v
  · rw [decoded_of_error hanswer, Except.error.injEq] at h
    exact ⟨f, rfl, h.symm⟩
  · obtain ⟨a, ha⟩ := hdecode v _ (x.answers.effect_of_ok hplan hkind hanswer)
    rw [decoded_of_ok hanswer, ha] at h
    cases h

end Exchange

end ResumableStorage
