/-
  ResumableStorage/Proofs/Service/Sweeps.lean
  ===========================================
  **Sweeps** — a run that goes through a list and sends one request for each item, until
  one of them fails.  Without a failure the store is changed for every item, in order;
  with a failure it is changed for the items before, and no further request is sent.
-/
import ResumableStorage.Proofs.Service.Queues

namespace ResumableStorage

variable {α : Type}

/-- The requests of a sweep and what each of them changes.  A store is `ready` for the items that
are left when it grants the request of the next one, and is ready for the others afterwards. -/
structure Sweep (α : Type) where
  action : Action
  kind : RequestKind
  request : α → Request
  change : Store → α → Store
  ready : Store → List α → Prop
  kind_request : ∀ a, (request a).kind = kind
  effect_request : ∀ {s a rest}, ready s (a :: rest) →
    (s.effect (request a) = .ok (.object [], change s a)) ∧ ready (change s a) rest

namespace Sweep

variable {w : Sweep α} {body : α → Run (Disturbed Store) PUnit} {c c' : Context (Disturbed Store)}
  {items front rest : List α} {a : α} {n : Nat} {f : Failure}

/-- For each item the run sends the request, and besides this it only reports. -/
def RunBy (w : Sweep α) (body : α → Run (Disturbed Store) PUnit) : Prop :=
  ∃ decode : α → Value → Except Error PUnit, (∀ a, decode a (.object []) = .ok ()) ∧
    ∀ a c, ∃ notices, (body a).execute c =
      ((c.exchange (w.request a)).decoded w.action (decode a),
        { c.asked (w.request a) with notices := notices })

/-- The requests for `items` have been sent, and the store was changed for those in `done`. -/
structure Swept (w : Sweep α) (c : Context (Disturbed Store)) (done items : List α)
    (c' : Context (Disturbed Store)) : Prop where
  store : c'.store = done.foldl w.change c.store
  trace : c'.trace = c.trace ++ items.map fun a => .sent (w.request a)
  queue : ∀ kind, c'.service.queue kind =
    if kind = w.kind then (c.service.queue kind).drop items.length else c.service.queue kind
  calm : c.service.IsCalm → c'.service.IsCalm

theorem swept_nil (c : Context (Disturbed Store)) : w.Swept c [] [] c :=
  ⟨rfl, (List.append_nil _).symm, fun kind => by simp, id⟩

/-- The context in which a request was answered, whatever was reported then. -/
theorem swept_asked {done : List α} (c : Context (Disturbed Store)) (notices : List Notice)
    (hstore : (c.asked (w.request a)).store = done.foldl w.change c.store) :
    w.Swept c done [a] { c.asked (w.request a) with notices := notices } where
  store := hstore
  trace := rfl
  queue kind := by
    change (c.asked (w.request a)).service.queue kind = _
    rw [c.asked_queue, w.kind_request]
    by_cases hkind : kind = w.kind
    · rw [if_pos hkind, if_pos hkind, hkind, List.length_singleton, List.drop_one]
    · rw [if_neg hkind, if_neg hkind]
  calm h := h.answer _

theorem Swept.trans {c₁ : Context (Disturbed Store)} {done done' items' : List α}
    (h : w.Swept c done items c₁) (h' : w.Swept c₁ done' items' c') :
    w.Swept c (done ++ done') (items ++ items') c' where
  store := by rw [h'.store, h.store, List.foldl_append]
  trace := by rw [h'.trace, h.trace, List.map_append, List.append_assoc]
  queue kind := by
    rw [h'.queue, h.queue, List.length_append]
    split
    · rw [List.drop_drop]
    · rfl
  calm hcalm := h'.calm (h.calm hcalm)

/-- One item of which the request is let through. -/
theorem RunBy.step (h : w.RunBy body) (hready : w.ready c.store (a :: rest))
    (hnext : (c.service.next w.kind).1 = none) :
    ∃ c', (body a).execute c = (.ok (), c') ∧ w.Swept c [a] [a] c' ∧ w.ready c'.store rest := by
  obtain ⟨decode, hdecode, hbody⟩ := h
  obtain ⟨heffect, hrest⟩ := w.effect_request hready
  obtain ⟨hanswer, hstore⟩ := c.exchange_granted (w.kind_request a ▸ hnext) heffect
  obtain ⟨notices, hrun⟩ := hbody a c
  rw [Exchange.decoded_of_ok hanswer, hdecode] at hrun
  have hswept : w.Swept c [a] [a] { c.asked (w.request a) with notices := notices } :=
    swept_asked c notices hstore
  refine ⟨_, hrun, hswept, ?_⟩
  rw [hswept.store]
  exact hrest

/-- As long as requests are let through the run goes on. -/
theorem RunBy.forM_front (h : w.RunBy body) (hready : w.ready c.store (front ++ rest))
    (hlets : c.service.Lets w.kind front.length) :
    ∃ c', (front.forM body).execute c = (.ok (), c') ∧ w.Swept c front front c' ∧
      w.ready c'.store rest := by
  induction front generalizing c with
  | nil => exact ⟨c, rfl, swept_nil c, hready⟩
  | cons a front ih =>
    obtain ⟨c₁, hstep, hswept₁, hready₁⟩ :=
      h.step hready (hlets.next_eq_none (by simp))
    have hlets₁ : c₁.service.Lets w.kind front.length := hlets.tail <| by
      rw [hswept₁.queue, if_pos rfl, List.length_singleton, List.drop_one]
    obtain ⟨c', hrest, hswept, hready'⟩ := ih hready₁ hlets₁
    refine ⟨c', ?_, hswept₁.trans hswept, hready'⟩
    change (body a >>= fun _ => front.forM body).execute c = _
    simp only [Run.execute_bind, hstep, hrest]

theorem RunBy.forM_returns (h : w.RunBy body) (hready : w.ready c.store items)
    (hlets : c.service.Lets w.kind items.length) :
    ∃ c', (items.forM body).execute c = (.ok (), c') ∧ w.Swept c items items c' := by
  rw [← List.append_nil items] at hready
  obtain ⟨c', hrun, hswept, -⟩ := h.forM_front hready hlets
  exact ⟨c', hrun, hswept⟩

/-- Where the request of an item fails before it takes effect, the items before it are done, it is
the last that a request is sent for, and its failure is that of the run. -/
theorem RunBy.forM_fails (h : w.RunBy body) (hready : w.ready c.store items)
    (hplan : c.service.FailsAfter w.kind n f) (hn : n < items.length) :
    ∃ c', (items.forM body).execute c = (.error (.storage (.failed w.action f)), c') ∧
      w.Swept c (items.take n) (items.take (n + 1)) c' := by
  obtain ⟨decode, -, hbody⟩ := id h
  have hlength : (items.take n).length = n := List.length_take_of_le hn.le
  have hsplit : items = items.take n ++ items[n] :: items.drop (n + 1) := by
    rw [List.getElem_cons_drop, List.take_append_drop]
  have hready' : w.ready c.store (items.take n ++ items[n] :: items.drop (n + 1)) := by
    rwa [← hsplit]
  obtain ⟨c₁, hfront, hswept₁, -⟩ := h.forM_front hready' (hlength.symm ▸ hplan.lets)
  have hhead : (c₁.service.queue (w.request items[n]).kind).head? =
      some (some ⟨false, .fails f⟩) := by
    rw [w.kind_request, hswept₁.queue, if_pos rfl, hlength, List.head?_drop, hplan.fails]
  obtain ⟨hanswer, hstore⟩ := c₁.exchange_failed hhead
  obtain ⟨notices, hrun⟩ := hbody items[n] c₁
  rw [Exchange.decoded_of_error hanswer] at hrun
  have hswept : w.Swept c₁ [] [items[n]]
      { c₁.asked (w.request items[n]) with notices := notices } := swept_asked c₁ notices hstore
  have hswept₂ := hswept₁.trans hswept
  rw [List.append_nil, List.take_append_getElem] at hswept₂
  refine ⟨_, ?_, hswept₂⟩
  conv_lhs => rw [hsplit]
  rw [List.forM_eq_forM] at hfront ⊢
  rw [List.forM_append]
  simp only [Run.execute_bind, hfront, List.forM_cons, hrun]

end Sweep

end ResumableStorage
