/-
  ResumableStorage/Proofs/Upload/OpenUploads.lean
  ===============================================
  **No upload is left open** — of all uploads that a writer was opened on or has created
  at most one is open in the store, its present one, and none once it is committed or
  cancelled.  An upload that stays open keeps its parts, and may be found again by
  another writer.

  This holds when failures come before the effect of their request and the dropping of
  an upload is not disturbed.
-/
import ResumableStorage.Proofs.Upload.Outcomes
import ResumableStorage.Proofs.Upload.Turns

namespace ResumableStorage

theorem Request.Carries.kind_ne {r : Request} (h : r.Carries) : r.kind ≠ .createUpload := by
  rcases h with h | h | h <;> simp [h]

namespace Writer

variable {w w' w₀ : Writer} {c c' c₀ : Context (Disturbed Store)} {op : Operation}
  {result : Except Error Unit} {xs : List (Exchange (Disturbed Store))}
  {turns : List (Turn (Disturbed Store))} {d d' : Disturbed Store} {mine : List String}
  {t : Keyed Int Bytes}

/-! ## 1. The uploads of a writer -/

/-- The upload that a writer was opened on, and those that were created in exchanges. -/
def owned (w₀ : Writer) (xs : List (Exchange (Disturbed Store))) : List String :=
  w₀.session.uploadId :: xs.flatMap Exchange.created

/-- Of the uploads that are owned only the present one can be open, and it is not once the writer is
finished for good or a failed repair has completed it. -/
structure OneOpen (w : Writer) (s : Store) (mine : List String) : Prop where
  ids : s.IdsInOrder
  known : ∀ id ∈ mine, s.Knows id w.session.key
  current : w.session.uploadId ∈ mine
  only : ∀ id ∈ mine, s.IsOpen id → id = w.session.uploadId
  shut : w.phase = .committed ∨ w.phase = .cancelled ∨ w.sourceCompleted = true →
    ¬ s.IsOpen w.session.uploadId

theorem OneOpen.knows_session (h : w.OneOpen d.service mine) :
    d.service.Knows w.session.uploadId w.session.key :=
  h.known _ h.current

theorem Opened.oneOpen (h : w₀.Opened c₀ t) : w₀.OneOpen c₀.store (w₀.owned []) := by
  obtain ⟨u, hu, -⟩ := h.upload
  obtain ⟨hmem, hid, hkey, -⟩ := h.ids.upload?_eq_some_iff.mp hu
  have hsource : w₀.sourceCompleted = false := by
    have hrepair := h.repair_eq
    split at hrepair <;> simp [sourceCompleted, hrepair]
  refine ⟨h.ids, ?_, List.mem_singleton.mpr rfl, ?_, ?_⟩
  · intro id hid'
    rw [List.mem_singleton.mp hid']
    exact ⟨u, hmem, hid, hkey⟩
  · intro id hid' _
    exact List.mem_singleton.mp hid'
  · rintro (hphase | hphase | hcompleted)
    · rw [h.phase_eq] at hphase
      cases hphase
    · rw [h.phase_eq] at hphase
      cases hphase
    · rw [hsource] at hcompleted
      cases hcompleted

/-- What others do elsewhere opens no upload at the writer's key. -/
theorem OneOpen.elsewhere (h : w.OneOpen c.store mine) (hc : c.Elsewhere w.session.key c') :
    w.OneOpen c'.store mine := by
  have hopen : ∀ id, c.store.Knows id w.session.key → c'.store.IsOpen id → c.store.IsOpen id := by
    rintro id ⟨u, hu, rfl, hkey⟩ ⟨v, hv, hid, hstatus⟩
    obtain rfl := hc.ids.unique hv ((hc.uploads u hkey).mpr hu) hid
    exact ⟨v, hu, rfl, hstatus⟩
  refine ⟨hc.ids, ?_, h.current, ?_, ?_⟩
  · intro id hid
    obtain ⟨u, hu, huid, hkey⟩ := h.known id hid
    exact ⟨u, (hc.uploads u hkey).mpr hu, huid, hkey⟩
  · intro id hid hid'
    exact h.only id hid (hopen id (h.known id hid) hid')
  · intro hfinished hid
    exact h.shut hfinished (hopen _ (h.known _ h.current) hid)

/-! ## 2. Exchanges that create nothing -/

theorem Sends.created_eq {α : Type} {answer : Except Error α} (h : Sends w answer w' xs) :
    xs.flatMap Exchange.created = [] := by
  rw [List.flatMap_eq_nil_iff]
  intro x hx
  exact Exchange.created_of_kind (by rw [(h.parts x hx).kind_eq]; decide)

theorem created_of_carried (h : ∀ x ∈ xs, x.request.Carries) :
    xs.flatMap Exchange.created = [] := by
  rw [List.flatMap_eq_nil_iff]
  intro x hx
  exact Exchange.created_of_kind (h x hx).kind_ne

theorem created_of_completion (w : Writer) (c : Context (Disturbed Store)) :
    (w.completing c).created = [] :=
  Exchange.created_of_kind (by simp [completing, Context.exchange])

theorem created_of_closing (w : Writer) (c : Context (Disturbed Store)) :
    (w.closing c).flatMap Exchange.created = [] := by
  rw [closing]
  split
  · rfl
  · rw [List.flatMap_singleton, created_of_completion]

theorem created_of_abortion {s : Session} {y : Exchange (Disturbed Store)}
    (hy : y.request = s.abortion) : y.created = [] :=
  Exchange.created_of_kind (by rw [hy]; simp)

/-- The writer keeps its upload and nothing is created.  Where that upload has to be shut by now, it
was before or an exchange has shut it. -/
theorem OneOpen.keep (h : w.OneOpen d.service mine) (hchain : Exchange.Chain d xs d')
    (hnone : xs.flatMap Exchange.created = []) (hsession : w'.session = w.session)
    (hshut : w'.phase = .committed ∨ w'.phase = .cancelled ∨ w'.sourceCompleted = true →
      w.sourceCompleted = true ∨ ∃ x ∈ xs, ¬ x.storeAfter.IsOpen w.session.uploadId) :
    w'.OneOpen d'.service (mine ++ xs.flatMap Exchange.created) := by
  have hgrows := hchain.grows
  have hopen : ∀ id, d'.service.IsOpen id → d.service.IsOpen id := by
    intro id hid
    rcases hchain.isOpen_or_created hid with hbefore | hcreated
    · exact hbefore
    · rw [hnone] at hcreated
      cases hcreated
  rw [hnone, List.append_nil]
  refine ⟨hgrows.ids h.ids, ?_, ?_, ?_, ?_⟩
  · intro id hid
    rw [hsession]
    exact hgrows.knows id _ (h.known id hid)
  · rw [hsession]
    exact h.current
  · intro id hid hid'
    rw [hsession]
    exact h.only id hid (hopen id hid')
  · intro hfinished
    rw [hsession]
    rcases hshut hfinished with hsource | ⟨x, hx, hx'⟩
    · exact fun hid => h.shut (.inr (.inr hsource)) (hopen _ hid)
    · exact hchain.not_isOpen hnone hx hx'

/-! ## 3. Dropping and completing -/

/-- An upload that the store knows is shut by its dropping, whatever came in between. -/
theorem shut_of_abortion {s : Session} {y : Exchange (Disturbed Store)}
    (hchain : Exchange.Chain d xs d') (hplan : d.Within Disturbance.SparesAborts)
    (hids : d.service.IdsInOrder) (hknows : d.service.Knows s.uploadId s.key) (hy : y ∈ xs)
    (hr : y.request = s.abortion) : ¬ y.storeAfter.IsOpen s.uploadId := by
  have hgrows : d.service.Grows y.store :=
    (hchain.keeps (p := fun m => d.service.Grows m.service) (.refl _)
      fun x _ hx => hx.trans x.changed.grows).1 y hy
  exact Exchange.not_isOpen_of_abortion hr ((hchain.within hplan).1 y hy) (hgrows.ids hids)
    (hgrows.knows _ _ hknows)

theorem OneOpen.shut_of_abortion (h : w.OneOpen c.store mine) (hasks : c.Asks c' xs)
    (hplan : c.service.Within Disturbance.SparesAborts) {y : Exchange (Disturbed Store)}
    (hy : y ∈ xs) (hr : y.request = w.session.abortion) :
    ¬ y.storeAfter.IsOpen w.session.uploadId :=
  Writer.shut_of_abortion hasks.chain hplan h.ids h.knows_session hy hr

/-- Before a repair creates an upload the old one is shut. -/
theorem OneOpen.shut_of_closing (h : w.OneOpen c.store mine)
    (hplan : c.service.Within Disturbance.SparesAborts)
    (hchain : Exchange.Chain c.service (w.closing c) d)
    (hclosing : ∀ z ∈ w.closing c, z.Completes w.session) :
    ¬ d.service.IsOpen w.session.uploadId := by
  have hwithin := (hchain.within hplan).1
  rw [closing] at hchain hclosing hwithin
  split at hchain
  · rename_i hsource
    rw [show d = c.service from hchain]
    exact h.shut (.inr (.inr hsource))
  · rename_i hsource
    rw [if_neg hsource] at hclosing hwithin
    have hmem : w.completing c ∈ [w.completing c] := List.mem_singleton.mpr rfl
    have hshut := (hclosing _ hmem).not_isOpen (hwithin _ hmem).early_of_sparesAborts.fails_of_early
    exact hchain.not_isOpen (by rw [List.flatMap_singleton, created_of_completion]) hmem hshut

/-- When a repair has created an upload and nothing more, only that one can be open. -/
theorem OneOpen.started {x : Exchange (Disturbed Store)} {rest : List (Exchange (Disturbed Store))}
    {new : Session} (h : w.OneOpen c.store mine)
    (hplan : c.service.Within Disturbance.SparesAborts)
    (hchain : Exchange.Chain c.service (w.closing c ++ x :: rest) d')
    (hclosing : ∀ z ∈ w.closing c, z.Completes w.session) (hx : x.Starts w.session new)
    (hnone : rest.flatMap Exchange.created = []) :
    (w.closing c ++ x :: rest).flatMap Exchange.created = [new.uploadId] ∧
      d'.service.IdsInOrder ∧
      (∀ id ∈ mine ++ [new.uploadId], d'.service.Knows id w.session.key) ∧
      ∀ id ∈ mine ++ [new.uploadId], d'.service.IsOpen id → id = new.uploadId := by
  have hfails := ((hchain.within hplan).1 x (by simp)).early_of_sparesAborts.fails_of_early
  have hknows := hx.knows hfails
  have hcreated : (x :: rest).flatMap Exchange.created = [new.uploadId] := by
    rw [List.flatMap_cons, hx.created_eq hfails, hnone]
    rfl
  have hgrows := hchain.grows
  obtain ⟨m, hclosed, hmet, hrest⟩ := Exchange.chain_append.mp hchain
  have hshut := h.shut_of_closing hplan hclosed hclosing
  refine ⟨?_, hgrows.ids h.ids, ?_, ?_⟩
  · rw [List.flatMap_append, created_of_closing, hcreated]
    rfl
  · intro id hid
    rcases List.mem_append.mp hid with hid | hid
    · exact hgrows.knows id _ (h.known id hid)
    · rw [List.mem_singleton.mp hid]
      exact hrest.grows.knows _ _ hknows
  · intro id hid hopen
    rcases List.mem_append.mp hid with hid | hid
    swap
    · exact List.mem_singleton.mp hid
    have hlater : Exchange.Chain m (x :: rest) d' := ⟨hmet, hrest⟩
    rcases hlater.isOpen_or_created hopen with hbefore | hnow
    · -- it would be the old upload, which is shut by now
      rcases hclosed.isOpen_or_created hbefore with hfirst | hnever
      · rw [h.only id hid hfirst] at hbefore
        exact absurd hbefore hshut
      · rw [created_of_closing] at hnever
        cases hnever
    · rw [hcreated] at hnow
      exact List.mem_singleton.mp hnow

/-! ## 4. One call -/

/-- A repair that fails leaves the old upload in the writer and the new one shut. -/
theorem OneOpen.notRepaired {e : Error} (h : w.OneOpen c.store mine) (hphase : w.phase = .active)
    (hplan : c.service.Within Disturbance.SparesAborts) (hasks : c.Asks c' xs)
    (hrepairs : Repairs w c (.error e) w' xs) :
    w'.OneOpen c'.store (mine ++ xs.flatMap Exchange.created) := by
  have hwithin := (hasks.chain.within hplan).1
  cases hrepairs with
  | @notCompleted _ y hsource hx hy =>
    refine h.keep hasks.chain ?_ rfl ?_
    · simp [created_of_completion, created_of_abortion hy]
    · simp [hphase, hsource]
  | @notStarted _ x hclosing hx hnew =>
    obtain ⟨m, hchain, rfl, hlast⟩ := Exchange.chain_append.mp hasks.chain
    have hshut := h.shut_of_closing hplan hchain hclosing
    have hsame := Exchange.storeAfter_of_failed_creation hx hnew
      (hwithin x (by simp)).early_of_sparesAborts
    refine h.keep hasks.chain ?_ rfl fun _ => .inr ⟨x, by simp, ?_⟩
    · rw [List.flatMap_append, created_of_closing, List.flatMap_singleton,
        Exchange.created_of_same hsame, List.append_nil]
    · rw [hsame]
      exact hshut
  | @notCarried _ new x y carried hclosing hx hcarried hy =>
    have hnone : (carried ++ [y]).flatMap Exchange.created = [] := by
      rw [List.flatMap_append, created_of_carried hcarried, List.flatMap_singleton,
        created_of_abortion hy, List.append_nil]
    obtain ⟨hcreated, hids, hknown, honly⟩ := h.started hplan hasks.chain hclosing hx hnone
    -- the last exchange shuts the new upload, so none is open
    obtain ⟨m, hclosed, hmet, hrest⟩ := Exchange.chain_append.mp hasks.chain
    have hplan' := hwithin x (by simp)
    have hknows := hx.knows hplan'.early_of_sparesAborts.fails_of_early
    rw [← hx.key_eq] at hknows
    have hids' : x.storeAfter.IdsInOrder := by
      apply x.changed.grows.ids
      rw [Exchange.store, hmet]
      exact hclosed.grows.ids h.ids
    have hdropped : ¬ c'.store.IsOpen new.uploadId :=
      hrest.not_isOpen hnone (by simp)
        (Writer.shut_of_abortion hrest (hplan'.answer x.request) hids' hknows (by simp) hy)
    have hshut : ∀ id ∈ mine ++ [new.uploadId], ¬ c'.store.IsOpen id := by
      intro id hid hopen
      rw [honly id hid hopen] at hopen
      exact hdropped hopen
    have hcurrent : w.session.uploadId ∈ mine ++ [new.uploadId] :=
      List.mem_append_left _ h.current
    rw [hcreated]
    exact ⟨hids, hknown, hcurrent, fun id hid hopen => absurd hopen (hshut id hid),
      fun _ => hshut _ hcurrent⟩

/-- A repair that succeeds leaves the writer with the new upload, and the old one shut. -/
theorem OneOpen.repaired {w₁ : Writer} {ys : List (Exchange (Disturbed Store))}
    (h : w.OneOpen c.store mine) (hphase : w.phase = .active)
    (hplan : c.service.Within Disturbance.SparesAborts) (hasks : c.Asks c' (xs ++ ys))
    (hrepairs : Repairs w c (.ok ()) w₁ xs) (hsends : Sends w₁ result w' ys) :
    w'.OneOpen c'.store (mine ++ (xs ++ ys).flatMap Exchange.created) := by
  cases hrepairs with
  | @replaced new x carried parts slots hclosing hx hcarried =>
    have hnone : (carried ++ ys).flatMap Exchange.created = [] := by
      rw [List.flatMap_append, created_of_carried hcarried, hsends.created_eq]
      rfl
    rw [List.append_assoc, List.cons_append] at hasks ⊢
    obtain ⟨hcreated, hids, hknown, honly⟩ := h.started hplan hasks.chain hclosing hx hnone
    have hsession : w'.session = new := hsends.advances.session_eq
    rw [hcreated]
    refine ⟨hids, ?_, ?_, ?_, ?_⟩
    · rw [hsession, hx.key_eq]
      exact hknown
    · rw [hsession]
      simp
    · rw [hsession]
      exact honly
    · have hphase' : w'.phase = .active := hsends.advances.phase_eq.trans hphase
      have hrepair' : w'.repair = .done := hsends.advances.repair_eq
      simp [hphase', sourceCompleted, hrepair']

theorem OneOpen.step (h : w.OneOpen c.store mine) (hphase : w.phase = .active)
    (hplan : c.service.Within Disturbance.SparesAborts) (hasks : c.Asks c' xs)
    (hstep : w.Step c c' op result w' xs) :
    w'.OneOpen c'.store (mine ++ xs.flatMap Exchange.created) := by
  have hwithin := (hasks.chain.within hplan).1
  cases hstep with
  | wroteNothing hdata =>
    exact h.keep hasks.chain rfl rfl (by simp [hphase])
  | wrote hdata hrepair hsends =>
    have hphase' : w'.phase = .active := hsends.advances.phase_eq.trans hphase
    have hrepair' : w'.repair = w.repair := hsends.advances.repair_eq
    refine h.keep hasks.chain hsends.created_eq hsends.advances.session_eq ?_
    simp +contextual [hphase', sourceCompleted, hrepair']
  | notRepaired hdata hrepair hrepairs hpool => exact h.notRepaired hphase hplan hasks hrepairs
  | repaired hdata hrepair hrepairs hsends => exact h.repaired hphase hplan hasks hrepairs hsends
  | @closed _ w₁ _ hsends =>
    have hphase' : w₁.phase = .closed := hsends.advances.phase_eq
    have hrepair' : w₁.repair = w.repair := hsends.advances.repair_eq
    refine h.keep hasks.chain hsends.created_eq hsends.advances.session_eq ?_
    simp +contextual [hphase', sourceCompleted, hrepair']
  | committedBefore hsource => exact h.keep hasks.chain rfl rfl fun _ => .inl hsource
  | @restNotSent e x hsource hx hpool =>
    obtain ⟨number, body, hr, -⟩ := hx
    have hkind := Request.IsPartOf.kind_eq ⟨number, body, hr⟩
    refine h.keep hasks.chain ?_ rfl (by simp [hphase, hsource])
    rw [List.flatMap_singleton, Exchange.created_of_kind (by rw [hkind]; decide)]
  | @committed w₁ c₁ sent hsource hrest hsends hx =>
    refine h.keep hasks.chain ?_ hsends.advances.session_eq fun _ =>
      .inr ⟨w₁.completing c₁, by simp, hx.not_isOpen
        (hwithin _ (by simp)).early_of_sparesAborts.fails_of_early⟩
    rw [List.flatMap_append, hsends.created_eq, List.flatMap_singleton, created_of_completion]
    rfl
  | @notCommitted e w₁ c₁ sent y hsource hrest hsends hx hy =>
    refine h.keep hasks.chain ?_ hsends.advances.session_eq fun _ =>
      .inr ⟨y, by simp, h.shut_of_abortion hasks hplan (by simp) hy⟩
    simp [hsends.created_eq, created_of_completion, created_of_abortion hy]
  | cancelledBefore hsource => exact h.keep hasks.chain rfl rfl fun _ => .inl hsource
  | @cancelled _ y hsource hy =>
    refine h.keep hasks.chain ?_ rfl fun _ =>
      .inr ⟨y, by simp, h.shut_of_abortion hasks hplan (by simp) hy⟩
    simp [created_of_abortion hy]

/-! ## 5. All calls -/

theorem History.oneOpen (hopen : w₀.Opened c₀ t)
    (hplan : c₀.service.Within Disturbance.SparesAborts)
    (h : History Disturbance.SparesAborts w₀ c₀ turns w c) :
    w.OneOpen c.store (w₀.owned (turns.flatMap Turn.exchanges)) := by
  refine h.preserves (p := fun w c xs => w.OneOpen c.store (w₀.owned xs)) hplan hopen.oneOpen ?_
    fun hw hc => hw.elsewhere hc
  intro w w' c c' xs ys op result hw hphase hplan' _ hasks hstep
  have hnext := hw.step hphase hplan' hasks hstep
  rwa [owned, List.cons_append, ← List.flatMap_append] at hnext

/-- A cancel asks for nothing but the dropping of the upload. -/
theorem Step.cancel_asks (h : w.Step c c' .cancel result w' xs) :
    ∀ x ∈ xs, x.request = w.session.abortion := by
  cases h with
  | cancelledBefore hsource => simp
  | cancelled hsource hy => simpa using hy

/-- Of the uploads that a writer was opened on or has created at most one is open after every run of
calls, its present one, when whatever fails but the dropping of an upload fails before its effect;
and none is open once the writer is committed, whether the commit has returned or raised, or
cancelled.  A cancel sends no part. -/
theorem History.at_most_one_open (hopen : w₀.Opened c₀ t)
    (hplan : c₀.service.Within Disturbance.SparesAborts)
    (h : History Disturbance.SparesAborts w₀ c₀ turns w c) :
    (∀ id ∈ w₀.owned (turns.flatMap Turn.exchanges), c.store.IsOpen id →
        id = w.session.uploadId ∧ w.phase ≠ .committed ∧ w.phase ≠ .cancelled) ∧
      ∀ turn ∈ turns, turn.operation = .cancel → ∀ x ∈ turn.exchanges,
        x.request.kind ≠ .uploadPart ∧ x.request.kind ≠ .copyPart := by
  have hone := h.oneOpen hopen hplan
  refine ⟨?_, ?_⟩
  · intro id hid hidOpen
    obtain rfl := hone.only id hid hidOpen
    exact ⟨rfl, fun hphase => hone.shut (.inl hphase) hidOpen,
      fun hphase => hone.shut (.inr (.inl hphase)) hidOpen⟩
  · intro turn _ hop x hx
    by_cases hphase : turn.writer.phase = .active
    · have hstep := (Turn.step hphase).2
      rw [hop] at hstep
      rw [hstep.cancel_asks x hx]
      simp
    · rw [(Turn.of_finished hphase).2.2] at hx
      cases hx

/-! ## 6. A repair that fails, and a cancel -/

namespace Sample

def cancelAfterRepair : Turn (Disturbed Store) :=
  ⟨.cancel, failedRepair.writerAfter, failedRepair.contextAfter⟩

end Sample

theorem none_open_after_failed_repair :
    History Disturbance.SparesAborts Sample.resumed (Sample.resumedContext Sample.noReading)
        [Sample.failedRepair, Sample.cancelAfterRepair] Sample.cancelAfterRepair.writerAfter
        Sample.cancelAfterRepair.contextAfter ∧
      Sample.failedRepair.result.isOk = false ∧
      Sample.resumed.owned ([Sample.failedRepair, Sample.cancelAfterRepair].flatMap Turn.exchanges) =
        ["u1", "u2"] ∧
      ∀ id ∈ ["u1", "u2"], ¬ Sample.cancelAfterRepair.contextAfter.store.IsOpen id := by
  have hhistory : History Disturbance.SparesAborts Sample.resumed
      (Sample.resumedContext Sample.noReading) [Sample.failedRepair, Sample.cancelAfterRepair]
      Sample.cancelAfterRepair.writerAfter Sample.cancelAfterRepair.contextAfter :=
    .call Sample.cancelAfterRepair (.call Sample.failedRepair .start)
  have howned : Sample.resumed.owned
      ([Sample.failedRepair, Sample.cancelAfterRepair].flatMap Turn.exchanges) =
        ["u1", "u2"] := by decide +kernel
  have hphase : Sample.cancelAfterRepair.writerAfter.phase = .cancelled := by decide +kernel
  have hplan := Sample.noReading_sparesAborts
  obtain ⟨hopen, -⟩ := History.at_most_one_open
    (Sample.resumed_opened hplan.early_of_sparesAborts.fails_of_early) hplan hhistory
  rw [howned] at hopen
  refine ⟨hhistory, by decide +kernel, howned, ?_⟩
  intro id hid hidOpen
  exact (hopen id hid hidOpen).2.2 hphase

end Writer

end ResumableStorage
