/-
  ResumableStorage/Proofs/Upload/Appending.lean
  =============================================
  **Appending to a resumed upload** — with nothing disturbed, a writer that was resumed
  on parts numbered from one on sends its own under the numbers that follow: it replaces
  none that were there, and a commit joins the old bytes and the new ones in this order.
  The same holds of parts with any numbers when the upload has to be replaced first, or
  when nothing is written.

  The number of the next part is how many there are.  So with a gap in front of parts
  that are kept the next part may take the place of one of them.
-/
import ResumableStorage.Proofs.Upload.Resuming
import ResumableStorage.Proofs.Upload.SourceLength
import ResumableStorage.Proofs.Upload.Streams

namespace ResumableStorage

/-! ## 1. Parts under new numbers -/

namespace Request

/-- The request stores a part of an upload under a number. -/
def Stores (r : Request) (id : String) (number : Int) : Prop :=
  (∃ bucket key body, r = .uploadPart bucket key id number body) ∨
    ∃ bucket key source range, r = .copyPart bucket key id number source range

theorem Stores.kind_cases {r : Request} {id : String} {number : Int} (h : r.Stores id number) :
    r.kind = .uploadPart ∨ r.kind = .copyPart := by
  rcases h with ⟨bucket, key, body, rfl⟩ | ⟨bucket, key, source, range, rfl⟩
  · exact .inl rfl
  · exact .inr rfl

theorem IsPartOf.eq_of_stores {r : Request} {s : Session} {id : String} {number : Int}
    (h : r.IsPartOf s) (hstores : r.Stores id number) : s.uploadId = id := by
  obtain ⟨n, body, rfl⟩ := h
  rcases hstores with ⟨_, _, _, hr⟩ | ⟨_, _, _, _, hr⟩
  · cases hr
    rfl
  · cases hr

theorem CarriesTo.eq_of_stores {r : Request} {old new : Session} {id : String} {number : Int}
    (h : r.CarriesTo old new) (hstores : r.Stores id number) : new.uploadId = id := by
  rcases h with rfl | rfl | rfl <;> rcases hstores with ⟨_, _, _, hr⟩ | ⟨_, _, _, _, hr⟩ <;> cases hr
  rfl

end Request

namespace Exchange

variable {x : Exchange (Disturbed Store)} {s : Session}

/-- A part that the request stores in the session's upload takes the place of none. -/
def Appends (x : Exchange (Disturbed Store)) (s : Session) : Prop :=
  ∀ number, x.request.Stores s.uploadId number → x.store.body? s number = none

theorem appends_of_kind (h : x.request.kind ≠ .uploadPart ∧ x.request.kind ≠ .copyPart) :
    x.Appends s := by
  intro number hstores
  rcases hstores.kind_cases with hkind | hkind
  · exact absurd hkind h.1
  · exact absurd hkind h.2

theorem appends_of_isPartOf {new : Session} (h : x.request.IsPartOf new)
    (hne : new.uploadId ≠ s.uploadId) : x.Appends s :=
  fun _ hstores => absurd (h.eq_of_stores hstores) hne

end Exchange

namespace Disturbance

/-- The sort of no disturbance. -/
def Never (_ : RequestKind) (_ : Disturbance) : Prop := False

end Disturbance

theorem Disturbed.Within.calm {σ : Type} {d : Disturbed σ} (h : d.Within Disturbance.Never) :
    d.IsCalm := by
  intro q hq x hx
  rcases x with _ | x
  · rfl
  · exact absurd (h q hq x hx) id

theorem Part.find?_table_next (bodies : List Bytes) :
    (Part.table bodies).find? (bodies.length + 1) = none := by
  rw [Keyed.find?, List.lookup_eq_none_iff]
  intro e he
  have hlt := (Part.le_of_mem_numberedFrom he).2
  have hne : ((bodies.length : Int) + 1) ≠ e.1 := by omega
  simpa using hne

namespace Writer

section Any

variable {σ : Type} [Service σ] {w : Writer} {c c₁ : Context σ} {P : Exchange σ → Prop}
  {op : Operation}

/-- A commit sends the rest, and nothing else that is a part. -/
theorem commit_asking (hphase : w.phase = .active) (hrest : sendRest.Asking P w c)
    (hother : ∀ x : Exchange σ, x.request.kind ≠ .uploadPart ∧ x.request.kind ≠ .copyPart → P x) :
    (Operation.commit.run : Writing σ Unit).Asking P w c := by
  rcases hsource : w.sourceCompleted
  · rw [Operation.run, Writing.Asking, commit_eq hphase hsource]
    apply hrest.bind
    intro _ w₁ c₁ _
    apply (Writing.asking_change _).bind
    intro _ w₂ c₂ _
    obtain ⟨c₃, hrelease, hasks⟩ := release_asks w₂ c₂
    apply Writing.Asking.bind
    · exact .of_nothing (by rwa [hrelease])
    intro _ w₃ c₃ _
    rcases complete_asks w₃ c₃ with ⟨c₄, hrun, hasks, -⟩ | ⟨e, y, c₄, hrun, hasks, -, hy⟩
    · apply Writing.Asking.of_asks (by rwa [hrun])
      intro z hz
      rw [List.mem_singleton.mp hz]
      exact hother _ (by simp [completing, Context.exchange])
    · apply Writing.Asking.of_asks (by rwa [hrun])
      intro z hz
      simp only [List.mem_cons, List.not_mem_nil, or_false] at hz
      rcases hz with rfl | rfl
      · exact hother _ (by simp [completing, Context.exchange])
      · exact hother _ (by simp [hy])
  · rcases hrun : (Operation.commit.run : Writing σ Unit).execute w c with ⟨result, w', c'⟩
    obtain ⟨xs, hasks, hstep⟩ := step_of_run hphase .commit hrun
    obtain ⟨-, rfl⟩ := hstep.of_sourceCompleted (.inl rfl) hsource
    exact .of_nothing (by rwa [hrun])

theorem close_asking (hphase : w.phase = .active)
    (hflush : ∀ c₁, c.Asks c₁ [] → flush.Asking P { w with phase := .closed } c₁) :
    (Operation.close.run : Writing σ Unit).Asking P w c := by
  have hrest : ∀ c₁, c.Asks c₁ [] → flushRelease.Asking P { w with phase := .closed } c₁ := by
    intro c₁ hasks₁
    apply (hflush c₁ hasks₁).attempt.bind
    intro result w₂ c₂ _
    obtain ⟨c₃, hrelease, hasks⟩ := release_asks w₂ c₂
    apply Writing.Asking.bind
    · exact .of_nothing (by rwa [hrelease])
    intro _ w₃ c₃ _
    apply Writing.Asking.bind
    · exact .of_nothing (.nothing rfl rfl)
    intro _ w₄ c₄ _
    rcases result with e | ⟨⟩
    · exact Writing.asking_throw e
    · exact Writing.asking_pure ()
  simp only [Operation.run, Writing.Asking, close, enter, Writing.execute_bind,
    ensureActive_of_active hphase, Writing.execute_writer, Writing.execute_change]
  rcases w.sourceCompleted
  · exact hrest c (.refl c)
  · have hreported : c.Asks { c with notices := c.notices ++
        [.closedAfterRepair w.session.key w.session.uploadId] } [] := .nothing rfl rfl
    obtain ⟨xs, hasks, hall⟩ := hrest _ hreported
    exact ⟨[] ++ xs, hreported.trans hasks, hall⟩

/-- What a call that finishes a writer asks: the rest is sent, and nothing else that is a part. -/
theorem finish_asking (hphase : w.phase = .active) (hop : ∀ data, op ≠ .write data)
    (hrest : sendRest.Asking P w c)
    (hflush : ∀ c₁, c.Asks c₁ [] → flush.Asking P { w with phase := .closed } c₁)
    (hother : ∀ x : Exchange σ, x.request.kind ≠ .uploadPart ∧ x.request.kind ≠ .copyPart → P x) :
    op.run.Asking P w c := by
  cases op with
  | write data => exact absurd rfl (hop data)
  | close => exact close_asking hphase hflush
  | commit => exact commit_asking hphase hrest hother
  | cancel =>
    rcases hrun : (Operation.cancel.run : Writing σ Unit).execute w c with ⟨result, w', c'⟩
    obtain ⟨xs, hasks, hstep⟩ := step_of_run hphase .cancel hrun
    apply Writing.Asking.of_asks (by rwa [hrun])
    cases hstep with
    | cancelledBefore hsource => simp
    | @cancelled _ y hsource hy =>
      intro z hz
      rw [List.mem_singleton.mp hz]
      exact hother _ (by simp [hy])

/-- A writer that has parts and nothing staged sends no part when it is finished. -/
theorem finish_asking_of_staged_empty (hphase : w.phase = .active) (hop : ∀ data, op ≠ .write data)
    (hstaged : w.staged = ByteArray.empty) (hparts : w.parts ≠ [])
    (hother : ∀ x : Exchange σ, x.request.kind ≠ .uploadPart ∧ x.request.kind ≠ .copyPart → P x) :
    op.run.Asking P w c := by
  apply finish_asking hphase hop _ _ hother
  · apply Writing.Asking.of_nothing
    rw [sendRest_of_staged_empty hstaged hparts]
    exact .refl c
  · intro c₁ _
    apply Writing.Asking.of_nothing
    have hclosed : staged { w with phase := .closed } = ByteArray.empty := hstaged
    rw [flush_of_staged_empty hclosed]
    exact .refl c₁

end Any

variable {w w' w₀ w₁ : Writer} {c c' c₀ c₁ : Context (Disturbed Store)} {bodies : List Bytes}
  {t : Keyed Int Bytes} {content : Bytes} {turns : List (Turn (Disturbed Store))} {old : Session}
  {op : Operation} {completed quiet : Bool}

/-! ## 2. Calls of a writer whose parts are numbered from one on -/

/-- The parts of a writer are those of its upload, which is the old one or another, and nothing is
disturbed. -/
structure Current (w : Writer) (c : Context (Disturbed Store)) (old : Session) : Prop where
  calm : c.service.IsCalm
  attached : ∃ bodies, w.Attached c bodies []
  session : w.session = old ∨ w.session.uploadId ≠ old.uploadId

theorem Current.keep (h : w.Current c old) (hservice : c'.service = c.service)
    (hsession : w'.session = w.session) (hparts : w'.parts = w.parts) : w'.Current c' old := by
  obtain ⟨bodies, hattached⟩ := h.attached
  have hstore : c'.store = c.store := congrArg (·.service) hservice
  refine ⟨hservice ▸ h.calm, ⟨bodies, hservice ▸ hattached.failsOnly, hstore ▸ hattached.ids,
    hparts.trans hattached.parts, ?_, by simp⟩, hsession ▸ h.session⟩
  rw [hstore, hsession]
  exact hattached.upload

/-- The steps by which bytes are staged and sent store each part under a new number, and go on from
a writer whose parts are those of its upload. -/
theorem appending_sending (old : Session) : Sending (σ := Disturbed Store) (fun x => ∀ w c,
    Current w c old → x.Asking (fun y => y.Appends old) w c ∧
      Current (x.execute w c).2.1 (x.execute w c).2.2 old) where
  pure a w c h := ⟨Writing.asking_pure a, h⟩
  bind := by
    intro α β x f hx hf w c h
    obtain ⟨hasking, hafter⟩ := hx w c h
    refine ⟨hasking.bind ?_, ?_⟩
    · intro a w₁ c₁ hrun
      rw [hrun] at hafter
      exact (hf a w₁ c₁ hafter).1
    · rw [Writing.execute_bind]
      rcases hrun : x.execute w c with ⟨e | a, w₁, c₁⟩ <;> rw [hrun] at hafter
      · exact hafter
      · exact (hf a w₁ c₁ hafter).2
  writer w c h := ⟨Writing.asking_writer, h⟩
  stage := by
    intro f hf w c h
    obtain ⟨size, slots, hw⟩ := hf w
    refine ⟨Writing.asking_change f, ?_⟩
    rw [Writing.execute_change, hw]
    exact h.keep rfl rfl rfl
  onPool _ w c h := ⟨.of_nothing (.nothing rfl rfl), h.keep rfl rfl rfl⟩
  borrow := by
    rintro w c ⟨hcalm, ⟨bodies, hattached⟩, hsession⟩
    obtain ⟨slots, c', hrun, hleads, hstore, -⟩ := borrow_cases hattached.failsOnly
    obtain ⟨_, _, hrun', hasks, -⟩ := borrow_asks w c
    rw [hrun] at hrun'
    cases hrun'
    refine ⟨.of_nothing (by rwa [hrun]), ?_⟩
    rw [hrun]
    refine ⟨hleads.calm hcalm, ⟨bodies, hattached.next hleads ?_ rfl hattached.parts ?_⟩, hsession⟩
    · rw [hstore, hattached.storeHolding_self]
    · simp
  sendPart := by
    rintro body w c ⟨hcalm, ⟨bodies, hattached⟩, hsession⟩
    have hlength : (w.parts.length : Int) = bodies.length := by
      rw [hattached.parts, Part.length_ofBodies]
    refine ⟨.of_asks (sendPart_exchange w c body) ?_, ?_⟩
    · intro y hy
      rw [List.mem_singleton.mp hy]
      rcases hsession with rfl | hne
      · rintro number (⟨_, _, _, hr⟩ | ⟨_, _, _, _, hr⟩)
        · obtain ⟨u, hu, hparts⟩ := hattached.upload
          obtain ⟨hmem, hid, hkey, -⟩ := hattached.ids.upload?_eq_some_iff.mp hu
          cases hr
          change c.store.body? w.session _ = none
          rw [hattached.ids.body?_eq hmem hid hkey, hparts, List.append_nil, hlength]
          exact Part.find?_table_next bodies
        · cases hr
      · exact Exchange.appends_of_isPartOf ⟨_, _, rfl⟩ hne
    · obtain ⟨result, w', c', hrun, hleads, hcases⟩ := sendPart_cases hattached body
      rw [hrun]
      rcases hcases with ⟨rfl, rfl, hstore⟩ | ⟨e, spare, rfl, rfl, hnot, -⟩
      · refine ⟨hleads.calm hcalm, ⟨bodies ++ [body], hattached.next hleads ?_ rfl rfl ?_⟩, hsession⟩
        · rw [hstore, List.append_nil]
        · simp
      · exact absurd hcalm hnot

/-- Every call of such a writer that has nothing to repair stores its parts under new numbers. -/
theorem Current.asking (h : w.Current c old) (hphase : w.phase = .active)
    (hrepair : ∀ b, w.repair ≠ .required b) (op : Operation) :
    op.run.Asking (fun y => y.Appends old) w c := by
  by_cases hop : ∃ data, op = .write data
  · obtain ⟨data, rfl⟩ := hop
    apply Writing.Asking.discard
    by_cases hdata : data.size = 0
    · rw [Writing.Asking, write_of_empty hphase hdata]
      exact Writing.asking_pure (0 : Nat)
    · rw [Writing.Asking, write_of_settled hphase hrepair hdata]
      exact ((appending_sending old).takeIn data w c h).1
  · rw [not_exists] at hop
    apply finish_asking hphase hop ((appending_sending old).sendRest w c h).1
    · intro c₁ hasks
      have hclosed : Current { w with phase := .closed } c₁ old := h.keep hasks.chain rfl rfl
      exact ((appending_sending old).flush _ c₁ hclosed).1
    · exact fun x hx => Exchange.appends_of_kind hx

/-! ## 3. Calls of a writer whose upload is to be replaced -/

/-- With nothing disturbed no call of a writer whose upload is to be replaced sends it a part: what a
write sends goes to the new upload. -/
theorem Stale.asking (h : w.Stale c t completed) (hcalm : c.service.IsCalm)
    (hphase : w.phase = .active) (op : Operation) :
    op.run.Asking (fun y => y.Appends w.session) w c := by
  have hother : ∀ x : Exchange (Disturbed Store),
      x.request.kind ≠ .uploadPart ∧ x.request.kind ≠ .copyPart → x.Appends w.session :=
    fun x hx => Exchange.appends_of_kind hx
  by_cases hop : ∃ data, op = .write data
  swap
  · rw [not_exists] at hop
    exact finish_asking_of_staged_empty hphase hop (staged_of_none h.slots) h.parts_ne_nil hother
  obtain ⟨data, rfl⟩ := hop
  apply Writing.Asking.discard
  by_cases hdata : data.size = 0
  · rw [Writing.Asking, write_of_empty hphase hdata]
    exact Writing.asking_pure (0 : Nat)
  rw [Writing.Asking, write_of_required hphase h.repair hdata]
  obtain ⟨result, w₁, c₁, xs, hrun, hasks, haccounted⟩ := replaceSession_accounted h.slots c
  apply Writing.Asking.bind
  · apply Writing.Asking.of_asks (by rwa [hrun])
    intro x hx
    rcases haccounted.asked x hx with (⟨parts, hr⟩ | hr | ⟨type, hr⟩) | ⟨new, ⟨y, hy, hstarts⟩, hr⟩
    · exact hother x (by simp [hr])
    · exact hother x (by simp [hr])
    · exact hother x (by simp [hr, Request.kind])
    · have hne := h.ne_of_starts hcalm.failsOnly hasks.chain hy hstarts
      rcases hr with hr | hr
      · intro number hstores
        exact absurd (hr.eq_of_stores hstores) hne
      · exact hother x (by simp [hr])
  · intro _ w₂ c₂ hrun₂
    obtain ⟨_, _, _, ys, hrun₁, hasks₁, hrepairs, -⟩ := replaceSession_repairs w c
    rw [hrun₂] at hrun₁
    cases hrun₁
    cases hrepairs with
    | replaced hclosing hstarts hcarried =>
      have hne := h.ne_of_starts hcalm.failsOnly hasks₁.chain (by simp) hstarts
      obtain ⟨zs, hasks₂, hsends⟩ := takeIn_sendsParts data _ c₂
      apply Writing.Asking.of_asks hasks₂
      intro z hz
      exact Exchange.appends_of_isPartOf (hsends.parts z hz) hne

theorem Replaced.uploadId_ne (h : w.Replaced c t.values w' c') (hstale : w.Stale c t completed) :
    w'.session.uploadId ≠ w.session.uploadId := by
  have hrecord : (w.repairBase c t.values).Records w.session.uploadId w.session.key t := by
    unfold repairBase
    split
    · exact hstale.record
    · exact hstale.record.complete _ _ _
  obtain ⟨slots, rfl⟩ := h.writer
  exact hrecord.ne_nextId (repairBase_idsInOrder hstale)

/-! ## 4. All calls -/

/-- What holds of a writer in use while nothing is disturbed: it sends under the numbers that follow,
its upload is still to be replaced, or it was not yet called in a case in which nothing is to be
written. -/
inductive Behind (w : Writer) (c : Context (Disturbed Store)) (t : Keyed Int Bytes) (old : Session)
    (quiet : Prop) (content : Bytes) : Prop
  | flowing {bodies : List Bytes} (h : w.Flowing c content false bodies [])
      (hsession : w.session = old ∨ w.session.uploadId ≠ old.uploadId)
  | stale {completed : Bool} (h : w.Stale c t completed) (hsession : w.session = old)
      (hcontent : content = Bytes.concat t.values)
  | idle (hquiet : quiet) (h : w.Opened c t) (hrepair : w.repair = .notNeeded)
      (hnonempty : t.entries ≠ []) (hsession : w.session = old)
      (hcontent : content = Bytes.concat t.values)

theorem Opened.record (h : w.Opened c t) :
    c.store.Records w.session.uploadId w.session.key t := by
  obtain ⟨u, hu, hparts⟩ := h.upload
  obtain ⟨hmem, hid, hkey, -⟩ := h.ids.upload?_eq_some_iff.mp hu
  exact ⟨u, hmem, hid, hkey, hparts⟩

theorem Opened.parts_ne_nil (h : w.Opened c t) (hnonempty : t.entries ≠ []) : w.parts ≠ [] := by
  rw [h.parts_eq]
  exact mt List.map_eq_nil_iff.mp hnonempty

theorem Opened.elsewhere (h : w.Opened c t) (hc : c.Elsewhere w.session.key c') :
    w.Opened c' t := by
  obtain ⟨u, hu, hparts⟩ := h.upload
  obtain ⟨hmem, hid, hkey, hstatus⟩ := h.ids.upload?_eq_some_iff.mp hu
  exact ⟨hc.failsOnly, hc.ids, h.writer, u, hc.ids.upload?_eq_some_iff.mpr
    ⟨(hc.uploads u hkey).mpr hmem, hid, hkey, hstatus⟩, hparts⟩

/-- A commit of a writer that has parts and nothing staged makes an object of these parts. -/
theorem commit_of_table (hphase : w.phase = .active) (hsource : w.sourceCompleted = false)
    (hstaged : w.staged = ByteArray.empty) (hparts : w.parts = Part.ofTable t)
    (hnonempty : t.entries ≠ []) (hf : c.service.FailsOnly) (hids : c.store.IdsInOrder)
    (hrecord : c.store.Records w.session.uploadId w.session.key t)
    (hrun : commit.execute w c = (.ok (), w', c')) :
    ∃ o, c'.store.objects.find? w.session.key = some o ∧ o.content = Bytes.concat t.values := by
  have hsent : w.parts ≠ [] := by
    rw [hparts]
    exact mt List.map_eq_nil_iff.mp hnonempty
  obtain ⟨c₁, hrelease, hservice, -⟩ := release_cases { w with phase := .committed } c
  have hstore : c₁.store = c.store := congrArg (·.service) hservice
  have hfind : ∀ u, c₁.store.upload? w.session.key w.session.uploadId = some u →
      ∀ e ∈ t.entries, u.parts.find? e.1 = some e.2 := by
    intro u hu e he
    rw [hstore] at hu
    rw [hrecord.parts_eq hids hu]
    exact Part.find?_of_mem he
  obtain ⟨result, c₂, hcomplete, -, hcases⟩ := complete_of_table
    (w := { w with phase := .committed, slots := none }) (c := c₁) (hservice ▸ hf) hparts
    hnonempty hfind
  rw [commit_eq hphase hsource] at hrun
  simp only [enter, Writing.execute_bind, sendRest_of_staged_empty hstaged hsent,
    Writing.execute_change, hrelease, hcomplete, Prod.mk.injEq] at hrun
  obtain ⟨rfl, -, rfl⟩ := hrun
  rcases hcases with ⟨-, hstore'⟩ | ⟨e, he, -⟩
  · rw [hstore']
    exact ⟨_, Store.complete_find? _ _ _ _, rfl⟩
  · cases he

namespace Behind

variable {quiet : Prop}

theorem of_opened (h : w.Opened c t)
    (hnumbers : (∃ bodies, t = Part.table bodies) ∨ w.repair = .required false ∨ quiet) :
    w.Behind c t w.session quiet (Bytes.concat t.values) := by
  have hrepair := h.repair_eq
  split at hrepair
  · exact .stale (h.stale hrepair) rfl rfl
  · by_cases hnonempty : t.entries = []
    · have hempty : t = Part.table [] := by
        cases t
        subst hnonempty
        rfl
      subst hempty
      exact .flowing (h.flowing hrepair) (.inl rfl)
    · rcases hnumbers with ⟨bodies, rfl⟩ | hrequired | hquiet
      · rw [Part.values_table]
        exact .flowing (h.flowing hrepair) (.inl rfl)
      · rw [hrepair] at hrequired
        cases hrequired
      · exact .idle hquiet h hrepair hnonempty rfl rfl

/-- A call stores no part of the old upload in the place of another. -/
theorem asking (h : w.Behind c t old quiet content) (hphase : w.phase = .active)
    (hcalm : c.service.IsCalm) (hquiet : quiet → ∀ data, op = .write data → data.size = 0) :
    op.run.Asking (fun y => y.Appends old) w c := by
  cases h with
  | flowing h hsession =>
    have hcurrent : w.Current c old := ⟨hcalm, ⟨_, h.holds.attached⟩, hsession⟩
    exact hcurrent.asking hphase h.repair op
  | stale h hsession hcontent =>
    subst hsession
    exact h.asking hcalm hphase op
  | idle hq h hrepair hnonempty hsession hcontent =>
    by_cases hop : ∃ data, op = .write data
    · obtain ⟨data, rfl⟩ := hop
      apply Writing.Asking.discard
      rw [Writing.Asking, write_of_empty hphase (hquiet hq data rfl)]
      exact Writing.asking_pure (0 : Nat)
    · rw [not_exists] at hop
      exact finish_asking_of_staged_empty hphase hop (staged_of_none h.slots_eq)
        (h.parts_ne_nil hnonempty) fun x hx => Exchange.appends_of_kind hx

theorem write (h : w.Behind c t old quiet content) (hphase : w.phase = .active)
    (hcalm : c.service.IsCalm) {data : Bytes} (hquiet : quiet → data.size = 0)
    {result : Except Error Nat} (hrun : (Writer.write data).execute w c = (result, w', c')) :
    w'.Behind c' t old quiet
      (content ++ (Operation.write data).accepted result.isOk w w') := by
  by_cases hdata : data.size = 0
  · have hempty : data = ByteArray.empty := ByteArray.size_eq_zero_iff.mp hdata
    have hnothing : (Operation.write data).accepted true w w = ByteArray.empty := hempty
    rw [write_of_empty hphase hdata] at hrun
    obtain ⟨rfl, rfl, rfl⟩ := hrun
    simpa only [Except.isOk, Except.toBool, hnothing, ByteArray.append_empty] using h
  cases h with
  | flowing h hsession =>
    obtain ⟨_, _, _, hwrite, hcases⟩ := h.write_returns data
    rw [hrun] at hwrite
    obtain ⟨rfl, rfl, rfl⟩ := hwrite
    rcases hcases with ⟨rfl, hcontinues, sent, hflowing⟩ | ⟨e, -, hnot⟩
    · exact .flowing hflowing (by rwa [hcontinues.session_eq])
    · exact absurd hcalm hnot
  | stale h hsession hcontent =>
    rcases write_of_stale hphase h hdata with
      ⟨e, w₁, c₁, completed', hwrite, -, hw₁, hstale, -⟩ |
      ⟨w₁, c₁, _, w₂, c₂, sent, taken, spare', hleads, hreplaced, hwrite, htook⟩
    · rw [hrun] at hwrite
      obtain ⟨rfl, rfl, rfl⟩ := hwrite
      apply Behind.stale hstale
      · rw [hw₁, hsession]
      · simp [Operation.accepted, Except.isOk, Except.toBool, hw₁, hcontent]
    · rw [hrun] at hwrite
      obtain ⟨rfl, rfl, rfl⟩ := hwrite
      have hne := hreplaced.uploadId_ne h
      obtain ⟨slots, hw₁⟩ := hreplaced.writer
      rcases htook.outcome with ⟨rfl, -⟩ | ⟨e, -, hnot, -⟩
      · obtain ⟨hcontinues, hflowing⟩ := htook.continues (hreplaced.holds h)
          (by rw [hw₁]; exact hphase) (by simp [hw₁])
        rw [hcontent]
        apply Behind.flowing hflowing
        rw [hcontinues.session_eq, ← hsession]
        exact .inr hne
      · exact absurd (hleads.calm hcalm) hnot
  | idle hq h hrepair hnonempty hsession hcontent => exact absurd (hquiet hq) hdata

/-- With nothing disturbed a call that is no write finishes the writer. -/
theorem finishes (h : w.Behind c t old quiet content) (hphase : w.phase = .active)
    (hcalm : c.service.IsCalm) (hop : ∀ data, op ≠ .write data) :
    (op.run.execute w c).2.1.phase ≠ .active := by
  cases op with
  | write data => exact absurd rfl (hop data)
  | close =>
    have hclosed := close_phase (c := c) hphase
    simp [Operation.run, hclosed]
  | cancel =>
    have hcancelled := cancel_phase (c := c) hphase
    simp [Operation.run, hcancelled]
  | commit =>
    have hcommitted : (Writer.commit.execute w c).2.1.phase = .committed := by
      cases h with
      | flowing h hsession =>
        obtain ⟨_, _, _, hrun, -, ⟨_, _, -, -, hnot, -⟩ | ⟨rfl, -⟩⟩ :=
          commit_of_attached hphase h.not_sourceCompleted h.holds.attached h.holds.fits
        · exact absurd hcalm hnot
        · rw [hrun]
      | stale h hsession hcontent =>
        exact commit_phase_of_staged_empty hphase (staged_of_none h.slots) h.parts_ne_nil
      | idle hq h hrepair hnonempty hsession hcontent =>
        exact commit_phase_of_staged_empty hphase (staged_of_none h.slots_eq)
          (h.parts_ne_nil hnonempty)
    simp [Operation.run, hcommitted]

theorem elsewhere (h : w.Behind c t old quiet content) (hc : c.Elsewhere w.session.key c') :
    w.Behind c' t old quiet content := by
  cases h with
  | flowing h hsession => exact .flowing (h.elsewhere hc) hsession
  | stale h hsession hcontent => exact .stale (h.elsewhere hc) hsession hcontent
  | idle hq h hrepair hnonempty hsession hcontent =>
    exact .idle hq (h.elsewhere hc) hrepair hnonempty hsession hcontent

theorem commit_stores (h : w.Behind c t old quiet content) (hphase : w.phase = .active)
    (hrun : Writer.commit.execute w c = (.ok (), w', c')) :
    ∃ o, c'.store.objects.find? w.session.key = some o ∧ o.content = content := by
  cases h with
  | flowing h hsession =>
    obtain ⟨o, ho, hkept⟩ := h.commit hrun
    exact ⟨o, ho, hkept.exact_iff.mpr rfl⟩
  | @stale completed h hsession hcontent =>
    subst hcontent
    cases completed with
    | false =>
      exact commit_of_table hphase (sourceCompleted_iff h.repair) (staged_of_none h.slots) h.parts
        h.nonempty h.failsOnly h.ids h.record hrun
    | true =>
      obtain ⟨xs, hasks, hstep⟩ := step_of_run hphase .commit hrun
      obtain ⟨-, rfl⟩ := hstep.of_sourceCompleted (.inl rfl) (sourceCompleted_iff h.repair)
      have hstore : c'.store = c.store := congrArg (·.service) hasks.chain
      rw [hstore]
      exact h.object rfl
  | idle hq h hrepair hnonempty hsession hcontent =>
    subst hcontent
    exact commit_of_table hphase (by simp [sourceCompleted, hrepair]) (staged_of_none h.slots_eq)
      h.parts_eq hnonempty h.failsOnly h.ids h.record hrun

end Behind

/-- What holds after every history in which nothing was disturbed, and of all that was asked in it. -/
theorem History.behind {quiet : Prop} (hopen : w₀.Opened c₀ t) (hcalm : c₀.service.IsCalm)
    (hnumbers : (∃ bodies, t = Part.table bodies) ∨ w₀.repair = .required false ∨ quiet)
    (h : History Disturbance.Never w₀ c₀ turns w c)
    (hquiet : quiet → ∀ turn ∈ turns, ∀ data, turn.operation = .write data → data.size = 0) :
    (∀ turn ∈ turns, ∀ x ∈ turn.exchanges, x.Appends w₀.session) ∧
      (w.phase = .active → w.Behind c t w₀.session quiet
        (Bytes.concat t.values ++ Bytes.concat (turns.map Turn.accepted))) := by
  have hplan : c₀.service.Within Disturbance.Never := hcalm.within
  induction h with
  | start =>
    refine ⟨by simp, fun _ => ?_⟩
    simpa using Behind.of_opened hopen hnumbers
  | @call turns turn h ih =>
    obtain ⟨hearlier, hbehind⟩ := ih fun hq earlier hmem => hquiet hq earlier (by simp [hmem])
    have hcalm' := (h.within hplan).calm
    have hquiet' : quiet → ∀ data, turn.operation = .write data → data.size = 0 :=
      fun hq => hquiet hq turn (by simp)
    by_cases hphase : turn.writer.phase = .active
    · have hasking := ((hbehind hphase).asking hphase hcalm' hquiet').exchanges
      refine ⟨?_, ?_⟩
      · intro turn' hturn'
        rcases List.mem_append.mp hturn' with hturn' | hturn'
        · exact hearlier turn' hturn'
        · rw [List.mem_singleton.mp hturn']
          exact hasking
      · intro hactive
        rw [List.map_append, List.map_singleton, Bytes.concat_append_singleton,
          ← ByteArray.append_assoc]
        by_cases hop : ∃ data, turn.operation = .write data
        · obtain ⟨data, hop⟩ := hop
          rcases hrun : (Writer.write data).execute turn.writer turn.context with ⟨answer, w', c'⟩
          have houtcome : turn.outcome = (answer.map fun _ => (), w', c') := by
            rw [Turn.outcome, hop, Operation.run, Writing.execute_discard, hrun]
          have hok : turn.result.isOk = answer.isOk := by
            rw [Turn.result, houtcome]
            cases answer <;> rfl
          have hafter := (hbehind hphase).write hphase hcalm' (fun hq => hquiet' hq data hop) hrun
          rw [Turn.accepted, hop, hok, Turn.writerAfter, Turn.contextAfter, houtcome]
          exact hafter
        · rw [not_exists] at hop
          exact absurd hactive ((hbehind hphase).finishes hphase hcalm' hop)
    · obtain ⟨hwriter, -, hnothing⟩ := Turn.of_finished hphase
      refine ⟨?_, fun hactive => absurd (hwriter ▸ hactive) hphase⟩
      intro turn' hturn'
      rcases List.mem_append.mp hturn' with hturn' | hturn'
      · exact hearlier turn' hturn'
      · rw [List.mem_singleton.mp hturn', hnothing]
        simp
  | elsewhere h hc hplan' ih =>
    obtain ⟨hearlier, hbehind⟩ := ih hquiet
    exact ⟨hearlier, fun hactive => (hbehind hactive).elsewhere hc⟩

/-- With nothing disturbed, a writer that was resumed on parts without a gap sends none in the place
of one that was there, and a commit that returns has stored the old bytes and behind them those
that were accepted.  The same holds whatever the numbers of the parts are when the upload has to be
replaced before anything is written, and when no byte is written. -/
theorem History.append_keeps_parts (hopen : w₀.Opened c₀ t) (hcalm : c₀.service.IsCalm)
    (hnumbers : (∃ bodies, t = Part.table bodies) ∨ w₀.repair = .required false ∨
      ∀ turn ∈ turns, ∀ data, turn.operation = .write data → data.size = 0)
    (h : History Disturbance.Never w₀ c₀ turns w c) :
    (∀ turn ∈ turns, ∀ x ∈ turn.exchanges, ∀ number,
        x.request.Stores w₀.session.uploadId number → x.store.body? w₀.session number = none) ∧
      ((Turn.mk .commit w c).result = .ok () →
        ∃ o, (Turn.mk .commit w c).contextAfter.store.objects.find? w₀.session.key = some o ∧
          o.content = Bytes.concat t.values ++ Bytes.concat (turns.map Turn.accepted)) := by
  obtain ⟨happends, hbehind⟩ := h.behind hopen hcalm hnumbers id
  refine ⟨happends, fun hreturned => ?_⟩
  have hphase : w.phase = .active := by
    by_contra hfinished
    have hrefused := run_of_finished (c := c) hfinished .commit
    rw [Turn.result, Turn.outcome, hrefused] at hreturned
    cases hreturned
  have hplan : c₀.service.Within Disturbance.Never := hcalm.within
  have hrun : commit.execute w c =
      (.ok (), (Turn.mk .commit w c).writerAfter, (Turn.mk .commit w c).contextAfter) := by
    rw [← hreturned]
    rfl
  rw [← h.key_eq hplan]
  exact (hbehind hphase).commit_stores hphase hrun

/-! ## 5. With a gap and without -/

namespace Sample

/-- A writer that was resumed on these parts. -/
def resumedOn (t : Keyed Int Bytes) : Writer :=
  ofSession policy ⟨"u1", "bucket", "a"⟩ (Part.ofTable t)

def calmContext (t : Keyed Int Bytes) : Context (Disturbed Store) :=
  { context [] with service := ⟨((Store.empty 0).startUpload "a").setParts "u1" t, []⟩ }

theorem calmContext_isCalm (t : Keyed Int Bytes) : (calmContext t).service.IsCalm := by
  intro q hq
  cases hq

theorem resumedOn_opened (t : Keyed Int Bytes) : (resumedOn t).Opened (calmContext t) t := by
  have hids := Store.empty_idsInOrder 0
  exact ⟨(calmContext_isCalm t).failsOnly, (hids.startUpload "a").setParts _ _, rfl, _,
    Store.upload?_setParts (hids.upload?_startUpload "a") _, rfl⟩

def appending (t : Keyed Int Bytes) : Turn (Disturbed Store) := ⟨.write data, resumedOn t, calmContext t⟩

theorem appending_history (t : Keyed Int Bytes) : History Disturbance.Never (resumedOn t)
    (calmContext t) [appending t] (appending t).writerAfter (appending t).contextAfter :=
  .call (appending t) .start

def commitAfter (t : Keyed Int Bytes) : Turn (Disturbed Store) :=
  ⟨.commit, (appending t).writerAfter, (appending t).contextAfter⟩

/-- The commit returns, since the store takes parts of any size. -/
theorem commitAfter_returns :
    (commitAfter (Part.table [longPart])).result = .ok () := by
  have hopen := resumedOn_opened (Part.table [longPart])
  obtain ⟨result, w', c', hrun, hcases⟩ := (hopen.flowing (by decide)).write_returns data
  rcases hcases with ⟨-, hcontinues, sent, hflowing⟩ | ⟨e, -, hnot⟩
  · have hwrite : (Operation.write data).run.execute (resumedOn (Part.table [longPart]))
        (calmContext (Part.table [longPart])) = (result.map fun _ => (), w', c') := by
      rw [Operation.run, Writing.execute_discard, hrun]
    obtain ⟨bodies, hstore⟩ := hcontinues.store
    have hfloor : c'.store.minPartSize = 0 := by
      rw [hstore]
      rfl
    have hcalm := hcontinues.leads.calm (calmContext_isCalm _)
    obtain ⟨w₂, c₂, hcommit, -⟩ := commit_returns hflowing.phase hflowing.not_sourceCompleted
      hflowing.holds.attached hflowing.holds.fits hcalm (by simp [hfloor])
    have houtcome : (appending (Part.table [longPart])).outcome =
        (result.map fun _ => (), w', c') := hwrite
    rw [commitAfter, Turn.result, Turn.outcome, Turn.writerAfter, Turn.contextAfter, houtcome]
    simp only [Operation.run]
    rw [hcommit]
  · exact absurd (calmContext_isCalm _) hnot

end Sample

theorem object_after_appending :
    (Sample.resumedOn (Part.table [Sample.longPart])).Opened
        (Sample.calmContext (Part.table [Sample.longPart])) (Part.table [Sample.longPart]) ∧
      (∀ x ∈ (Sample.appending (Part.table [Sample.longPart])).exchanges, ∀ number,
        x.request.Stores "u1" number → x.store.body? ⟨"u1", "bucket", "a"⟩ number = none) ∧
      ∃ o, (Sample.commitAfter (Part.table [Sample.longPart])).contextAfter.store.objects.find? "a" =
          some o ∧ o.content = Sample.longPart ++ Sample.data := by
  have hopen := Sample.resumedOn_opened (Part.table [Sample.longPart])
  have haccepted : (Sample.appending (Part.table [Sample.longPart])).accepted = Sample.data := by
    decide +kernel
  obtain ⟨hparts, hstores⟩ := History.append_keeps_parts hopen (Sample.calmContext_isCalm _)
    (.inl ⟨_, rfl⟩) (Sample.appending_history _)
  obtain ⟨o, ho, hcontent⟩ := hstores Sample.commitAfter_returns
  refine ⟨hopen, hparts _ (by simp), o, ho, ?_⟩
  rw [hcontent, Part.values_table]
  simp [haccepted]

namespace Sample

/-- The only part has the number two. -/
def gapped : Keyed Int Bytes := Keyed.empty.insert 2 twoBytes

theorem appending_gapped_asks : (appending gapped).exchanges.length = 1 := by
  decide +kernel

def firstPart : Exchange (Disturbed Store) :=
  (appending gapped).exchanges.get ⟨0, by rw [appending_gapped_asks]; decide⟩

theorem firstPart_stores : firstPart.request.Stores "u1" 2 :=
  .inl ⟨"bucket", "a", longPart, by with_unfolding_all rfl⟩

end Sample

/-- The first part that is sent behind a single part of number two takes its place. -/
theorem append_fills_gap :
    (Sample.resumedOn Sample.gapped).Opened (Sample.calmContext Sample.gapped) Sample.gapped ∧
      (Sample.calmContext Sample.gapped).service.IsCalm ∧
      (∀ e ∈ Sample.gapped.entries, 1 ≤ e.1) ∧
      History Disturbance.Never (Sample.resumedOn Sample.gapped) (Sample.calmContext Sample.gapped)
        [Sample.appending Sample.gapped] (Sample.appending Sample.gapped).writerAfter
        (Sample.appending Sample.gapped).contextAfter ∧
      ∃ x ∈ (Sample.appending Sample.gapped).exchanges,
        x.request.Stores (Sample.resumedOn Sample.gapped).session.uploadId 2 ∧
          x.store.body? (Sample.resumedOn Sample.gapped).session 2 = some Sample.twoBytes := by
  refine ⟨Sample.resumedOn_opened _, Sample.calmContext_isCalm _, by decide,
    Sample.appending_history _, Sample.firstPart, List.get_mem _ _, Sample.firstPart_stores, ?_⟩
  with_unfolding_all rfl

end Writer

end ResumableStorage
