/-
  ResumableStorage/Proofs/Upload/Steps.lean
  =========================================
  **Everything that a call of a writer can do** — what it asks of the service, in which
  order, and what becomes of the writer, for every service and whatever it answers.

  The ways in which a call can end stand in one relation, `Step`, with a constructor for
  each.  A property of a writer's requests is proved on its constructors, and nothing has
  to be executed again.
-/
import ResumableStorage.Proofs.Client.Decoding
import ResumableStorage.Proofs.Upload.History

namespace ResumableStorage

variable {σ α β : Type} [Service σ]

/-! ## 1. Requests of a writer -/

namespace Request

def IsPartOf (s : Session) (r : Request) : Prop :=
  ∃ number body, r = .uploadPart s.bucket s.key s.uploadId number body

def Creates (s : Session) (r : Request) : Prop :=
  ∃ type, r = .createUpload s.bucket s.key type

/-- It sends a part of the session's upload, completes it or drops it. -/
def IsAbout (s : Session) (r : Request) : Prop :=
  r.IsPartOf s ∨ (∃ parts, r = s.completion parts) ∨ r = s.abortion

end Request

namespace Exchange

/-- A part of the session's upload that did not come back as one. -/
def IsFailedPart (x : Exchange σ) (s : Session) (e : Error) : Prop :=
  ∃ number body, x.request = .uploadPart s.bucket s.key s.uploadId number body ∧
    x.decoded .uploadPart (Part.ofAnswer number body.size) = .error e

/-- A completion of the session's upload that has returned. -/
def Completes (x : Exchange σ) (s : Session) : Prop :=
  (∃ parts, x.request = s.completion parts) ∧
    ∃ etag, x.decoded .completeUpload Client.completionTag = .ok etag

/-- The creation of an upload in the place of the session's, which has returned `new`. -/
def Starts (x : Exchange σ) (s new : Session) : Prop :=
  x.request.Creates s ∧ x.decoded .createUpload (Session.ofAnswer s.bucket s.key) = .ok new

/-- Whatever the service answers, the new upload is at the same key. -/
theorem Starts.key_eq {x : Exchange σ} {s new : Session} (h : x.Starts s new) : new.key = s.key := by
  obtain ⟨v, -, hnew⟩ := answer_of_decoded h.2
  rw [Session.ofAnswer] at hnew
  rcases hid : (v.fieldD "UploadId" .null).mapError Error.malformed with e | id <;>
    rw [hid] at hnew
  · cases hnew
  · change (if id.isGiven then _ else _ : Except Error Session) = _ at hnew
    split at hnew <;> cases hnew
    rfl

end Exchange

namespace Writer

/-- The writer is the same but for its parts, its size and its slots. -/
def Advances (w w' : Writer) : Prop :=
  ∃ parts size slots, w' = { w with parts := parts, size := size, slots := slots }

variable {w w' w₁ : Writer} {c c' : Context σ} {xs ys : List (Exchange σ)}

theorem Advances.refl (w : Writer) : w.Advances w := ⟨w.parts, w.size, w.slots, rfl⟩

theorem Advances.trans (h : w.Advances w₁) (h' : w₁.Advances w') : w.Advances w' := by
  obtain ⟨_, _, _, rfl⟩ := h
  obtain ⟨parts, size, slots, rfl⟩ := h'
  exact ⟨parts, size, slots, rfl⟩

theorem Advances.session_eq (h : w.Advances w') : w'.session = w.session := by
  obtain ⟨_, _, _, rfl⟩ := h
  rfl

theorem Advances.repair_eq (h : w.Advances w') : w'.repair = w.repair := by
  obtain ⟨_, _, _, rfl⟩ := h
  rfl

theorem Advances.phase_eq (h : w.Advances w') : w'.phase = w.phase := by
  obtain ⟨_, _, _, rfl⟩ := h
  rfl

/-- Parts of the writer's upload were sent and nothing else was asked; what was raised is the failure
of the last of them. -/
structure Sends (w : Writer) (result : Except Error α) (w' : Writer) (xs : List (Exchange σ)) :
    Prop where
  parts : ∀ x ∈ xs, x.request.IsPartOf w.session
  advances : w.Advances w'
  failed : ∀ e, result = .error e → ∃ x, xs.getLast? = some x ∧ x.IsFailedPart w.session e

theorem Sends.nothing (h : w.Advances w') (a : α) : Sends w (.ok a) w' ([] : List (Exchange σ)) :=
  ⟨by simp, h, by simp⟩

theorem Sends.then {a : α} {result : Except Error β} (h : Sends w (.ok a) w₁ xs)
    (h' : Sends w₁ result w' ys) : Sends w result w' (xs ++ ys) := by
  obtain ⟨hparts, hadvances, hfailed⟩ := h'
  rw [h.advances.session_eq] at hparts hfailed
  refine ⟨?_, h.advances.trans hadvances, ?_⟩
  · intro x hx
    exact (List.mem_append.mp hx).elim (h.parts x) (hparts x)
  · intro e he
    obtain ⟨x, hlast, hx⟩ := hfailed e he
    exact ⟨x, by rw [List.getLast?_append, hlast, Option.some_or], hx⟩

theorem Sends.discard {result : Except Error α} (h : Sends w result w' xs) :
    Sends w (result.map fun _ => ()) w' xs := by
  refine ⟨h.parts, h.advances, ?_⟩
  intro e he
  rcases result with e | a <;> cases he
  exact h.failed e rfl

theorem Sends.error {e : Error} (h : Sends w (.error e : Except Error α) w' xs) :
    Sends w (.error e : Except Error β) w' xs := by
  refine ⟨h.parts, h.advances, ?_⟩
  intro e' he
  cases he
  exact h.failed e rfl

end Writer

/-! ## 2. Steps that send parts -/

namespace Writing

open Writer

/-- Whatever the writer is, the steps do no more than send parts of its upload. -/
def SendsParts (x : Writing σ α) : Prop :=
  ∀ w c, ∃ xs, c.Asks (x.execute w c).2.2 xs ∧ Sends w (x.execute w c).1 (x.execute w c).2.1 xs

theorem sendsParts_pure (a : α) : (pure a : Writing σ α).SendsParts :=
  fun w c => ⟨[], .refl c, .nothing (.refl w) a⟩

theorem sendsParts_change {f : Writer → Writer} (h : ∀ w : Writer, w.Advances (f w)) :
    (change f : Writing σ Unit).SendsParts :=
  fun w c => ⟨[], .refl c, .nothing (h w) ()⟩

theorem sendsParts_onPool (f : Pool → Pool) : (onPool f : Writing σ Unit).SendsParts :=
  fun w _ => ⟨[], .nothing rfl rfl, .nothing (.refl w) ()⟩

theorem sendsParts_writer : (writer : Writing σ Writer).SendsParts :=
  fun w c => ⟨[], .refl c, .nothing (.refl w) w⟩

theorem SendsParts.bind {x : Writing σ α} {f : α → Writing σ β} (hx : x.SendsParts)
    (hf : ∀ a, (f a).SendsParts) : (x >>= f).SendsParts := by
  intro w c
  obtain ⟨xs, hasks, hsends⟩ := hx w c
  rw [execute_bind]
  rcases hrun : x.execute w c with ⟨e | a, w₁, c₁⟩ <;> rw [hrun] at hasks hsends
  · exact ⟨xs, hasks, hsends.error⟩
  · obtain ⟨ys, hasks', hsends'⟩ := hf a w₁ c₁
    exact ⟨xs ++ ys, hasks.trans hasks', hsends.then hsends'⟩

end Writing

namespace Writer

open Writing

/-- A property of runs of a writer that is kept under sequencing and holds of the steps by which
bytes are staged and sent. -/
structure Sending (K : ∀ {α : Type}, Writing σ α → Prop) : Prop where
  pure : ∀ {α : Type} (a : α), K (pure a)
  bind : ∀ {α β : Type} {x : Writing σ α} {f : α → Writing σ β}, K x → (∀ a, K (f a)) → K (x >>= f)
  writer : K writer
  stage : ∀ {f : Writer → Writer}, (∀ w, ∃ size slots, f w = { w with size := size, slots := slots }) →
    K (change f)
  onPool : ∀ {f : Pool → Pool}, (∀ p, (f p).capacity = p.capacity) → K (onPool f)
  borrow : K borrow
  sendPart : ∀ body : Bytes, K (sendPart body)

namespace Sending

variable {K : ∀ {α : Type}, Writing σ α → Prop}

theorem flush (h : Sending K) : K (flush : Writing σ Unit) := by
  apply h.bind h.writer
  intro w
  rcases w.slots with _ | slots
  · exact h.pure ()
  · by_cases hempty : slots.isEmpty = true
    · simp only [hempty, if_true]
      exact h.pure ()
    · simp only [hempty, Bool.false_eq_true, if_false]
      apply h.bind (h.sendPart _)
      intro _
      apply h.stage
      intro w
      exact ⟨_, _, rfl⟩

theorem feed (h : Sending K) (policy : Policy) (data : Bytes) (slots : Slots) (offset : Nat) :
    K (feed policy data slots offset : Writing σ Nat) := by
  have hstage : ∀ slots offset, K (Writer.stage policy data slots offset : Writing σ Unit) := by
    intro slots offset
    apply h.bind (h.onPool ?_)
    · intro _
      apply h.stage
      intro w
      exact ⟨_, _, rfl⟩
    · intro p
      rfl
  induction slots, offset using feed.induct policy data with
  | case1 slots offset hlt filled hfull =>
    rename_i ih
    rw [Writer.feed, if_pos hlt]
    rw [if_pos hfull]
    apply h.bind (hstage _ _)
    intro _
    apply h.bind (h.sendPart _)
    intro _
    apply h.bind (h.stage fun w => ⟨_, _, rfl⟩)
    intro _
    exact ih
  | case2 slots offset hlt filled hroom =>
    rename_i ih
    rw [Writer.feed, if_pos hlt]
    rw [if_neg hroom]
    apply h.bind (hstage _ _)
    intro _
    exact ih
  | case3 slots offset hge =>
    rw [Writer.feed, if_neg hge]
    exact h.pure offset

theorem takeIn (h : Sending K) (data : Bytes) : K (takeIn data : Writing σ Nat) :=
  h.bind h.borrow fun slots => h.bind h.writer fun w => h.feed w.policy data slots 0

theorem sendRest (h : Sending K) : K (sendRest : Writing σ Unit) := by
  apply h.bind h.flush
  intro _
  apply h.bind h.writer
  intro w
  split
  · exact h.sendPart _
  · exact h.pure ()

end Sending

variable {w w' w₁ : Writer} {c c' : Context σ}

/-- A part is one request; when it fails the writer and the pool are as they were. -/
theorem sendPart_asks (w : Writer) (c : Context σ) (body : Bytes) :
    ∃ x c', c.Asks c' [x] ∧ c'.pool = c.pool ∧ x.request.IsPartOf w.session ∧
      ((∃ part, (sendPart body).execute w c = (.ok (), { w with parts := w.parts ++ [part] }, c')) ∨
        ∃ e, x.IsFailedPart w.session e ∧ (sendPart body).execute w c = (.error e, w, c')) := by
  let r : Request := .uploadPart w.session.bucket w.session.key w.session.uploadId
    (w.parts.length + 1) body
  have hr : r.IsPartOf w.session := ⟨_, _, rfl⟩
  have hrun := Client.uploadPart_decodes (σ := σ) w.session (w.parts.length + 1) body c
  simp only [sendPart, Writing.execute_bind, Writing.execute_writer, Writing.execute_ofRun, hrun]
  rcases hpart : (c.exchange r).decoded .uploadPart
    (Part.ofAnswer (w.parts.length + 1) body.size) with e | part
  · exact ⟨c.exchange r, c.asked r, c.asks_asked r, rfl, hr, .inr ⟨e, ⟨_, _, rfl, hpart⟩, rfl⟩⟩
  · exact ⟨c.exchange r, { c.asked r with meters := (c.asked r).meters.addPart body.size },
      (c.asks_asked r).then_nothing rfl rfl, rfl, hr, .inl ⟨part, rfl⟩⟩

theorem sendPart_exchange (w : Writer) (c : Context σ) (body : Bytes) :
    c.Asks ((sendPart body).execute w c).2.2 [c.exchange (.uploadPart w.session.bucket w.session.key
      w.session.uploadId (w.parts.length + 1) body)] := by
  have hrun := Client.uploadPart_decodes (σ := σ) w.session (w.parts.length + 1) body c
  simp only [sendPart, Writing.execute_bind, Writing.execute_writer, Writing.execute_ofRun, hrun]
  rcases (c.exchange (.uploadPart w.session.bucket w.session.key w.session.uploadId
    (w.parts.length + 1) body)).decoded .uploadPart (Part.ofAnswer (w.parts.length + 1) body.size)
    with e | part
  · exact c.asks_asked _
  · exact (c.asks_asked _).then_nothing rfl rfl

theorem sendPart_sendsParts (body : Bytes) : (sendPart body : Writing σ Unit).SendsParts := by
  intro w c
  obtain ⟨x, c', hasks, -, hx, ⟨part, hrun⟩ | ⟨e, hfailed, hrun⟩⟩ := sendPart_asks w c body <;>
    rw [hrun]
  · refine ⟨[x], hasks, ?_, ⟨_, _, _, rfl⟩, by simp⟩
    intro y hy
    rwa [List.mem_singleton.mp hy]
  · refine ⟨[x], hasks, ?_, .refl w, ?_⟩
    · intro y hy
      rwa [List.mem_singleton.mp hy]
    · intro e' he
      cases he
      exact ⟨x, rfl, hfailed⟩

/-- Lending asks nothing, and the slots hold what the writer has staged. -/
theorem borrow_asks (w : Writer) (c : Context σ) :
    ∃ slots c', borrow.execute w c = (.ok slots, { w with slots := some slots }, c') ∧
      c.Asks c' [] ∧ slots.ready.held = w.ready ∧ slots.pending.held = w.pending := by
  simp only [borrow, Writing.execute_bind, Writing.execute_writer]
  rcases hslots : w.slots with _ | slots
  · simp only [ready, pending, hslots]
    exact ⟨_, _, rfl, .nothing rfl rfl, rfl, rfl⟩
  · have hw : { w with slots := some slots } = w := by rw [← hslots]
    simp only [ready, pending, hslots]
    exact ⟨slots, c, by rw [hw]; rfl, .refl c, rfl, rfl⟩

theorem borrow_sendsParts : (borrow : Writing σ Slots).SendsParts := by
  intro w c
  obtain ⟨slots, c', hrun, hasks, -⟩ := borrow_asks w c
  rw [hrun]
  exact ⟨[], hasks, .nothing ⟨_, _, _, rfl⟩ slots⟩

theorem sendsParts_sending : Sending (σ := σ) (fun x => x.SendsParts) where
  pure := sendsParts_pure
  bind hx hf := hx.bind hf
  writer := sendsParts_writer
  stage h := by
    apply sendsParts_change
    intro w
    obtain ⟨size, slots, hw⟩ := h w
    exact ⟨w.parts, size, slots, hw⟩
  onPool _ := sendsParts_onPool _
  borrow := borrow_sendsParts
  sendPart := sendPart_sendsParts

theorem flush_sendsParts : (flush : Writing σ Unit).SendsParts := sendsParts_sending.flush

theorem takeIn_sendsParts (data : Bytes) : (takeIn data : Writing σ Nat).SendsParts :=
  sendsParts_sending.takeIn data

theorem sendRest_sendsParts : (sendRest : Writing σ Unit).SendsParts := sendsParts_sending.sendRest

/-! ## 3. Replacing an upload -/

theorem abortQuietly_asks (s : Session) (c : Context σ) :
    ∃ y c', y.request = s.abortion ∧ (abortQuietly s).execute c = (.ok (), c') ∧ c.Asks c' [y] ∧
      c'.pool = c.pool := by
  have hasks := c.asks_asked s.abortion
  simp only [abortQuietly, Run.execute_tryCatch, Client.abortUpload_decodes s c]
  rcases (c.exchange s.abortion).decoded .abortUpload fun _ => .ok () with e | ⟨⟩
  · exact ⟨c.exchange s.abortion, { c.asked s.abortion with notices :=
      (c.asked s.abortion).notices ++ [.abortFailed s.key s.uploadId e] }, rfl, rfl,
      hasks.then_nothing rfl rfl, rfl⟩
  · exact ⟨c.exchange s.abortion, c.asked s.abortion, rfl, rfl, hasks, rfl⟩

theorem orAbort_error {x : Run σ α} {e : Error} {c₁ : Context σ}
    (hrun : x.execute c = (.error e, c₁)) (s : Session) :
    ∃ y c', y.request = s.abortion ∧ (orAbort s x).execute c = (.error e, c') ∧ c₁.Asks c' [y] ∧
      c'.pool = c₁.pool := by
  obtain ⟨y, c', hy, habort, hasks, hpool⟩ := abortQuietly_asks s c₁
  refine ⟨y, c', hy, ?_, hasks, hpool⟩
  simp only [orAbort, Run.execute_tryCatch, hrun, Run.execute_bind, habort, Run.execute_throw]

theorem abortQuietly_quiet {p : Request → Prop} {s : Session} (hp : p s.abortion) :
    (abortQuietly s : Run σ Unit).Quiet p :=
  ((Client.abortUpload_decodes s).quiet hp).tryCatch fun _ => Run.quiet_report _

theorem orAbort_quiet {p : Request → Prop} {s : Session} {x : Run σ α} (hp : p s.abortion)
    (hx : x.Quiet p) : (orAbort s x).Quiet p :=
  hx.tryCatch fun _ => (abortQuietly_quiet hp).bind fun _ => Run.quiet_throw _

theorem drain_quiet (body : Value) : (Stream.drain body : Run σ Bytes).Quiet Request.Carries := by
  apply (Run.quiet_decoded _).bind
  intro s
  have hclose : (s.close : Run σ Unit).Quiet Request.Carries := by
    unfold Stream.close
    split
    · exact Run.quiet_released
    · exact Run.quiet_pure ()
  apply hclose.bind
  intro _
  split
  · exact Run.quiet_pure _
  · exact Run.quiet_throw _

theorem carryOver_quiet (old new : Session) (size : Int) (mode : RepairMode) :
    (carryOver old new size mode : Run σ (List Part × Bytes)).Quiet Request.Carries := by
  cases mode with
  | refetch =>
    have hrefetch : (refetch old size : Run σ Bytes).Quiet Request.Carries := by
      apply ((Client.getObject_decodes old.bucket old.key).quiet (.inl rfl)).bind
      intro body
      apply (drain_quiet body).bind
      intro content
      split
      · exact Run.quiet_pure _
      · exact Run.quiet_throw _
    exact hrefetch.bind fun _ => Run.quiet_pure _
  | copy => exact (Client.copyPart_quiet _ _ _).bind fun _ => Run.quiet_pure _

/-- The request that completes the upload of the writer, met by the service as it is. -/
def completing (w : Writer) (c : Context σ) : Exchange σ :=
  c.exchange (w.session.completion w.parts)

/-- What a repair asks to complete the old upload: nothing when an attempt before has done it. -/
def closing (w : Writer) (c : Context σ) : List (Exchange σ) :=
  if w.sourceCompleted then [] else [w.completing c]

/-- What a repair asks, and what becomes of the writer. -/
inductive Repairs (w : Writer) (c : Context σ) :
    Except Error Unit → Writer → List (Exchange σ) → Prop
  | notCompleted {e : Error} {y : Exchange σ} (hsource : w.sourceCompleted = false)
      (hx : (w.completing c).decoded .completeUpload Client.completionTag = .error e)
      (hy : y.request = w.session.abortion) : Repairs w c (.error e) w [w.completing c, y]
  | notStarted {e : Error} {x : Exchange σ}
      (hclosing : ∀ z ∈ w.closing c, z.Completes w.session) (hx : x.request.Creates w.session)
      (hnew : x.decoded .createUpload (Session.ofAnswer w.session.bucket w.session.key) = .error e) :
      Repairs w c (.error e) { w with repair := .required true } (w.closing c ++ [x])
  | notCarried {e : Error} {new : Session} {x y : Exchange σ} {carried : List (Exchange σ)}
      (hclosing : ∀ z ∈ w.closing c, z.Completes w.session) (hx : x.Starts w.session new)
      (hcarried : ∀ z ∈ carried, z.request.Carries) (hy : y.request = new.abortion) :
      Repairs w c (.error e) { w with repair := .required true }
        (w.closing c ++ x :: (carried ++ [y]))
  | replaced {new : Session} {x : Exchange σ} {carried : List (Exchange σ)} {parts : List Part}
      {slots : Option Slots}
      (hclosing : ∀ z ∈ w.closing c, z.Completes w.session) (hx : x.Starts w.session new)
      (hcarried : ∀ z ∈ carried, z.request.Carries) :
      Repairs w c (.ok ()) { w with session := new, parts := parts, repair := .done, slots := slots }
        (w.closing c ++ x :: carried)

theorem completeSource_asks (w : Writer) (c : Context σ) :
    (∃ c₁, completeSource.execute w c = (.ok (), { w with repair := .required true }, c₁) ∧
        c.Asks c₁ (w.closing c) ∧ c₁.pool = c.pool ∧
        ∀ z ∈ w.closing c, z.Completes w.session) ∨
      ∃ e y c₁, w.sourceCompleted = false ∧
        (w.completing c).decoded .completeUpload Client.completionTag = .error e ∧
        y.request = w.session.abortion ∧ completeSource.execute w c = (.error e, w, c₁) ∧
        c.Asks c₁ [w.completing c, y] ∧ c₁.pool = c.pool := by
  simp only [completeSource, Writing.execute_bind, Writing.execute_writer]
  rcases hsource : w.sourceCompleted
  · -- the old upload has to be completed
    have hrun := Client.completeUpload_decodes w.session w.parts c
    have hasks : c.Asks (c.asked (w.session.completion w.parts)) [w.completing c] := c.asks_asked _
    simp only [closing, hsource, Bool.not_false, Bool.false_eq_true, if_true, if_false,
      Writing.execute_bind, Writing.execute_discard, Writing.execute_ofRun]
    rcases htag : (w.completing c).decoded .completeUpload Client.completionTag with e | etag
    · rw [completing] at htag
      rw [htag] at hrun
      obtain ⟨y, c₁, hy, habort, hasks', hpool⟩ := orAbort_error hrun w.session
      right
      refine ⟨e, y, c₁, trivial, rfl, hy, ?_, hasks.trans hasks', hpool⟩
      rw [habort]
      rfl
    · rw [completing] at htag
      rw [htag] at hrun
      left
      refine ⟨_, ?_, hasks, rfl, ?_⟩
      · rw [orAbort_of_ok hrun w.session]
        rfl
      · intro z hz
        rw [List.mem_singleton.mp hz]
        exact ⟨⟨w.parts, rfl⟩, etag, htag⟩
  · have hself : { w with repair := .required true } = w := by
      rw [sourceCompleted, decide_eq_true_eq] at hsource
      rw [← hsource]
    simp only [closing, hsource, Bool.not_true, Bool.false_eq_true, if_true, if_false, hself]
    exact .inl ⟨c, rfl, .refl c, rfl, by simp⟩

/-- What came of carrying the writer's object over into the upload `new`, and what was asked for
that. -/
def CarriesOver (w : Writer) (new : Session) (result : Except Error (List Part × Bytes))
    (xs : List (Exchange σ)) : Prop :=
  ∃ c c' : Context σ, (carryOver w.session new w.size (repairMode w.policy w.size)).execute c =
    (result, c') ∧ c.Asks c' xs

theorem CarriesOver.carries {new : Session} {result : Except Error (List Part × Bytes)}
    {xs : List (Exchange σ)} (h : w.CarriesOver new result xs) : ∀ x ∈ xs, x.request.Carries := by
  obtain ⟨c, c', hrun, hasks⟩ := h
  obtain ⟨ys, hasks', -, -, hcarries⟩ :=
    carryOver_quiet w.session new w.size (repairMode w.policy w.size) c
  rw [hrun] at hasks'
  rw [← hasks.exchanges_eq, hasks'.exchanges_eq]
  exact hcarries

/-- The ways in which a repair can end.  What is read again goes into the first slot; a copy leaves
the slots alone. -/
inductive RepairStep (w : Writer) (c : Context σ) :
    Except Error Unit → Writer → List (Exchange σ) → Prop
  | notCompleted {e : Error} {y : Exchange σ} (hsource : w.sourceCompleted = false)
      (hx : (w.completing c).decoded .completeUpload Client.completionTag = .error e)
      (hy : y.request = w.session.abortion) : RepairStep w c (.error e) w [w.completing c, y]
  | notStarted {e : Error} {x : Exchange σ}
      (hclosing : ∀ z ∈ w.closing c, z.Completes w.session) (hx : x.request.Creates w.session)
      (hnew : x.decoded .createUpload (Session.ofAnswer w.session.bucket w.session.key) = .error e) :
      RepairStep w c (.error e) { w with repair := .required true } (w.closing c ++ [x])
  | notCarried {e : Error} {new : Session} {x y : Exchange σ} {carried : List (Exchange σ)}
      (hclosing : ∀ z ∈ w.closing c, z.Completes w.session) (hx : x.Starts w.session new)
      (hcarried : w.CarriesOver new (.error e) carried) (hy : y.request = new.abortion) :
      RepairStep w c (.error e) { w with repair := .required true }
        (w.closing c ++ x :: (carried ++ [y]))
  | staged {new : Session} {x : Exchange σ} {carried : List (Exchange σ)} {parts : List Part}
      {content : Bytes} {lent : Slots} (hmode : repairMode w.policy w.size = .refetch)
      (hclosing : ∀ z ∈ w.closing c, z.Completes w.session) (hx : x.Starts w.session new)
      (hcarried : w.CarriesOver new (.ok (parts, content)) carried)
      (hready : lent.ready.held = w.ready) (hpending : lent.pending.held = w.pending) :
      RepairStep w c (.ok ())
        { w with
          session := new, parts := parts, repair := .done
          slots := some { lent with ready := (lent.ready.fill w.policy.chunk content 0).1 } }
        (w.closing c ++ x :: carried)
  | copied {new : Session} {x : Exchange σ} {carried : List (Exchange σ)} {parts : List Part}
      {content : Bytes} (hmode : repairMode w.policy w.size = .copy)
      (hclosing : ∀ z ∈ w.closing c, z.Completes w.session) (hx : x.Starts w.session new)
      (hcarried : w.CarriesOver new (.ok (parts, content)) carried) :
      RepairStep w c (.ok ()) { w with session := new, parts := parts, repair := .done }
        (w.closing c ++ x :: carried)

/-- The inversion of a repair, for every service and whatever it answers. -/
theorem replaceSession_step (w : Writer) (c : Context σ) :
    ∃ result w' c' xs, replaceSession.execute w c = (result, w', c') ∧ c.Asks c' xs ∧
      w.RepairStep c result w' xs ∧ ∀ e, result = .error e → c'.pool = c.pool := by
  simp only [replaceSession, Writing.execute_bind]
  rcases completeSource_asks w c with ⟨c₁, hrun₁, hasks₁, hpool₁, hclosing⟩ |
    ⟨e, y, c₁, hsource, hx, hy, hrun₁, hasks₁, hpool₁⟩
  swap
  · rw [hrun₁]
    exact ⟨_, _, _, _, rfl, hasks₁, .notCompleted hsource hx hy, fun _ _ => hpool₁⟩
  rw [hrun₁]
  -- the new upload is started
  have hcreate := Client.createUpload_decodes w.session.bucket w.session.key opaqueContent c₁
  have hasks₂ := hasks₁.trans (c₁.asks_asked (.createUpload w.session.bucket w.session.key
    (Client.nonEmpty opaqueContent)))
  simp only [Writing.execute_writer, Writing.execute_ofRun, hcreate]
  rcases hnew : (c₁.exchange (.createUpload w.session.bucket w.session.key
    (Client.nonEmpty opaqueContent))).decoded .createUpload
      (Session.ofAnswer w.session.bucket w.session.key) with e | new
  · exact ⟨_, _, _, _, rfl, hasks₂, .notStarted hclosing ⟨_, rfl⟩ hnew, fun _ _ => hpool₁⟩
  -- the object is carried over
  simp only
  obtain ⟨carried, hasks₃, hpool₃, -⟩ := carryOver_quiet w.session new w.size
    (repairMode w.policy w.size) (c₁.asked (.createUpload w.session.bucket w.session.key
      (Client.nonEmpty opaqueContent)))
  rcases hcarry : (carryOver w.session new w.size (repairMode w.policy w.size)).execute
    (c₁.asked (.createUpload w.session.bucket w.session.key (Client.nonEmpty opaqueContent)))
    with ⟨e | ⟨parts, content⟩, c₃⟩
  · rw [hcarry] at hasks₃ hpool₃
    obtain ⟨y, c', hy, habort, hasks₄, hpool₄⟩ := orAbort_error hcarry new
    rw [habort]
    refine ⟨_, _, _, _, rfl, hasks₂.trans (hasks₃.trans hasks₄), ?_,
      fun _ _ => hpool₄.trans (hpool₃.trans hpool₁)⟩
    rw [List.append_assoc]
    exact .notCarried hclosing ⟨⟨_, rfl⟩, hnew⟩ ⟨_, _, hcarry, hasks₃⟩ hy
  · rw [hcarry] at hasks₃
    rw [orAbort_of_ok hcarry new]
    have hcarried : w.CarriesOver new (.ok (parts, content)) carried := ⟨_, _, hcarry, hasks₃⟩
    have hasks := hasks₂.trans hasks₃
    rw [List.append_assoc] at hasks
    simp only [Writing.execute_change]
    split
    · rename_i hmode
      obtain ⟨slots, c₄, hborrow, hasks₄, hready, hpending⟩ :=
        borrow_asks { w with session := new, parts := parts, repair := .done } c₃
      have hall := hasks.trans hasks₄
      rw [List.append_nil] at hall
      simp only [Writing.execute_bind, hborrow, Writing.execute_change, Writing.execute_ofRun,
        Run.execute_count, Run.execute_report]
      exact ⟨_, _, _, _, rfl, hall.then_nothing rfl rfl,
        .staged hmode hclosing ⟨⟨_, rfl⟩, hnew⟩ hcarried hready hpending, by simp⟩
    · rename_i hmode
      have hcopy : repairMode w.policy w.size = .copy := by
        cases h : repairMode w.policy w.size
        · exact absurd h hmode
        · rfl
      simp only [Writing.execute_bind, Writing.execute_ofRun, Run.execute_count, Run.execute_report]
      exact ⟨_, _, _, _, rfl, hasks.then_nothing rfl rfl,
        .copied hcopy hclosing ⟨⟨_, rfl⟩, hnew⟩ hcarried, by simp⟩

theorem RepairStep.repairs {result : Except Error Unit} {xs : List (Exchange σ)}
    (h : w.RepairStep c result w' xs) : Repairs w c result w' xs := by
  cases h with
  | notCompleted hsource hx hy => exact .notCompleted hsource hx hy
  | notStarted hclosing hx hnew => exact .notStarted hclosing hx hnew
  | notCarried hclosing hx hcarried hy => exact .notCarried hclosing hx hcarried.carries hy
  | staged hmode hclosing hx hcarried => exact .replaced hclosing hx hcarried.carries
  | copied hmode hclosing hx hcarried => exact .replaced hclosing hx hcarried.carries

theorem replaceSession_repairs (w : Writer) (c : Context σ) :
    ∃ result w' c' xs, replaceSession.execute w c = (result, w', c') ∧ c.Asks c' xs ∧
      Repairs w c result w' xs ∧ ∀ e, result = .error e → c'.pool = c.pool := by
  obtain ⟨result, w', c', xs, hrun, hasks, hstep, hpool⟩ := replaceSession_step w c
  exact ⟨result, w', c', xs, hrun, hasks, hstep.repairs, hpool⟩

/-! ## 4. Calls -/

/-- The ways in which a call of a writer in use can end: the result, the writer afterwards, and what
was asked. -/
inductive Step (w : Writer) (c c' : Context σ) :
    Operation → Except Error Unit → Writer → List (Exchange σ) → Prop
  | wroteNothing {data : Bytes} (hdata : data.size = 0) : Step w c c' (.write data) (.ok ()) w []
  | wrote {data : Bytes} {result : Except Error Unit} {w' : Writer} {xs : List (Exchange σ)}
      (hdata : data.size ≠ 0) (hrepair : ∀ b, w.repair ≠ .required b)
      (h : Sends w result w' xs) : Step w c c' (.write data) result w' xs
  | notRepaired {data : Bytes} {b : Bool} {e : Error} {w' : Writer} {xs : List (Exchange σ)}
      (hdata : data.size ≠ 0) (hrepair : w.repair = .required b)
      (h : Repairs w c (.error e) w' xs) (hpool : c'.pool = c.pool) :
      Step w c c' (.write data) (.error e) w' xs
  | repaired {data : Bytes} {b : Bool} {result : Except Error Unit} {w₁ w' : Writer}
      {xs ys : List (Exchange σ)} (hdata : data.size ≠ 0) (hrepair : w.repair = .required b)
      (h : Repairs w c (.ok ()) w₁ xs) (hsends : Sends w₁ result w' ys) :
      Step w c c' (.write data) result w' (xs ++ ys)
  | closed {result : Except Error Unit} {w₁ : Writer} {xs : List (Exchange σ)}
      (h : Sends { w with phase := .closed } result w₁ xs) :
      Step w c c' .close result { w₁ with slots := none } xs
  /-- A repair that failed had completed the upload already. -/
  | committedBefore (hsource : w.sourceCompleted = true) :
      Step w c c' .commit (.ok ()) { w with phase := .committed, slots := none } []
  | restNotSent {e : Error} {x : Exchange σ} (hsource : w.sourceCompleted = false)
      (hx : x.IsFailedPart w.session e) (hpool : c'.pool = c.pool) :
      Step w c c' .commit (.error e) w [x]
  | committed {w₁ : Writer} {c₁ : Context σ} {xs : List (Exchange σ)}
      (hsource : w.sourceCompleted = false) (hrest : sendRest.execute w c = (.ok (), w₁, c₁))
      (h : Sends w (.ok () : Except Error Unit) w₁ xs)
      (hx : (w₁.completing c₁).Completes w.session) :
      Step w c c' .commit (.ok ()) { w₁ with phase := .committed, slots := none }
        (xs ++ [w₁.completing c₁])
  | notCommitted {e : Error} {w₁ : Writer} {c₁ : Context σ} {xs : List (Exchange σ)}
      {y : Exchange σ} (hsource : w.sourceCompleted = false)
      (hrest : sendRest.execute w c = (.ok (), w₁, c₁))
      (h : Sends w (.ok () : Except Error Unit) w₁ xs)
      (hx : (w₁.completing c₁).decoded .completeUpload Client.completionTag = .error e)
      (hy : y.request = w.session.abortion) :
      Step w c c' .commit (.error e) { w₁ with phase := .committed, slots := none }
        (xs ++ [w₁.completing c₁, y])
  | cancelledBefore (hsource : w.sourceCompleted = true) :
      Step w c c' .cancel (.ok ()) { w with phase := .cancelled, slots := none } []
  | cancelled {result : Except Error Unit} {y : Exchange σ} (hsource : w.sourceCompleted = false)
      (hy : y.request = w.session.abortion) :
      Step w c c' .cancel result { w with phase := .cancelled, slots := none } [y]

theorem release_asks (w : Writer) (c : Context σ) :
    ∃ c', release.execute w c = (.ok (), { w with slots := none }, c') ∧ c.Asks c' [] := by
  simp only [release, Writing.execute_modify]
  rcases hslots : w.slots with _ | slots
  · have hw : { w with slots := none } = w := by rw [← hslots]
    exact ⟨c, by rw [hw], .refl c⟩
  · exact ⟨_, rfl, .nothing rfl rfl⟩

theorem write_step (hphase : w.phase = .active) (data : Bytes) :
    ∃ result w' c' xs, (Operation.write data).run.execute w c = (result, w', c') ∧
      c.Asks c' xs ∧ Step w c c' (.write data) result w' xs := by
  simp only [Operation.run, Writing.execute_discard]
  by_cases hdata : data.size = 0
  · rw [write_of_empty hphase hdata]
    exact ⟨_, _, _, _, rfl, .refl c, .wroteNothing hdata⟩
  have htake : ∀ (w : Writer) (c : Context σ), ∃ result w' c' ys,
      (takeIn data).execute w c = (result, w', c') ∧
        c.Asks c' ys ∧ Sends w (result.map fun _ => ()) w' ys := by
    intro w c
    obtain ⟨ys, hasks, hsends⟩ := takeIn_sendsParts data w c
    exact ⟨_, _, _, ys, rfl, hasks, hsends.discard⟩
  by_cases hrepair : ∃ b, w.repair = .required b
  · obtain ⟨b, hrepair⟩ := hrepair
    obtain ⟨result, w₁, c₁, xs, hreplace, hasks, hrepairs, hpool⟩ := replaceSession_repairs w c
    rw [write_of_required hphase hrepair hdata, Writing.execute_bind, hreplace]
    rcases result with e | ⟨⟩
    · exact ⟨_, _, _, _, rfl, hasks, .notRepaired hdata hrepair hrepairs (hpool e rfl)⟩
    · obtain ⟨result, w', c', ys, hrun, hasks', hsends⟩ := htake w₁ c₁
      simp only [hrun]
      exact ⟨_, _, _, _, rfl, hasks.trans hasks', .repaired hdata hrepair hrepairs hsends⟩
  · have hsettled : ∀ b, w.repair ≠ .required b := fun b hb => hrepair ⟨b, hb⟩
    obtain ⟨result, w', c', ys, hrun, hasks, hsends⟩ := htake w c
    rw [write_of_settled hphase hsettled hdata, hrun]
    exact ⟨_, _, _, _, rfl, hasks, .wrote hdata hsettled hsends⟩

theorem flushRelease_step {c₁ : Context σ} (hasks₁ : c.Asks c₁ []) :
    ∃ result w' c' xs,
      flushRelease.execute { w with phase := .closed } c₁ = (result, w', c') ∧ c.Asks c' xs ∧
        Step w c c' .close result w' xs := by
  obtain ⟨xs, hasks, hsends⟩ := flush_sendsParts { w with phase := .closed } c₁
  obtain ⟨c₃, hrelease, hasks₃⟩ := release_asks
    (flush.execute { w with phase := .closed } c₁).2.1
    (flush.execute { w with phase := .closed } c₁).2.2
  have hall := (hasks₁.trans hasks).trans hasks₃
  rw [List.nil_append, List.append_nil] at hall
  simp only [flushRelease, Writing.execute_bind, Writing.execute_attempt, hrelease, countEnding,
    Writing.execute_ofRun, Run.execute_count]
  rcases hresult : (flush.execute { w with phase := .closed } c₁).1 with e | ⟨⟩ <;>
    rw [hresult] at hsends
  · exact ⟨_, _, _, _, rfl, hall.then_nothing rfl rfl, .closed hsends⟩
  · exact ⟨_, _, _, _, rfl, hall.then_nothing rfl rfl, .closed hsends⟩

theorem close_step (hphase : w.phase = .active) :
    ∃ result w' c' xs, close.execute w c = (result, w', c') ∧ c.Asks c' xs ∧
      Step w c c' .close result w' xs := by
  simp only [close, enter, Writing.execute_bind, ensureActive_of_active hphase,
    Writing.execute_writer, Writing.execute_change]
  rcases w.sourceCompleted
  · exact flushRelease_step (.refl c)
  · exact flushRelease_step (.nothing rfl rfl)

/-- A completion is one request, and one more for the upload to be dropped when that fails. -/
theorem complete_asks (w : Writer) (c : Context σ) :
    (∃ c', complete.execute w c = (.ok (), w, c') ∧ c.Asks c' [w.completing c] ∧
        (w.completing c).Completes w.session) ∨
      ∃ e y c', complete.execute w c = (.error e, w, c') ∧ c.Asks c' [w.completing c, y] ∧
        (w.completing c).decoded .completeUpload Client.completionTag = .error e ∧
        y.request = w.session.abortion := by
  have hrun := Client.completeUpload_decodes w.session w.parts c
  have hasks : c.Asks (c.asked (w.session.completion w.parts)) [w.completing c] := c.asks_asked _
  simp only [complete, countEnding, Writing.execute_bind, Writing.execute_writer,
    Writing.execute_attempt, Writing.execute_ofRun, hrun]
  rcases htag : (w.completing c).decoded .completeUpload Client.completionTag with e | etag
  · have htag' := htag
    rw [completing] at htag'
    right
    have hreported := hasks.then_nothing (c := { c.asked (w.session.completion w.parts) with
      notices := (c.asked (w.session.completion w.parts)).notices ++
        [.completeFailed w.session.key w.session.uploadId w.parts.length e] }) rfl rfl
    obtain ⟨y, c', hy, habort, hasks', -⟩ := abortQuietly_asks w.session
      { c.asked (w.session.completion w.parts) with
        notices := (c.asked (w.session.completion w.parts)).notices ++
          [.completeFailed w.session.key w.session.uploadId w.parts.length e] }
    simp only [htag', Writing.execute_bind, Writing.execute_ofRun, Run.execute_report, habort,
      Run.execute_count, Writing.execute_throw]
    exact ⟨e, y, _, rfl, (hreported.trans hasks').then_nothing rfl rfl, rfl, hy⟩
  · have htag' := htag
    rw [completing] at htag'
    left
    simp only [htag', Writing.execute_bind, Writing.execute_ofRun, Run.execute_count,
      Run.execute_report]
    exact ⟨_, rfl, hasks.then_nothing rfl rfl, ⟨w.parts, rfl⟩, etag, htag⟩

/-- What a commit still has to send is one part at most. -/
theorem sendRest_error {e : Error} (hrun : sendRest.execute w c = (.error e, w', c')) :
    w' = w ∧ c'.pool = c.pool ∧ ∃ x, c.Asks c' [x] ∧ x.IsFailedPart w.session e := by
  have hsend : ∃ body, (sendPart body).execute w c = (.error e, w', c') := by
    simp only [sendRest, Writing.execute_bind, Writing.execute_writer] at hrun
    have hflush : flush.execute w c = (.ok (), w, c) ∨
        ∃ body f, flush.execute w c =
          (sendPart body >>= fun _ => Writing.change f : Writing σ Unit).execute w c ∧
          ∀ w : Writer, (f w).parts = w.parts := by
      simp only [flush, Writing.execute_bind, Writing.execute_writer]
      rcases w.slots with _ | slots
      · exact .inl rfl
      · by_cases hempty : slots.isEmpty = true
        · simp only [hempty, if_true]
          exact .inl rfl
        · simp only [hempty, Bool.false_eq_true, if_false]
          exact .inr ⟨(slots.nextPart w.policy.chunk).1, _, Writing.execute_bind .., fun _ => rfl⟩
    rcases hflush with hflush | ⟨body, f, hflush, hparts⟩
    · simp only [hflush] at hrun
      split at hrun
      · exact ⟨_, hrun⟩
      · cases hrun
    · refine ⟨body, ?_⟩
      rw [hflush, Writing.execute_bind] at hrun
      obtain ⟨x, c₁, -, -, -, ⟨part, hsent⟩ | ⟨e', -, hsent⟩⟩ := sendPart_asks w c body
      · -- a part was sent, so there is no empty one that could fail
        simp [hsent, hparts] at hrun
      · simp only [hsent] at hrun
        rw [hsent, hrun]
  obtain ⟨body, hsend⟩ := hsend
  obtain ⟨x, c₁, hasks, hpool, -, ⟨part, hsent⟩ | ⟨e', hx, hsent⟩⟩ := sendPart_asks w c body
  · rw [hsend] at hsent
    cases hsent
  · rw [hsend] at hsent
    cases hsent
    exact ⟨rfl, hpool, x, hasks, hx⟩

theorem commit_step (hphase : w.phase = .active) :
    ∃ result w' c' xs, commit.execute w c = (result, w', c') ∧ c.Asks c' xs ∧
      Step w c c' .commit result w' xs := by
  rcases hsource : w.sourceCompleted
  · rw [commit_eq hphase hsource]
    obtain ⟨xs, hasks, hsends⟩ := sendRest_sendsParts w c
    rcases hrest : sendRest.execute w c with ⟨e | ⟨⟩, w₁, c₁⟩
    · obtain ⟨rfl, hpool, x, hasks', hx⟩ := sendRest_error hrest
      simp only [Writing.execute_bind, hrest]
      exact ⟨_, _, _, _, rfl, hasks', .restNotSent hsource hx hpool⟩
    · rw [hrest] at hasks hsends
      obtain ⟨c₂, hrelease, hasks₂⟩ := release_asks { w₁ with phase := .committed } c₁
      have hsession : w₁.session = w.session := hsends.advances.session_eq
      have hsame : (Writer.completing { w₁ with phase := .committed, slots := none } c₂) =
          w₁.completing c₁ := by
        simp only [completing, Context.exchange, Exchange.mk.injEq, true_and]
        exact hasks₂.chain
      have hasks' := hasks.trans hasks₂
      rw [List.append_nil] at hasks'
      simp only [enter, Writing.execute_bind, hrest, Writing.execute_change, hrelease]
      rcases complete_asks { w₁ with phase := .committed, slots := none } c₂ with
        ⟨c', hrun, hasks₃, hx⟩ | ⟨e, y, c', hrun, hasks₃, hx, hy⟩ <;>
        rw [hsame] at hasks₃ hx <;> rw [hrun]
      · simp only [hsession] at hx
        exact ⟨_, _, _, _, rfl, hasks'.trans hasks₃, .committed hsource hrest hsends hx⟩
      · simp only [hsession] at hy
        exact ⟨_, _, _, _, rfl, hasks'.trans hasks₃, .notCommitted hsource hrest hsends hx hy⟩
  · obtain ⟨c₁, hrelease, hasks⟩ := release_asks { w with phase := .committed } c
    simp only [commit, enter, countEnding, Writing.execute_bind, ensureActive_of_active hphase,
      Writing.execute_writer, hsource, if_true, Writing.execute_change, hrelease,
      Writing.execute_ofRun, Run.execute_count, Run.execute_report]
    exact ⟨_, _, _, _, rfl, hasks.then_nothing rfl rfl, .committedBefore hsource⟩

theorem cancel_step (hphase : w.phase = .active) :
    ∃ result w' c' xs, cancel.execute w c = (result, w', c') ∧ c.Asks c' xs ∧
      Step w c c' .cancel result w' xs := by
  obtain ⟨c₁, hrelease, hasks⟩ := release_asks { w with phase := .cancelled } c
  simp only [cancel, enter, countEnding, Writing.execute_bind, ensureActive_of_active hphase,
    Writing.execute_writer, Writing.execute_change, hrelease, Writing.execute_ofRun,
    Run.execute_count]
  rcases hsource : w.sourceCompleted
  · have hcounted := hasks.then_nothing (c := { c₁ with meters := c₁.meters.addEnding .cancelled })
      rfl rfl
    generalize { c₁ with meters := c₁.meters.addEnding .cancelled } = c₂ at hcounted
    have hasks' := hcounted.trans (c₂.asks_asked w.session.abortion)
    have hrun := Client.abortUpload_decodes w.session c₂
    rcases hanswer : (c₂.exchange w.session.abortion).decoded .abortUpload fun _ => .ok ()
      with e | ⟨⟩ <;> rw [hanswer] at hrun <;>
      simp only [Bool.not_false, if_true, Writing.execute_bind, Writing.execute_attempt,
        Writing.execute_ofRun, hrun]
    · exact ⟨_, _, _, _, rfl, hasks'.then_nothing rfl rfl, .cancelled hsource rfl⟩
    · exact ⟨_, _, _, _, rfl, hasks', .cancelled hsource rfl⟩
  · simp only [Bool.not_true, Bool.false_eq_true, if_false]
    exact ⟨_, _, _, _, rfl, hasks.then_nothing rfl rfl, .cancelledBefore hsource⟩

/-- The inversion of a call of a writer in use. -/
theorem step_of_run (hphase : w.phase = .active) (op : Operation) {result : Except Error Unit}
    (hrun : op.run.execute w c = (result, w', c')) :
    ∃ xs, c.Asks c' xs ∧ Step w c c' op result w' xs := by
  have hstep : ∃ result w' c' xs, op.run.execute w c = (result, w', c') ∧ c.Asks c' xs ∧
      Step w c c' op result w' xs := by
    cases op with
    | write data => exact write_step hphase data
    | close => exact close_step hphase
    | commit => exact commit_step hphase
    | cancel => exact cancel_step hphase
  obtain ⟨_, _, _, xs, hrun', hasks, hstep⟩ := hstep
  rw [hrun] at hrun'
  obtain ⟨rfl, rfl, rfl⟩ := hrun'
  exact ⟨xs, hasks, hstep⟩

/-- Only a write of a writer whose upload is to be replaced asks for anything that is not about its
upload, or changes that upload. -/
theorem Step.stays_or_repairs {op : Operation} {result : Except Error Unit} {xs : List (Exchange σ)}
    (h : Step w c c' op result w' xs) :
    (w'.repair = w.repair ∧ w'.session = w.session ∧ ∀ x ∈ xs, x.request.IsAbout w.session) ∨
      ∃ data b, op = .write data ∧ data.size ≠ 0 ∧ w.repair = .required b := by
  have hsent : ∀ {sent : List (Exchange σ)}, (∀ x ∈ sent, x.request.IsPartOf w.session) →
      ∀ x ∈ sent, x.request.IsAbout w.session :=
    fun hparts x hx => .inl (hparts x hx)
  cases h with
  | wroteNothing hdata => exact .inl ⟨rfl, rfl, by simp⟩
  | wrote hdata hrepair hsends =>
    exact .inl ⟨hsends.advances.repair_eq, hsends.advances.session_eq, hsent hsends.parts⟩
  | notRepaired hdata hrepair hrepairs hpool => exact .inr ⟨_, _, rfl, hdata, hrepair⟩
  | repaired hdata hrepair hrepairs hsends => exact .inr ⟨_, _, rfl, hdata, hrepair⟩
  | closed hsends =>
    exact .inl ⟨hsends.advances.repair_eq, hsends.advances.session_eq, hsent hsends.parts⟩
  | committedBefore hsource => exact .inl ⟨rfl, rfl, by simp⟩
  | @restNotSent e x hsource hx hpool =>
    obtain ⟨number, body, hr, -⟩ := hx
    have hpart : x.request.IsPartOf w.session := ⟨number, body, hr⟩
    exact .inl ⟨rfl, rfl, by simpa using .inl hpart⟩
  | @committed w₁ c₁ sent hsource hrest hsends hx =>
    refine .inl ⟨hsends.advances.repair_eq, hsends.advances.session_eq, ?_⟩
    intro x hx
    rcases List.mem_append.mp hx with hx | hx
    · exact hsent hsends.parts x hx
    · rw [List.mem_singleton.mp hx, ← hsends.advances.session_eq]
      exact .inr (.inl ⟨w₁.parts, rfl⟩)
  | @notCommitted e w₁ c₁ sent y hsource hrest hsends hx hy =>
    refine .inl ⟨hsends.advances.repair_eq, hsends.advances.session_eq, ?_⟩
    intro x hx
    simp only [List.mem_append, List.mem_cons, List.not_mem_nil, or_false] at hx
    rcases hx with hx | rfl | rfl
    · exact hsent hsends.parts x hx
    · rw [← hsends.advances.session_eq]
      exact .inr (.inl ⟨w₁.parts, rfl⟩)
    · exact .inr (.inr hy)
  | cancelledBefore hsource => exact .inl ⟨rfl, rfl, by simp⟩
  | @cancelled _ y hsource hy =>
    have habout : y.request.IsAbout w.session := .inr (.inr hy)
    exact .inl ⟨rfl, rfl, by simpa using habout⟩

end Writer

end ResumableStorage
