/-
  ResumableStorage/Proofs/Client/Contract.lean
  ============================================
  **The error contract of the client** — in which way a call of the client ends is told by
  what came back to it, and by nothing else.  It ends in a transport error when a request
  did not reach the service, in a backend error when one was refused or keys were left
  undeleted, and in a protocol violation when an answer lacks an identifier, a tag or a
  link.

  The contract is that a call ends in no other way than by returning or in a storage error.
  It is kept as long as answers are of the shape that their request suits.  Outside of a
  listing of objects, an answer of any other shape leads to an error that is no storage
  error.
-/
import ResumableStorage.Proofs.Client.Paging
import ResumableStorage.Proofs.Client.Ranges
import ResumableStorage.Proofs.Client.Responses

namespace ResumableStorage

/-! ## 1. Decoded answers -/

namespace RequestKind

variable {α : Type} {kind : RequestKind} {v : Value}

/-- Nothing but its shape is asked of an answer that is decoded. -/
theorem fault?_of_decode {x : Except Malformed α} (hsuits : x.isOk = kind.suits v)
    (hleaves : kind.leaves v = false) (hlacks : kind.lacks v = false)
    (hmisfit : kind.misfit = .escape) :
    Except.fault? (x.mapError .malformed) = kind.fault? v := by
  rcases x with e | a
  · simp only [fault?, ← hsuits, hmisfit]
    rfl
  · simp only [fault?, ← hsuits, hleaves, hlacks]
    rfl

/-- A value of the answer has to be given. -/
theorem fault?_of_given {x : Except Malformed Value} {f : Value → α} {e : StorageError}
    (he : e.family = .protocolViolation) (hsuits : x.isOk = kind.suits v)
    (hleaves : kind.leaves v = false) (hlacks : (Except.holds x (!·.isGiven)) = kind.lacks v)
    (hmisfit : kind.misfit = .escape) :
    Except.fault? (do
      let w ← x.mapError .malformed
      if w.isGiven then return f w else throw (.storage e)) = kind.fault? v := by
  rcases x with m | w
  · simp only [fault?, ← hsuits, hmisfit]
    rfl
  · have hok : (Except.ok w : Except Malformed Value).isOk = true := rfl
    simp only [fault?, ← hsuits, hok, hleaves, ← hlacks]
    change Except.fault? (if w.isGiven then Except.ok (f w) else .error (.storage e)) = _
    rcases hgiven : w.isGiven
    · simp [Except.holds, hgiven, Except.fault?, Error.fault, he]
    · simp [Except.holds, hgiven, Except.fault?]

end RequestKind

section

open RequestKind

theorem Session.fault?_ofAnswer (bucket key : String) (v : Value) :
    Except.fault? (ofAnswer bucket key v) = RequestKind.createUpload.fault? v :=
  fault?_of_given rfl Value.isOk_fieldD rfl (Value.holds_fieldD rfl) rfl

theorem Part.fault?_ofAnswer (number : Int) (size : Nat) (v : Value) :
    Except.fault? (ofAnswer number size v) = RequestKind.uploadPart.fault? v :=
  fault?_of_given rfl Value.isOk_fieldD rfl (Value.holds_fieldD rfl) rfl

theorem Part.fault?_ofCopy (number size : Int) (v : Value) :
    Except.fault? (ofCopy number size v) = RequestKind.copyPart.fault? v :=
  fault?_of_given rfl (Client.isOk_copyTag v) rfl (Client.holds_copyTag rfl v) rfl

theorem Client.fault?_completionTag (v : Value) :
    Except.fault? (completionTag v) = RequestKind.completeUpload.fault? v := by
  rw [completionTag, ← fault?_of_decode (x := v.fieldD "ETag" .null) Value.isOk_fieldD rfl rfl rfl]
  cases v.fieldD "ETag" .null <;> rfl

/-- What is made of the answer to a deletion. -/
def Client.deletion (v : Value) : Except Error Unit := do
  match ← (undeleted? v).mapError .malformed with
  | none => return ()
  | some e => throw (.storage e)

theorem Client.fault?_deletion (v : Value) :
    Except.fault? (deletion v) = RequestKind.deleteObjects.fault? v := by
  rcases undeleted?_cases v with ⟨hshape, hleaves, h⟩ | ⟨hshape, hleaves, e, h, he⟩ | ⟨hshape, m, h⟩
  · simp only [deletion, h, RequestKind.fault?, RequestKind.suits, RequestKind.leaves, hshape,
      hleaves]
    rfl
  · simp only [deletion, h, RequestKind.fault?, RequestKind.suits, RequestKind.leaves, hshape,
      hleaves]
    exact congrArg (fun f => some (Fault.family f)) he
  · simp only [deletion, h, RequestKind.fault?, RequestKind.suits, hshape]
    rfl

end

/-! ## 2. Requests of the client -/

namespace Client

open Run

variable {σ : Type} [Service σ]

theorem discard_send_faithful {action : Action} {r : Request}
    (h : ∀ v, r.kind.fault? v = none) : (discard (send action r) : Run σ Unit).Faithful := by
  have hdecodes : (discard (send action r) : Run σ Unit).Decodes action r fun _ => .ok () :=
    decodes_send_bind (f := fun _ => pure ()) fun _ _ => rfl
  exact hdecodes.faithful fun v => (h v).symm

theorem headObject_faithful (bucket key : String) :
    (headObject bucket key : Run σ ObjectHead).Faithful :=
  (headObject_decodes bucket key).faithful fun v =>
    RequestKind.fault?_of_decode (ObjectHead.isOk_decode v) rfl rfl rfl

/-- A copy whose size is known, or asked for before. -/
theorem copyPart_faithful {s : Session} {number : Int} {source : String} {range : Option String}
    (h : ∀ r, nonEmpty range = some r → ∃ n, rangeLength r = .ok n) :
    (copyPart s number source range : Run σ Part).Faithful := by
  have hcopied := fun range size => (copied_decodes (σ := σ) s number source range size).faithful
    (Part.fault?_ofCopy number size)
  rcases hrange : nonEmpty range with _ | r
  · have hrun : copyPart s number source range = (headObject s.bucket source >>= fun head =>
        sendCopy s number source head.size : Run σ Part) := by
      simp only [copyPart, hrange, sendCopy, pure_bind]
    rw [hrun]
    exact (headObject_faithful s.bucket source).bind fun head => hcopied none head.size
  · obtain ⟨n, hn⟩ := h r hrange
    have hfaithful := hcopied (some r) n
    simp only [copyPart, hrange, hn, pure_bind]
    exact hfaithful

theorem deleteObjects_faithful (bucket : String) (keys : List String) :
    (deleteObjects bucket keys : Run σ Unit).Faithful := by
  refine Faithful.forM fun batch => ?_
  refine Decodes.faithful (decodes_send_bind fun v c => ?_) fault?_deletion
  rw [execute_bind, execute_decoded, deletion]
  rcases undeleted? v with m | (_ | e) <;> rfl

theorem presign_faithful {bucket key : String} {expiresIn : Int} {method : String}
    (h : (presignOperation? (Text.upper method)).isSome) :
    (presign bucket key expiresIn method : Run σ String).Faithful := by
  obtain ⟨operation, hoperation⟩ := Option.isSome_iff_exists.mp h
  have hdecodes : (presign bucket key expiresIn method : Run σ String).Decodes .presign
      (.presign operation bucket key expiresIn) fun url =>
        if url.isGiven then .ok url.display else .error (.storage .emptyUrl) := by
    simp only [presign, hoperation]
    apply decodes_send_bind
    intro url c
    split <;> rfl
  exact hdecodes.faithful fun url =>
    RequestKind.fault?_of_given (x := .ok url) (f := Value.display) rfl rfl rfl rfl rfl

/-! ## 3. Listings of objects -/

theorem fault?_addPage (so : ObjectListing) (page : Page) :
    Except.fault? ((addPage so page).mapError .storage) = Response.fault? ⟨.listObjects, page⟩ := by
  rcases page with f | v
  · exact Except.fault?_failed .listObjects f
  · have hshape := ObjectListing.isOk_decodePage v
    rcases hpage : ObjectListing.decodePage v with m | page <;> rw [hpage] at hshape <;>
      simp only [addPage, hpage, Response.fault?, RequestKind.fault?, RequestKind.suits,
        ← hshape] <;>
      rfl

/-- The pages of a listing are put together up to the first that leads to a fault. -/
theorem fault?_addPages (pages : List Page) (so : ObjectListing) (fault : Fault) :
    Except.fault? ((pages.foldlM addPage so).mapError .storage) = some fault ↔
      ∃ y ∈ Response.taken (pages.map fun page => ⟨.listObjects, page⟩), y.fault? = some fault := by
  induction pages generalizing so with
  | nil => simp [Except.fault?, Except.mapError, Response.taken, pure, Except.pure]
  | cons page rest ih =>
    have hpage := fault?_addPage so page
    rw [List.foldlM_cons, List.map_cons, Response.taken]
    rcases hadd : addPage so page with e | listing <;> rw [hadd] at hpage
    · have htaken : (Response.fault? ⟨.listObjects, page⟩).isSome = true := by
        rw [← hpage]
        rfl
      rw [if_pos htaken, List.exists_mem_cons_iff, ← hpage]
      exact (or_iff_left (by simp)).symm
    · have hnone : Response.fault? ⟨.listObjects, page⟩ = none := hpage.symm
      rw [if_neg (by simp [hnone]), List.exists_mem_cons_iff, hnone]
      exact (ih listing).trans (or_iff_right (Option.some_ne_none fault).symm).symm

/-- The answer by which a listing is opened has to be a handle. -/
def opening : Value → Except Error Unit
  | .handle => .ok ()
  | other => .error (.storage (.unreadableListing (.noMember other.kindName "paginate")))

theorem fault?_opening (v : Value) :
    Except.fault? (opening v) = RequestKind.openListing.fault? v := by
  cases v <;> rfl

omit [Service σ] in
theorem execute_ofExcept {α : Type} (x : Except Error α) (c : Context σ) :
    (MonadExcept.ofExcept x : Run σ α).execute c = (x, c) := by
  cases x <;> rfl

/-- The pages of a listing, put together. -/
theorem listed_faithful (l : Listing) :
    (listPages l >>= fun pages => MonadExcept.ofExcept
      ((pages.foldlM addPage ⟨[], []⟩).mapError .storage) : Run σ ObjectListing).Faithful := by
  intro c
  have hleave : Event.leaveAll [.listed l] c.service = (Service.pages l c.service).2 := rfl
  have hresponses : Event.allResponses [.listed l] c.service =
      Response.ofPages (Service.pages l c.service).1 := List.append_nil _
  refine ⟨[.listed l], ?_⟩
  rw [hresponses]
  simp only [execute_bind, listPages, execute_record, execute_get, execute_set]
  rcases hpages : Service.pages l c.service with ⟨f | pages, s⟩ <;> rw [hpages] at hleave
  · refine ⟨⟨rfl, hleave.symm⟩, fun fault => ?_⟩
    rw [Response.ofPages, List.exists_mem_cons_iff, or_iff_left (by simp)]
    exact Eq.congr (Except.fault?_failed .listObjects f) rfl
  · simp only [execute_pure, execute_ofExcept]
    exact ⟨⟨rfl, hleave.symm⟩, fault?_addPages pages _⟩

theorem listObjects_faithful (bucket front : String) (delimiter : Option String)
    (maxItems : Option Int) :
    (listObjects bucket front delimiter maxItems : Run σ ObjectListing).Faithful := by
  have hrun : (listObjects bucket front delimiter maxItems : Run σ ObjectListing) =
      (send .listObjects .openListing >>= fun v => MonadExcept.ofExcept (opening v)) >>=
      fun _ => listPages ⟨bucket, front, nonEmpty delimiter, maxItems.filter (· ≠ 0)⟩ >>=
        fun pages => MonadExcept.ofExcept
          ((pages.foldlM addPage ⟨[], []⟩).mapError .storage) := by
    simp only [listObjects, bind_assoc]
    congr 1
    funext v
    cases v
    case handle =>
      change (listPages _ >>= _) = (listPages _ >>= _)
      congr 1
      funext pages
      rcases pages.foldlM addPage ⟨[], []⟩ with e | listing <;> rfl
    all_goals rfl
  have hopening : (send .listObjects .openListing >>= fun v => MonadExcept.ofExcept (opening v) :
      Run σ Unit).Faithful :=
    Decodes.faithful (decodes_send_bind fun v c => execute_ofExcept (opening v) c) fault?_opening
  rw [hrun]
  exact hopening.bind fun _ => listed_faithful _

/-! ## 4. Calls -/

/-- A call of the client, with what it is given. -/
inductive Call where
  | createUpload (bucket key : String) (contentType : Option String)
  | uploadPart (s : Session) (number : Int) (body : Bytes)
  | copyPart (s : Session) (number : Int) (source : String) (range : Option String)
  | listParts (s : Session) (maxParts marker : Int)
  | listUploads (bucket keyFront : String) (keyMarker idMarker : Option Value)
  | completeUpload (s : Session) (parts : List Part)
  | abortUpload (s : Session)
  | getObject (bucket key : String)
  | getRange (bucket key : String) (first : Int) (last : Option Int)
  | putObject (bucket key : String) (body : Bytes) (contentType : Option String)
  | headObject (bucket key : String)
  | deleteObject (bucket key : String)
  | deleteObjects (bucket : String) (keys : List String)
  | copyObject (bucket source dest : String)
  | listObjects (bucket keyFront : String) (delimiter : Option String) (maxItems : Option Int)
  | presign (bucket key : String) (expiresIn : Int) (method : String)

namespace Call

/-- The call, without the value that it returns. -/
def perform : Call → Run σ Unit
  | createUpload bucket key contentType => discard (Client.createUpload bucket key contentType)
  | uploadPart s number body => discard (Client.uploadPart s number body)
  | copyPart s number source range => discard (Client.copyPart s number source range)
  | listParts s maxParts marker => discard (Client.listParts s maxParts marker)
  | listUploads bucket keyFront keyMarker idMarker =>
    discard (Client.listUploads bucket keyFront keyMarker idMarker)
  | completeUpload s parts => discard (Client.completeUpload s parts)
  | abortUpload s => Client.abortUpload s
  | getObject bucket key => discard (Client.getObject bucket key)
  | getRange bucket key first last => discard (Client.getRange bucket key first last)
  | putObject bucket key body contentType => Client.putObject bucket key body contentType
  | headObject bucket key => discard (Client.headObject bucket key)
  | deleteObject bucket key => Client.deleteObject bucket key
  | deleteObjects bucket keys => Client.deleteObjects bucket keys
  | copyObject bucket source dest => Client.copyObject bucket source dest
  | listObjects bucket keyFront delimiter maxItems =>
    discard (Client.listObjects bucket keyFront delimiter maxItems)
  | presign bucket key expiresIn method =>
    discard (Client.presign bucket key expiresIn method)

/-- What a call comes to, as an error when it does not return. -/
def outcome (call : Call) (c : Context σ) : Except Error Unit :=
  (call.perform.execute c).1

/-- What came back to a call. -/
def responses (call : Call) (c : Context σ) : List Response :=
  c.responses (call.perform.execute c).2

/-- The fault by which a call ends before it has sent anything, on account of what it is given: a
range that cannot be read, or a method that no link can be made for. -/
def misgiven : Call → Option Fault
  | copyPart _ _ _ range =>
    match nonEmpty range with
    | some r => if (rangeLength r).isOk then none else some .escape
    | none => none
  | presign _ _ _ method =>
    if (presignOperation? (Text.upper method)).isSome then none else some (.family .general)
  | _ => none

theorem misgiven_of_range {s : Session} {number : Int} {source r : String} {range : Option String}
    (h : nonEmpty range = some r) : (copyPart s number source range).misgiven =
      if (rangeLength r).isOk then none else some .escape := by
  rw [misgiven, h]

/-- A range that is given is well formed. -/
def WellRanged : Call → Prop
  | copyPart _ _ _ range => ∀ r, nonEmpty range = some r → IsRange r
  | _ => True

theorem WellRanged.misgiven_ne_escape {call : Call} (h : call.WellRanged) :
    call.misgiven ≠ some .escape := by
  cases call
  case copyPart s number source range =>
    rcases hrange : nonEmpty range with _ | r
    · rw [misgiven, hrange]
      nofun
    · obtain ⟨n, hn⟩ := (h r hrange).rangeLength_eq_ok
      rw [misgiven_of_range hrange, hn]
      nofun
  case presign bucket key expiresIn method =>
    rw [misgiven]
    split <;> nofun
  all_goals nofun

/-- A call that is given something wrong ends by it, and asks for nothing. -/
theorem perform_misgiven {call : Call} {fault : Fault} (h : call.misgiven = some fault)
    (c : Context σ) : ∃ e, call.perform.execute c = (.error e, c) ∧ e.fault = fault := by
  cases call
  case copyPart s number source range =>
    rcases hrange : nonEmpty range with _ | r
    · rw [misgiven, hrange] at h
      cases h
    · rw [misgiven_of_range hrange] at h
      rcases hr : rangeLength r with e | n <;> rw [hr] at h <;> cases h
      refine ⟨.numeral e, ?_, rfl⟩
      simp only [perform, Client.copyPart, hrange, hr, Run.execute_discard]
      rfl
  case presign bucket key expiresIn method =>
    rw [misgiven] at h
    rcases hmethod : presignOperation? (Text.upper method) with _ | operation <;>
      rw [hmethod] at h <;> cases h
    refine ⟨.storage (.unsignable method), ?_, rfl⟩
    simp only [perform, Client.presign, hmethod, Run.execute_discard]
    rfl
  all_goals cases h

theorem perform_faithful {call : Call} (h : call.misgiven = none) :
    (call.perform : Run σ Unit).Faithful := by
  cases call
  case createUpload bucket key contentType =>
    exact ((createUpload_decodes bucket key contentType).faithful
      (Session.fault?_ofAnswer bucket key)).discard
  case uploadPart s number body =>
    exact ((uploadPart_decodes s number body).faithful
      (Part.fault?_ofAnswer number body.size)).discard
  case copyPart s number source range =>
    refine (copyPart_faithful fun r hr => ?_).discard
    rw [misgiven_of_range hr] at h
    rcases hlength : rangeLength r with e | n <;> rw [hlength] at h
    · cases h
    · exact ⟨n, rfl⟩
  case listParts s maxParts marker =>
    exact ((listParts_decodes s maxParts marker).faithful fun v =>
      RequestKind.fault?_of_decode (PartPage.isOk_decode v) rfl rfl rfl).discard
  case listUploads bucket keyFront keyMarker idMarker =>
    exact ((listUploads_decodes bucket keyFront keyMarker idMarker).faithful fun v =>
      RequestKind.fault?_of_decode (UploadPage.isOk_decode v) rfl rfl rfl).discard
  case completeUpload s parts =>
    exact ((completeUpload_decodes s parts).faithful fault?_completionTag).discard
  case abortUpload s => exact discard_send_faithful fun _ => rfl
  case getObject bucket key =>
    exact ((getObject_decodes bucket key).faithful fun v =>
      RequestKind.fault?_of_decode Value.isOk_field rfl rfl rfl).discard
  case getRange bucket key first last =>
    exact ((getRange_decodes bucket key first last).faithful fun v =>
      RequestKind.fault?_of_decode Value.isOk_field rfl rfl rfl).discard
  case putObject bucket key body contentType => exact discard_send_faithful fun _ => rfl
  case headObject bucket key => exact (headObject_faithful bucket key).discard
  case deleteObject bucket key => exact discard_send_faithful fun _ => rfl
  case deleteObjects bucket keys => exact deleteObjects_faithful bucket keys
  case copyObject bucket source dest => exact discard_send_faithful fun _ => rfl
  case listObjects bucket keyFront delimiter maxItems =>
    exact (listObjects_faithful bucket keyFront delimiter maxItems).discard
  case presign bucket key expiresIn method =>
    refine (presign_faithful ?_).discard
    by_contra hmethod
    rw [misgiven, if_neg hmethod] at h
    cases h

/-! ## 5. The contract -/

/-- The fault by which a call ends, none when it returns. -/
def ending (call : Call) (c : Context σ) : Option Fault :=
  Except.fault? (call.outcome c)

theorem misgiven_cases (call : Call) :
    call.misgiven = none ∨ call.misgiven = some .escape ∨
      call.misgiven = some (.family .general) := by
  cases call
  case copyPart s number source range =>
    rcases hrange : nonEmpty range with _ | r
    · exact .inl (by rw [misgiven, hrange])
    · rw [misgiven_of_range hrange]
      split
      · exact .inl rfl
      · exact .inr (.inl rfl)
  case presign bucket key expiresIn method =>
    rw [misgiven]
    split
    · exact .inl rfl
    · exact .inr (.inr rfl)
  all_goals exact .inl rfl

/-- A call ends with a fault when it is given something wrong, or when a response leads to the
fault. -/
theorem ending_eq_some (call : Call) (c : Context σ) (fault : Fault) :
    call.ending c = some fault ↔
      call.misgiven = some fault ∨ ∃ x ∈ call.responses c, x.fault? = some fault := by
  rcases hmisgiven : call.misgiven with _ | wrong
  · obtain ⟨events, hrecords, hfault⟩ := perform_faithful (σ := σ) hmisgiven c
    rw [ending, outcome, hfault, responses, hrecords.responses_eq]
    exact (or_iff_right nofun).symm
  · obtain ⟨e, hrun, rfl⟩ := perform_misgiven hmisgiven c
    have hresponses : call.responses c = [] := by
      rw [responses, hrun, (Context.Records.refl c).responses_eq]
      rfl
    rw [ending, outcome, hrun, hresponses]
    simp [Except.fault?]

theorem ending_eq_family (call : Call) (c : Context σ) {family : StorageFamily}
    (h : family ≠ .general) : call.ending c = some (.family family) ↔
      ∃ x ∈ call.responses c, x.fault? = some (.family family) := by
  rw [ending_eq_some, or_iff_right]
  rcases call.misgiven_cases with hmisgiven | hmisgiven | hmisgiven <;> rw [hmisgiven]
  · nofun
  · nofun
  · rintro ⟨⟩
    exact h rfl

theorem outcome_eq_ok (call : Call) (c : Context σ) : call.outcome c = .ok () ↔
    call.misgiven = none ∧ ∀ x ∈ call.responses c, x.fault? = none := by
  have hreturned : call.outcome c = .ok () ↔ ∀ fault, call.ending c ≠ some fault := by
    rw [ending]
    rcases call.outcome c with e | ⟨⟩
    · exact iff_of_false nofun fun h => h e.fault rfl
    · exact iff_of_true rfl nofun
  simp only [hreturned, Ne, ending_eq_some, not_or, not_exists, not_and, forall_and,
    Option.eq_none_iff_forall_not_mem, Option.mem_def]
  exact and_congr_right fun _ =>
    ⟨fun h x hx fault => h fault x hx, fun h fault x hx => h x hx fault⟩

/-- The error contract.  A call returns when no response leads to a fault.  It ends in a transport
error exactly when a request did not reach the service, in a backend error exactly when one was
refused or keys were left undeleted, and in a protocol violation exactly when an answer lacks the
identifier, the tag or the link that it was asked for.  With a range that is absent or well formed
it ends in an error that is no storage error exactly when an answer outside of a listing of
objects does not suit its request. -/
theorem contract (call : Call) (c : Context σ) :
    (call.outcome c = .ok () ↔ call.misgiven = none ∧ ∀ x ∈ call.responses c, x.fault? = none) ∧
    (call.ending c = some (.family .transport) ↔
      ∃ x ∈ call.responses c, ∃ text, x.got = .error (.unreachable text)) ∧
    (call.ending c = some (.family .backend) ↔ ∃ x ∈ call.responses c,
      (∃ r, x.got = .error (.refused r)) ∨ ∃ v, x.got = .ok v ∧ x.kind.leaves v = true) ∧
    (call.ending c = some (.family .protocolViolation) ↔
      ∃ x ∈ call.responses c, ∃ v, x.got = .ok v ∧ x.kind.lacks v = true) ∧
    (call.WellRanged → (call.ending c = some .escape ↔ ∃ x ∈ call.responses c, ∃ v,
      x.got = .ok v ∧ x.kind.misfit = .escape ∧ x.kind.suits v = false)) := by
  refine ⟨call.outcome_eq_ok c, ?_, ?_, ?_, fun hranged => ?_⟩
  · rw [call.ending_eq_family c (by decide)]
    simp only [Response.fault?_eq_transport]
  · rw [call.ending_eq_family c (by decide)]
    simp only [Response.fault?_eq_backend]
  · rw [call.ending_eq_family c (by decide)]
    simp only [Response.fault?_eq_protocolViolation]
  · rw [call.ending_eq_some c, or_iff_right hranged.misgiven_ne_escape]
    simp only [Response.fault?_eq_escape]

namespace Sample

/-- A store that answers the next request of a kind with a value. -/
def answering (kind : RequestKind) (v : Value) : Context (Disturbed Store) where
  service := ⟨Store.empty 0, [(kind, [Disturbance.answering v])]⟩
  pool := ⟨1, Nat.one_pos, none, [], #[]⟩

/-- The copy of the first five bytes of an object. -/
def copy : Call := .copyPart ⟨"u1", "bucket", "a"⟩ 1 "b" (some "bytes=0-4")

/-- A copy of which no tag is told. -/
def tagless : Context (Disturbed Store) :=
  answering .copyPart (.object [("CopyPartResult", .object [])])

/-- The page of the parts of an upload. -/
def listing : Call := .listParts ⟨"u1", "bucket", "a"⟩ 1000 0

/-- A page of parts of which one has no number. -/
def numberless : Context (Disturbed Store) :=
  answering .listParts (.object [("Parts", .list [.object []])])

theorem copy_wellRanged : copy.WellRanged := by
  rintro r ⟨⟩
  exact ⟨['0'], ['4'], .singleton rfl, .singleton rfl, rfl⟩

end Sample

/-- A copy whose answer has no tag is a protocol violation, and no other error. -/
theorem tagless_copy_within_contract :
    Sample.copy.WellRanged ∧ Sample.copy.ending Sample.tagless = some (.family .protocolViolation) ∧
      Sample.copy.ending Sample.tagless ≠ some .escape := by
  obtain ⟨-, -, -, hviolation, hescape⟩ := contract Sample.copy Sample.tagless
  have hresponses : Sample.copy.responses Sample.tagless =
      [⟨.copyPart, .ok (.object [("CopyPartResult", .object [])])⟩] := by
    rfl
  refine ⟨Sample.copy_wellRanged, hviolation.mpr ?_, fun h => ?_⟩
  · rw [hresponses]
    exact ⟨_, List.mem_singleton_self _, _, rfl, rfl⟩
  · obtain ⟨x, hx, v, hgot, -, hsuits⟩ := (hescape Sample.copy_wellRanged).mp h
    rw [hresponses, List.mem_singleton] at hx
    subst hx
    cases hgot
    cases hsuits

/-- A page of parts that is a mapping, but in which a part has no number, leads to an error that is
no storage error. -/
theorem part_without_number_escapes :
    Sample.listing.WellRanged ∧
      (∀ x ∈ Sample.listing.responses Sample.numberless, ∃ v, x.got = .ok v ∧ v.isMapping = true) ∧
      Sample.listing.outcome Sample.numberless =
        .error (.malformed (.missingField "PartNumber")) := by
  refine ⟨trivial, ?_, rfl⟩
  have hresponses : Sample.listing.responses Sample.numberless =
      [⟨.listParts, .ok (.object [("Parts", .list [.object []])])⟩] := rfl
  rw [hresponses]
  intro x hx
  rw [List.mem_singleton.mp hx]
  exact ⟨_, rfl, rfl⟩

end Call

end Client

end ResumableStorage
