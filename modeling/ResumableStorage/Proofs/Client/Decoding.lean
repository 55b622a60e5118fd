/-
  ResumableStorage/Proofs/Client/Decoding.lean
  ============================================
  **What the client asks** — each function that a writer calls is one request, whose
  answer it decodes; only the copy of an object asks for its size before.  This holds for
  every service.

  An answer that a store gives of its own accord is always decoded.
-/
import ResumableStorage.Proofs.Client.Answers
import ResumableStorage.Proofs.Service.Exchanges
import ResumableStorage.Proofs.Store.Effects
import ResumableStorage.Service.Disturbance
import ResumableStorage.Upload.Writer.Finish

namespace ResumableStorage

/-! ## 1. Decoded answers -/

/-- The session that an answer to the creation of an upload makes. -/
def Session.ofAnswer (bucket key : String) (v : Value) : Except Error Session := do
  let id ← (v.fieldD "UploadId" .null).mapError .malformed
  if id.isGiven then return ⟨id.display, bucket, key⟩ else throw (.storage .noUploadId)

/-- The part that an answer to an upload of `size` bytes makes. -/
def Part.ofAnswer (number : Int) (size : Nat) (v : Value) : Except Error Part := do
  let etag ← (v.fieldD "ETag" .null).mapError .malformed
  if etag.isGiven then return ⟨number, etag.display, size⟩
  else throw (.storage (.noPartTag number))

/-- The tag that an answer to a copy tells, null when it tells none. -/
def Client.copyTag (v : Value) : Except Malformed Value := do
  let result ← v.fieldD "CopyPartResult" .null
  if result.isGiven then result.fieldD "ETag" .null else return .null

/-- The part that an answer to a copy of `size` bytes makes. -/
def Part.ofCopy (number size : Int) (v : Value) : Except Error Part := do
  let etag ← (Client.copyTag v).mapError .malformed
  if etag.isGiven then return ⟨number, etag.display, size⟩
  else throw (.storage (.noCopyTag number))

theorem Part.ofCopy_size {number size : Int} {v : Value} {p : Part}
    (h : ofCopy number size v = .ok p) : p.size = size := by
  simp only [ofCopy, bind, Except.bind] at h
  split at h
  · cases h
  · split at h
    · cases h
      rfl
    · cases h

/-- The tag of the object that an answer to a completion tells, empty when it tells none. -/
def Client.completionTag (v : Value) : Except Error String := do
  let etag ← (v.fieldD "ETag" .null).mapError .malformed
  return if etag.isGiven then etag.display else ""

/-! ## 2. Requests -/

/-- The requests by which an object is read or copied. -/
def Request.Carries (r : Request) : Prop :=
  r.kind = .getObject ∨ r.kind = .headObject ∨ r.kind = .copyPart

namespace Session

/-- The request that completes an upload; the parts are named in the order of their numbers. -/
def completion (s : Session) (parts : List Part) : Request :=
  .completeUpload s.bucket s.key s.uploadId
    ((parts.mergeSort fun a b => a.number ≤ b.number).map fun p => (p.number, p.etag))

def abortion (s : Session) : Request :=
  .abortUpload s.bucket s.key s.uploadId

end Session

namespace Client

variable {σ : Type} [Service σ]

theorem createUpload_decodes (bucket key : String) (contentType : Option String) :
    (createUpload bucket key contentType : Run σ Session).Decodes .createUpload
      (.createUpload bucket key (nonEmpty contentType)) (Session.ofAnswer bucket key) := by
  apply Run.decodes_send_bind
  intro v c
  rw [Run.execute_bind, Run.execute_decoded, Session.ofAnswer]
  rcases v.fieldD "UploadId" .null with e | id
  · rfl
  · change (if id.isGiven then _ else _ : Run σ _).execute c = (if id.isGiven then _ else _, c)
    split <;> rfl

theorem uploadPart_decodes (s : Session) (number : Int) (body : Bytes) :
    (uploadPart s number body : Run σ Part).Decodes .uploadPart
      (.uploadPart s.bucket s.key s.uploadId number body) (Part.ofAnswer number body.size) := by
  apply Run.decodes_send_bind
  intro v c
  rw [Run.execute_bind, Run.execute_decoded, Part.ofAnswer]
  rcases v.fieldD "ETag" .null with e | etag
  · rfl
  · change (if etag.isGiven then _ else _ : Run σ _).execute c = (if etag.isGiven then _ else _, c)
    split <;> rfl

theorem completeUpload_decodes (s : Session) (parts : List Part) :
    (completeUpload s parts : Run σ String).Decodes .completeUpload (s.completion parts)
      completionTag := by
  apply Run.decodes_send_bind
  intro v c
  rw [Run.execute_bind, Run.execute_decoded, completionTag]
  rcases v.fieldD "ETag" .null with e | etag <;> rfl

theorem abortUpload_decodes (s : Session) :
    (abortUpload s : Run σ Unit).Decodes .abortUpload s.abortion fun _ => .ok () :=
  Run.decodes_send_bind (f := fun _ => pure ()) fun _ _ => rfl

theorem headObject_decodes (bucket key : String) :
    (headObject bucket key : Run σ ObjectHead).Decodes .headObject (.headObject bucket key)
      fun v => (ObjectHead.decode v).mapError .malformed :=
  Run.decodes_send_bind fun _ c => Run.execute_decoded _ c

theorem getObject_decodes (bucket key : String) :
    (getObject bucket key : Run σ Value).Decodes .getObject (.getObject bucket key none)
      fun v => (v.field "Body").mapError .malformed :=
  Run.decodes_send_bind fun _ c => Run.execute_decoded _ c

/-- The copy of an object whose size is known. -/
def sendCopy (s : Session) (number : Int) (source : String) (size : Int) : Run σ Part := do
  let answer ← Run.send .copyPart (.copyPart s.bucket s.key s.uploadId number source none)
  let result ← Run.decoded (answer.fieldD "CopyPartResult" .null)
  let etag ← if result.isGiven then Run.decoded (result.fieldD "ETag" .null) else pure .null
  if etag.isGiven then return ⟨number, etag.display, size⟩
  else throw (.storage (.noCopyTag number))

theorem copyPart_eq (s : Session) (number : Int) (source : String) :
    (copyPart s number source none : Run σ Part) =
      headObject s.bucket source >>= fun head => sendCopy s number source head.size := by
  have hrange : nonEmpty none = none := rfl
  simp only [copyPart, sendCopy, hrange, pure_bind]

/-- The copy of an object, or of a range of it, is one request once the size is known. -/
theorem copied_decodes (s : Session) (number : Int) (source : String) (range : Option String)
    (size : Int) :
    (do
      let answer ← Run.send .copyPart (.copyPart s.bucket s.key s.uploadId number source range)
      let result ← Run.decoded (answer.fieldD "CopyPartResult" .null)
      let etag ← if result.isGiven then Run.decoded (result.fieldD "ETag" .null) else pure .null
      if etag.isGiven then return ⟨number, etag.display, size⟩
      else throw (.storage (.noCopyTag number)) : Run σ Part).Decodes .copyPart
        (.copyPart s.bucket s.key s.uploadId number source range) (Part.ofCopy number size) := by
  apply Run.decodes_send_bind
  intro v c
  have htag : ∀ etag : Value, (if etag.isGiven then return ⟨number, etag.display, size⟩
      else throw (.storage (.noCopyTag number)) : Run σ Part).execute c =
      (if etag.isGiven then return ⟨number, etag.display, size⟩
        else throw (.storage (.noCopyTag number)), c) := by
    intro etag
    split <;> rfl
  rw [Run.execute_bind, Run.execute_decoded, Part.ofCopy, copyTag]
  rcases v.fieldD "CopyPartResult" .null with e | result
  · rfl
  · simp only [Except.mapError, bind, Except.bind]
    split
    · change (_ >>= _ : Run σ Part).execute c = _
      rw [Run.execute_bind, Run.execute_decoded]
      rcases result.fieldD "ETag" .null with e | etag
      · rfl
      · exact htag etag
    · exact htag .null

theorem sendCopy_decodes (s : Session) (number : Int) (source : String) (size : Int) :
    (sendCopy s number source size : Run σ Part).Decodes .copyPart
      (.copyPart s.bucket s.key s.uploadId number source none) (Part.ofCopy number size) :=
  copied_decodes s number source none size

theorem copyPart_quiet (s : Session) (number : Int) (source : String) :
    (copyPart s number source none : Run σ Part).Quiet Request.Carries := by
  rw [copyPart_eq]
  apply ((headObject_decodes s.bucket source).quiet (.inr (.inl rfl))).bind
  intro head
  exact (sendCopy_decodes s number source head.size).quiet (.inr (.inr rfl))

end Client

/-! ## 3. What a store answers of its own accord -/

namespace Store

variable {s s' : Store} {v : Value}

theorem decoded_of_effect_uploadPart {bucket key id : String} {number : Int} {body : Bytes}
    (h : s.effect (.uploadPart bucket key id number body) = .ok (v, s')) :
    Part.ofAnswer number body.size v = .ok ⟨number, tag body, body.size⟩ := by
  simp only [effect, usable] at h
  rcases hu : s.upload? key id with _ | u
  · rw [hu] at h
    cases h
  · rw [hu] at h
    cases h
    simp [Part.ofAnswer, Fields.find?, Except.mapError, tag_isGiven, bind, Except.bind]
    rfl

theorem decoded_of_effect_createUpload {bucket key : String} {type : Option String}
    (h : s.effect (.createUpload bucket key type) = .ok (v, s')) :
    Session.ofAnswer bucket key v = .ok ⟨s.nextId, bucket, key⟩ ∧ s' = s.startUpload key := by
  cases h
  refine ⟨?_, rfl⟩
  simp [Session.ofAnswer, Fields.find?, List.lookup, Except.mapError, nextId_isGiven, bind,
    Except.bind]
  rfl

theorem decoded_of_effect_completeUpload {bucket key id : String} {parts : List (Int × String)}
    (h : s.effect (.completeUpload bucket key id parts) = .ok (v, s')) :
    ∃ etag, Client.completionTag v = .ok etag := by
  obtain ⟨u, contents, -, -, rfl, -⟩ := effect_completeUpload_eq_ok h
  exact ⟨_, rfl⟩

end Store

end ResumableStorage
