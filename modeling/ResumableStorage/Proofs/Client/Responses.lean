/-
  ResumableStorage/Proofs/Client/Responses.lean
  =============================================
  **What comes back to the client** — answers, pages of listings and the failures met in
  their place are on record, and each of them leads to a fault or to none.  A run is
  faithful when it ends with a fault exactly if one of its responses leads to that fault;
  so it returns when none does.

  Whether an answer leads to a fault is read off its shape.  All of it holds for every
  service.
-/
import ResumableStorage.Proofs.Client.Shapes

namespace ResumableStorage

/-! ## 1. Faults -/

/-- How a call ends that does not return: in a storage error of a family, or in an error that is no
storage error. -/
inductive Fault where
  | family (f : StorageFamily)
  | escape
deriving DecidableEq, Repr

def Error.fault : Error → Fault
  | storage e => .family e.family
  | _ => .escape

def Except.fault? {α : Type} : Except Error α → Option Fault
  | .ok _ => none
  | .error e => some e.fault

def Failure.family : Failure → StorageFamily
  | refused _ => .backend
  | unreachable _ => .transport
  | unexpected _ | unreadable _ => .general

theorem Except.fault?_failed {α : Type} (action : Action) (f : Failure) :
    fault? (.error (.storage (.failed action f)) : Except Error α) = some (.family f.family) := by
  cases f <;> rfl

namespace RequestKind

/-- The answer has the fields that have to be there, and every field that is read is of a kind that
can be read. -/
def suits : RequestKind → Value → Bool
  | createUpload, v | uploadPart, v | completeUpload, v => v.isMapping
  | copyPart, v => Client.isCopy v
  | listParts, v => PartPage.isPage v
  | listUploads, v => UploadPage.isPage v
  | getObject, v => v.hasField "Body"
  | headObject, v => ObjectHead.isHead v
  | deleteObjects, v => Client.isDeletion v
  | openListing, v => v.isHandle
  | listObjects, v => ObjectListing.isPage v
  | abortUpload, _ | putObject, _ | deleteObject, _ | copyObject, _ | presign, _ => true

/-- The answer tells of keys that were not deleted. -/
def leaves : RequestKind → Value → Bool
  | deleteObjects, v => Client.leavesKeys v
  | _, _ => false

/-- The identifier, the tag or the link that the answer is asked for is not given. -/
def lacks : RequestKind → Value → Bool
  | createUpload, v => v.mayHave "UploadId" (!·.isGiven)
  | uploadPart, v => v.mayHave "ETag" (!·.isGiven)
  | copyPart, v => v.mayHave "CopyPartResult" (·.ifGiven (·.mayHave "ETag" (!·.isGiven)))
  | presign, v => !v.isGiven
  | _, _ => false

/-- What an answer leads to that does not suit.  Every fault of a listing of objects is one of
the listing. -/
def misfit : RequestKind → Fault
  | openListing | listObjects => .family .general
  | _ => .escape

/-- The fault that an answer leads to. -/
def fault? (kind : RequestKind) (v : Value) : Option Fault :=
  if !kind.suits v then some kind.misfit
  else if kind.leaves v then some (.family .backend)
  else if kind.lacks v then some (.family .protocolViolation)
  else none

variable {kind : RequestKind} {v : Value}

theorem suits_of_leaves (h : kind.leaves v = true) : kind.suits v = true := by
  cases kind
  case deleteObjects =>
    refine Value.mayHave_of_has (fun w hw => ?_) h
    rw [Value.ifGiven, hw, Bool.or_true]
  all_goals cases h

theorem suits_of_lacks (h : kind.lacks v = true) : kind.suits v = true := by
  cases kind
  case createUpload => exact Value.isMapping_of_mayHave h
  case uploadPart => exact Value.isMapping_of_mayHave h
  case copyPart =>
    exact Value.mayHave_mono (fun _ => Value.ifGiven_mono fun _ => Value.isMapping_of_mayHave) h
  case presign => rfl
  all_goals cases h

theorem lacks_of_leaves (h : kind.leaves v = true) : kind.lacks v = false := by
  cases kind
  case deleteObjects => rfl
  all_goals cases h

theorem misfit_cases (kind : RequestKind) :
    kind.misfit = .family .general ∨ kind.misfit = .escape := by
  cases kind
  case openListing => exact .inl rfl
  case listObjects => exact .inl rfl
  all_goals exact .inr rfl

/-- An answer that can be read is complete, or it tells of keys that were not deleted, or it lacks
what it was asked for. -/
theorem fault?_cases (kind : RequestKind) (v : Value) :
    (kind.suits v = true ∧ kind.leaves v = false ∧ kind.lacks v = false ∧ kind.fault? v = none) ∨
    (kind.suits v = true ∧ kind.leaves v = true ∧ kind.lacks v = false ∧
      kind.fault? v = some (.family .backend)) ∨
    (kind.suits v = true ∧ kind.leaves v = false ∧ kind.lacks v = true ∧
      kind.fault? v = some (.family .protocolViolation)) ∨
    (kind.suits v = false ∧ kind.leaves v = false ∧ kind.lacks v = false ∧
      kind.fault? v = some kind.misfit) := by
  rcases hleaves : kind.leaves v
  · rcases hlacks : kind.lacks v
    · rcases hsuits : kind.suits v
      · exact .inr (.inr (.inr ⟨rfl, rfl, rfl, by simp [fault?, hsuits]⟩))
      · exact .inl ⟨rfl, rfl, rfl, by simp [fault?, hsuits, hleaves, hlacks]⟩
    · have hsuits := suits_of_lacks hlacks
      exact .inr (.inr (.inl ⟨hsuits, rfl, rfl, by simp [fault?, hsuits, hleaves, hlacks]⟩))
  · have hsuits := suits_of_leaves hleaves
    exact .inr (.inl ⟨hsuits, rfl, lacks_of_leaves hleaves, by simp [fault?, hsuits, hleaves]⟩)

end RequestKind

/-! ## 2. Responses -/

/-- What came back to the client: the answer to a request of this kind, or a page of a listing of
objects, or the failure met in its place. -/
structure Response where
  kind : RequestKind
  got : Except Failure Value

namespace Response

/-- The fault that a response leads to. -/
def fault? (x : Response) : Option Fault :=
  match x.got with
  | .ok v => x.kind.fault? v
  | .error f => some (.family f.family)

variable {x : Response}

theorem fault?_eq_transport :
    x.fault? = some (.family .transport) ↔ ∃ text, x.got = .error (.unreachable text) := by
  rcases x with ⟨kind, f | v⟩
  · cases f <;> simp [fault?, Failure.family]
  · rcases kind.fault?_cases v with ⟨-, -, -, h⟩ | ⟨-, -, -, h⟩ | ⟨-, -, -, h⟩ | ⟨-, -, -, h⟩ <;>
      rcases kind.misfit_cases with hmisfit | hmisfit <;> simp [fault?, h, hmisfit]

theorem fault?_eq_backend : x.fault? = some (.family .backend) ↔
    (∃ r, x.got = .error (.refused r)) ∨ ∃ v, x.got = .ok v ∧ x.kind.leaves v = true := by
  rcases x with ⟨kind, f | v⟩
  · cases f <;> simp [fault?, Failure.family]
  · rcases kind.fault?_cases v with ⟨-, hl, -, h⟩ | ⟨-, hl, -, h⟩ | ⟨-, hl, -, h⟩ |
        ⟨-, hl, -, h⟩ <;>
      rcases kind.misfit_cases with hmisfit | hmisfit <;> simp [fault?, h, hl, hmisfit]

theorem fault?_eq_protocolViolation : x.fault? = some (.family .protocolViolation) ↔
    ∃ v, x.got = .ok v ∧ x.kind.lacks v = true := by
  rcases x with ⟨kind, f | v⟩
  · cases f <;> simp [fault?, Failure.family]
  · rcases kind.fault?_cases v with ⟨-, -, hl, h⟩ | ⟨-, -, hl, h⟩ | ⟨-, -, hl, h⟩ |
        ⟨-, -, hl, h⟩ <;>
      rcases kind.misfit_cases with hmisfit | hmisfit <;> simp [fault?, h, hl, hmisfit]

theorem fault?_eq_escape : x.fault? = some .escape ↔
    ∃ v, x.got = .ok v ∧ x.kind.misfit = .escape ∧ x.kind.suits v = false := by
  rcases x with ⟨kind, f | v⟩
  · cases f <;> simp [fault?, Failure.family]
  · rcases kind.fault?_cases v with ⟨hs, -, -, h⟩ | ⟨hs, -, -, h⟩ | ⟨hs, -, -, h⟩ |
        ⟨hs, -, -, h⟩ <;>
      rcases kind.misfit_cases with hmisfit | hmisfit <;> simp [fault?, h, hs, hmisfit]

/-- The responses that are taken: none behind the first that leads to a fault. -/
def taken : List Response → List Response
  | [] => []
  | x :: rest => x :: if x.fault?.isSome then [] else taken rest

/-- The pages of a listing, taken one after the other. -/
def ofPages : Except Failure (List Page) → List Response
  | .ok pages => taken (pages.map fun page => ⟨.listObjects, page⟩)
  | .error f => [⟨.listObjects, .error f⟩]

end Response

namespace Event

variable {σ : Type} [Service σ]

/-- What comes back for one event. -/
def responses : Event → σ → List Response
  | sent r, s => [⟨r.kind, (Service.answer r s).1⟩]
  | listed l, s => Response.ofPages (Service.pages l s).1
  | released, _ => []

/-- What events leave of the service that the first of them met. -/
def leaveAll (events : List Event) (s : σ) : σ :=
  events.foldl (fun s e => e.leave s) s

/-- What comes back for events, one after the other. -/
def allResponses : List Event → σ → List Response
  | [], _ => []
  | e :: rest, s => e.responses s ++ allResponses rest (e.leave s)

theorem allResponses_append (xs ys : List Event) (s : σ) :
    allResponses (xs ++ ys) s = allResponses xs s ++ allResponses ys (leaveAll xs s) := by
  induction xs generalizing s with
  | nil => rfl
  | cons e rest ih =>
    rw [List.cons_append, allResponses, allResponses, ih, List.append_assoc]
    rfl

end Event

namespace Context

variable {σ : Type} [Service σ] {a b c c' : Context σ} {xs ys : List Event}

/-- What came back for the events on record in `c'` and not yet in `c`. -/
def responses (c c' : Context σ) : List Response :=
  Event.allResponses (c'.trace.drop c.trace.length) c.service

/-- From one context to the other these events took place, and the service changed by nothing
else. -/
structure Records (c c' : Context σ) (events : List Event) : Prop where
  trace : c'.trace = c.trace ++ events
  service : c'.service = Event.leaveAll events c.service

theorem Records.refl (c : Context σ) : c.Records c [] := ⟨by simp, rfl⟩

theorem Records.trans (h : a.Records b xs) (h' : b.Records c ys) : a.Records c (xs ++ ys) := by
  refine ⟨by rw [h'.trace, h.trace, List.append_assoc], ?_⟩
  rw [h'.service, h.service]
  exact (List.foldl_append ..).symm

theorem Records.responses_eq (h : c.Records c' xs) :
    c.responses c' = Event.allResponses xs c.service := by
  rw [responses, h.trace, List.drop_left]

end Context

/-! ## 3. Runs that end as their responses say -/

namespace Run

variable {σ α β : Type} [Service σ]

/-- The run ends with a fault exactly when a response that it got leads to that fault; so it returns
when none does. -/
def Faithful (x : Run σ α) : Prop :=
  ∀ c, ∃ events, c.Records (x.execute c).2 events ∧ ∀ fault,
    Except.fault? (x.execute c).1 = some fault ↔
      ∃ y ∈ Event.allResponses events c.service, y.fault? = some fault

theorem faithful_pure (a : α) : (pure a : Run σ α).Faithful := by
  intro c
  refine ⟨[], .refl c, fun fault => ?_⟩
  simp [Except.fault?, Event.allResponses]

variable {x : Run σ α}

theorem Faithful.bind {f : α → Run σ β} (hx : x.Faithful) (hf : ∀ a, (f a).Faithful) :
    (x >>= f).Faithful := by
  intro c
  obtain ⟨events, hrecords, hfault⟩ := hx c
  rw [execute_bind]
  rcases hrun : x.execute c with ⟨e | a, c₁⟩ <;> rw [hrun] at hrecords hfault
  · exact ⟨events, hrecords, hfault⟩
  · obtain ⟨events', hrecords', hfault'⟩ := hf a c₁
    refine ⟨events ++ events', hrecords.trans hrecords', fun fault => ?_⟩
    -- the first run has returned, so none of its responses leads to a fault
    have hnone : ¬ ∃ y ∈ Event.allResponses events c.service, y.fault? = some fault :=
      fun h => Option.some_ne_none fault ((hfault fault).mpr h).symm
    rw [hfault', Event.allResponses_append, ← hrecords.service]
    constructor
    · rintro ⟨y, hy, hyfault⟩
      exact ⟨y, List.mem_append_right _ hy, hyfault⟩
    · rintro ⟨y, hy, hyfault⟩
      rcases List.mem_append.mp hy with hy | hy
      · exact absurd ⟨y, hy, hyfault⟩ hnone
      · exact ⟨y, hy, hyfault⟩

theorem fault?_map {f : α → β} {result : Except Error α} :
    Except.fault? (result.map f) = Except.fault? result := by
  cases result <;> rfl

theorem Faithful.discard (hx : x.Faithful) : (discard x).Faithful := by
  intro c
  rw [execute_discard]
  simp only [fault?_map]
  exact hx c

theorem Faithful.forM {f : α → Run σ PUnit} {l : List α} (hf : ∀ a, (f a).Faithful) :
    (l.forM f).Faithful := by
  induction l with
  | nil => exact faithful_pure _
  | cons a rest ih => exact (hf a).bind fun _ => ih

/-- A request whose answer is decoded is faithful when the decoding fails as the answer demands. -/
theorem Decodes.faithful {action : Action} {r : Request} {decode : Value → Except Error α}
    (h : x.Decodes action r decode) (hdecode : ∀ v, Except.fault? (decode v) = r.kind.fault? v) :
    x.Faithful := by
  intro c
  rw [h c]
  refine ⟨[.sent r], ⟨rfl, rfl⟩, fun fault => ?_⟩
  have hresponse : Except.fault? ((c.exchange r).decoded action decode) =
      Response.fault? ⟨r.kind, (c.exchange r).answer⟩ := by
    rcases hanswer : (c.exchange r).answer with f | v
    · rw [Exchange.decoded_of_error hanswer]
      exact Except.fault?_failed action f
    · rw [Exchange.decoded_of_ok hanswer, hdecode]
      rfl
  have hresponses : Event.allResponses [.sent r] c.service =
      [⟨r.kind, (c.exchange r).answer⟩] := rfl
  rw [hresponses, hresponse]
  simp

end Run

end ResumableStorage
