/-
  ResumableStorage/Proofs/Upload/SourceLength.lean
  ================================================
  **The length of the object that a repair carries over** — a repair that reads the
  completed object again compares what it has read with the size of the resumed upload,
  and gives up when the two differ.  A repair that copies the object asks for its size,
  takes the answer as it is, and compares it with nothing.

  All of it holds for every service, whatever it answers.
-/
import ResumableStorage.Proofs.Upload.Outcomes
import ResumableStorage.Proofs.Upload.Sizes
import ResumableStorage.Proofs.Upload.Turns

namespace ResumableStorage

variable {σ : Type} [Service σ]

/-! ## 1. What the service tells -/

namespace Exchange

/-- The service tells that the session's object has `n` bytes: by its content, which is read to the
end, or by the size that it answers when it is asked for it. -/
def TellsLength (x : Exchange σ) (s : Session) (n : Int) : RepairMode → Prop
  | .refetch => x.request = .getObject s.bucket s.key none ∧
      ∃ content : Bytes, x.decoded .getObject (fun v => (v.field "Body").mapError .malformed) =
        .ok (.stream content none) ∧ n = content.size
  | .copy => x.request = .headObject s.bucket s.key ∧
      ∃ head : ObjectHead, x.decoded .headObject
        (fun v => (ObjectHead.decode v).mapError .malformed) = .ok head ∧ n = head.size

variable {x : Exchange σ} {s : Session} {mode : RepairMode} {m n : Int}

theorem TellsLength.carries (h : x.TellsLength s n mode) :
    x.request.kind = .getObject ∨ x.request.kind = .headObject := by
  cases mode with
  | refetch => exact .inl (by rw [h.1]; rfl)
  | copy => exact .inr (by rw [h.1]; rfl)

theorem TellsLength.unique (h : x.TellsLength s m mode) (h' : x.TellsLength s n mode) : m = n := by
  cases mode with
  | refetch =>
    obtain ⟨-, content, hbody, rfl⟩ := h
    obtain ⟨-, content', hbody', rfl⟩ := h'
    rw [hbody] at hbody'
    cases hbody'
    rfl
  | copy =>
    obtain ⟨-, head, hhead, rfl⟩ := h
    obtain ⟨-, head', hhead', rfl⟩ := h'
    rw [hhead] at hhead'
    cases hhead'
    rfl

theorem not_tellsLength_of_kind
    (h : x.request.kind ≠ .getObject ∧ x.request.kind ≠ .headObject) : ¬ x.TellsLength s n mode := by
  intro htells
  exact htells.carries.elim h.1 h.2

theorem exists_tellsLength_append (xs ys : List (Exchange σ)) :
    (∃ x ∈ xs ++ ys, x.TellsLength s n mode) ↔
      (∃ x ∈ xs, x.TellsLength s n mode) ∨ ∃ x ∈ ys, x.TellsLength s n mode := by
  simp only [List.mem_append, or_and_right, exists_or]

end Exchange

/-- The requests by which the object of one session is carried over into the upload of another. -/
def Request.CarriesTo (r : Request) (old new : Session) : Prop :=
  r = .getObject old.bucket old.key none ∨ r = .headObject old.bucket old.key ∨
    r = .copyPart old.bucket old.key new.uploadId 1 old.key none

namespace Writer

variable {w w' : Writer} {c c' : Context σ} {data : Bytes}

/-- What is read of a body is all of it, or the body is no stream that can be read to its end. -/
theorem drain_cases (body : Value) (c : Context σ) :
    ∃ result c', (Stream.drain body).execute c = (result, c') ∧ c.Asks c' [] ∧ c'.pool = c.pool ∧
      ((∃ content, body = .stream content none ∧ result = .ok content) ∨
        ∃ e, result = .error e ∧ ∀ content, body ≠ .stream content none) := by
  have hreleased : c.Asks { c with trace := c.trace ++ [.released] } [] :=
    ⟨rfl, [.released], rfl, fun _ => rfl⟩
  by_cases hstream : ∃ content failure, body = .stream content failure
  · obtain ⟨content, _ | f, rfl⟩ := hstream
    · exact ⟨_, _, drain_stream content, hreleased, rfl, .inl ⟨content, rfl, rfl⟩⟩
    · exact ⟨_, _, drain_broken content f, hreleased, rfl, .inr ⟨_, rfl, by simp⟩⟩
  · rw [not_exists] at hstream
    have hvalue : Stream.ofValue body = .error (.noMember body.kindName "read") := by
      unfold Stream.ofValue
      split
      · exact absurd ⟨_, rfl⟩ (hstream _)
      · rfl
    refine ⟨.error (.malformed (.noMember body.kindName "read")), c, ?_, .refl c, rfl,
      .inr ⟨_, rfl, fun content h => hstream content ⟨none, h⟩⟩⟩
    simp only [Stream.drain, Run.execute_bind, Run.execute_decoded, hvalue, Except.mapError]

/-- What came of carrying an object over: the length that the service has told of it, and whether
that was compared with the length that was expected. -/
structure Carriage (old new : Session) (size : Int) (mode : RepairMode)
    (result : Except Error (List Part × Bytes)) (xs : List (Exchange σ)) : Prop where
  carries : ∀ x ∈ xs, x.request.CarriesTo old new
  returned : ∀ parts content, result = .ok (parts, content) →
    ∃ told, (∀ n, (∃ x ∈ xs, x.TellsLength old n mode) ↔ n = told) ∧
      Part.totalSize parts + content.size = told ∧
      (mode = .refetch → told = size ∧ parts = []) ∧ (mode = .copy → content = ByteArray.empty)
  raised : mode = .refetch → ∀ x ∈ xs, ∀ n, x.TellsLength old n mode → n ≠ size →
    result = .error (.storage (.lengthChanged old.key size n.toNat))

theorem refetch_carriage (old new : Session) (size : Int) (c : Context σ) :
    ∃ result c' xs, (carryOver old new size .refetch).execute c = (result, c') ∧ c.Asks c' xs ∧
      c'.pool = c.pool ∧ Carriage old new size .refetch result xs := by
  have hget := Client.getObject_decodes (σ := σ) old.bucket old.key c
  have hasks := c.asks_asked (.getObject old.bucket old.key none)
  generalize hx : c.exchange (.getObject old.bucket old.key none) = x at hget hasks
  have hrequest : x.request = .getObject old.bucket old.key none := by rw [← hx]; rfl
  have hcarries : ∀ y ∈ [x], y.request.CarriesTo old new := by
    intro y hy
    rw [List.mem_singleton.mp hy]
    exact .inl hrequest
  simp only [carryOver, refetch, Run.execute_bind, hget]
  rcases hbody : x.decoded .getObject (fun v => (v.field "Body").mapError .malformed) with e | body
  · refine ⟨_, _, _, rfl, hasks, rfl, hcarries, by simp, ?_⟩
    rintro - y hy n ⟨-, content, htells, -⟩ hne
    rw [List.mem_singleton.mp hy, hbody] at htells
    cases htells
  · obtain ⟨result, c', hdrain, hasks', hpool, hcases⟩ := drain_cases body
      (c.asked (.getObject old.bucket old.key none))
    have hasks := hasks.trans hasks'
    simp only [hdrain]
    rcases hcases with ⟨content, rfl, rfl⟩ | ⟨e, rfl, hnot⟩
    · have htells : ∀ n, (∃ y ∈ [x], y.TellsLength old n .refetch) ↔ n = content.size := by
        intro n
        constructor
        · rintro ⟨y, hy, h⟩
          rw [List.mem_singleton.mp hy] at h
          exact h.unique ⟨hrequest, content, hbody, rfl⟩
        · rintro rfl
          exact ⟨x, List.mem_singleton_self x, hrequest, content, hbody, rfl⟩
      by_cases hsize : (content.size : Int) = size
      · simp only [hsize, if_true, Run.execute_pure]
        refine ⟨_, _, _, rfl, hasks, hpool, hcarries, ?_, ?_⟩
        · intro parts content' h
          cases h
          exact ⟨size, by rwa [hsize] at htells, by simp [Part.totalSize, hsize],
            fun _ => ⟨rfl, rfl⟩, by simp⟩
        · intro _ y hy n h hne
          exact absurd (((htells n).mp ⟨y, hy, h⟩).trans hsize) hne
      · simp only [hsize, if_false, Run.execute_throw]
        refine ⟨_, _, _, rfl, hasks, hpool, hcarries, by simp, ?_⟩
        intro _ y hy n h hne
        rw [(htells n).mp ⟨y, hy, h⟩, Int.toNat_natCast]
    · refine ⟨_, _, _, rfl, hasks, hpool, hcarries, by simp, ?_⟩
      rintro - y hy n ⟨-, content, htells, -⟩ hne
      rw [List.mem_singleton.mp hy, hbody, Except.ok.injEq] at htells
      exact absurd htells (hnot content)

theorem copy_carriage (old new : Session) (size : Int) (c : Context σ) :
    ∃ result c' xs, (carryOver old new size .copy).execute c = (result, c') ∧ c.Asks c' xs ∧
      c'.pool = c.pool ∧ Carriage old new size .copy result xs := by
  have hhead := Client.headObject_decodes (σ := σ) old.bucket old.key c
  have hasks := c.asks_asked (.headObject old.bucket old.key)
  generalize hx : c.exchange (.headObject old.bucket old.key) = x at hhead hasks
  have hrequest : x.request = .headObject old.bucket old.key := by rw [← hx]; rfl
  have hcarries : x.request.CarriesTo old new := .inr (.inl hrequest)
  simp only [carryOver, Client.copyPart_eq, Run.execute_bind, hhead]
  rcases htold : x.decoded .headObject (fun v => (ObjectHead.decode v).mapError .malformed)
    with e | head
  · exact ⟨_, _, _, rfl, hasks, rfl, by simpa using hcarries, by simp, by simp⟩
  · -- the copy is one more request, whose answer tells no length
    obtain ⟨c₁, hc₁⟩ : ∃ c₁, c₁ = c.asked (.headObject old.bucket old.key) := ⟨_, rfl⟩
    have hcopy := Client.sendCopy_decodes (σ := σ) ⟨new.uploadId, old.bucket, old.key⟩ 1 old.key
      head.size c₁
    have hasks' := c₁.asks_asked (.copyPart old.bucket old.key new.uploadId 1 old.key none)
    generalize hy : c₁.exchange (.copyPart old.bucket old.key new.uploadId 1 old.key none) = y
      at hcopy hasks'
    have hrequest' : y.request = .copyPart old.bucket old.key new.uploadId 1 old.key none := by
      rw [← hy]
      rfl
    rw [← hc₁] at hasks
    have hcarries' : ∀ z ∈ [x] ++ [y], z.request.CarriesTo old new := by
      simpa using ⟨hcarries, Or.inr (Or.inr hrequest')⟩
    simp only [← hc₁, hcopy]
    rcases hpart : y.decoded .copyPart (Part.ofCopy 1 head.size) with e | part
    · exact ⟨_, _, _, rfl, hasks.trans hasks', by rw [hc₁]; rfl, hcarries', by simp, by simp⟩
    · have hsize : part.size = head.size := by
        obtain ⟨v, -, hdecode⟩ := Exchange.answer_of_decoded hpart
        exact Part.ofCopy_size hdecode
      have htells : ∀ n, (∃ z ∈ [x] ++ [y], z.TellsLength old n .copy) ↔ n = head.size := by
        intro n
        constructor
        · rintro ⟨z, hz, h⟩
          rcases List.mem_append.mp hz with hz | hz <;> rw [List.mem_singleton.mp hz] at h
          · exact h.unique ⟨hrequest, head, htold, rfl⟩
          · rw [h.1] at hrequest'
            cases hrequest'
        · rintro rfl
          exact ⟨x, by simp, hrequest, head, htold, rfl⟩
      refine ⟨_, _, _, rfl, hasks.trans hasks', by rw [hc₁]; rfl, hcarries', ?_, by simp⟩
      intro parts content h
      cases h
      exact ⟨head.size, htells, by simp [Part.totalSize, hsize], by simp, fun _ => rfl⟩

theorem carryOver_carriage (old new : Session) (size : Int) (mode : RepairMode) (c : Context σ) :
    ∃ result c' xs, (carryOver old new size mode).execute c = (result, c') ∧ c.Asks c' xs ∧
      c'.pool = c.pool ∧ Carriage old new size mode result xs := by
  cases mode with
  | refetch => exact refetch_carriage old new size c
  | copy => exact copy_carriage old new size c

theorem CarriesOver.carriage {new : Session} {result : Except Error (List Part × Bytes)}
    {xs : List (Exchange σ)} (h : w.CarriesOver new result xs) :
    Carriage w.session new w.size (repairMode w.policy w.size) result xs := by
  obtain ⟨c, c', hrun, hasks⟩ := h
  obtain ⟨_, _, ys, hrun', hasks', -, hcarriage⟩ :=
    carryOver_carriage w.session new w.size (repairMode w.policy w.size) c
  rw [hrun] at hrun'
  cases hrun'
  rwa [← hasks.exchanges_eq, hasks'.exchanges_eq]

/-! ## 2. A repair -/

/-- How much more the parts and the staged bytes come to than the size that the writer counts. -/
def surplus (w : Writer) : Int :=
  Part.totalSize w.parts + w.staged.size - w.size

/-- A repair that goes through has been told the length of the object, and the parts and the staged
bytes come to that length.  One that was told another length than it expects by what it has read
raises, drops the new upload and takes nothing in. -/
structure Accounted (w : Writer) (result : Except Error Unit) (w' : Writer)
    (xs : List (Exchange σ)) : Prop where
  asked : ∀ x ∈ xs, ((∃ parts, x.request = w.session.completion parts) ∨
      x.request = w.session.abortion ∨ x.request.Creates w.session) ∨
    ∃ new, (∃ y ∈ xs, y.Starts w.session new) ∧
      (x.request.CarriesTo w.session new ∨ x.request = new.abortion)
  returned : result = .ok () → ∃ told,
    (∀ n, (∃ x ∈ xs, x.TellsLength w.session n (repairMode w.policy w.size)) ↔ n = told) ∧
      (repairMode w.policy w.size = .refetch → told = w.size) ∧ w'.surplus = told - w.size ∧
      w'.size = w.size ∧ w'.repair = .done ∧ w'.Filled (w'.parts.map (·.size)) w'.staged.size 0
  raised : repairMode w.policy w.size = .refetch →
    ∀ x ∈ xs, ∀ n, x.TellsLength w.session n .refetch → n ≠ w.size →
      result = .error (.storage (.lengthChanged w.session.key w.size n.toNat)) ∧
        w' = { w with repair := .required true } ∧
        ∃ new, (∃ y ∈ xs, y.Starts w.session new) ∧
          ∃ z, xs.getLast? = some z ∧ z.request = new.abortion

theorem Filled.of_staged {total : Nat} (hready : w.ready.size ≤ w.policy.chunk)
    (hpending : w.pending = ByteArray.empty) (htotal : w.staged.size = total) :
    w.Filled (w.parts.map (·.size)) total 0 := by
  have hpos := w.policy.chunk_pos
  refine ⟨.of_empty hready hpending, ?_, by simp, by simpa using htotal, by simp⟩
  rw [IsStuck, hpending, ByteArray.size_empty]
  omega

section Repair

variable {new : Session} {x : Exchange σ} {xs carried : List (Exchange σ)}
  {result : Except Error Unit}

/-- Until the object is carried over a repair is told no length. -/
theorem exists_tellsLength_behind {s : Session} {n : Int} {mode : RepairMode}
    (hclosing : ∀ z ∈ w.closing c, z.Completes w.session) (hx : x.request.Creates w.session)
    (xs : List (Exchange σ)) :
    (∃ z ∈ w.closing c ++ x :: xs, z.TellsLength s n mode) ↔ ∃ z ∈ xs, z.TellsLength s n mode := by
  have hclose : ¬ ∃ z ∈ w.closing c, z.TellsLength s n mode := by
    rintro ⟨z, hz, htells⟩
    obtain ⟨⟨parts, hr⟩, -⟩ := hclosing z hz
    exact Exchange.not_tellsLength_of_kind (by simp [hr]) htells
  have hcreate : ¬ x.TellsLength s n mode := by
    obtain ⟨type, hr⟩ := hx
    exact Exchange.not_tellsLength_of_kind (by simp [hr, Request.kind])
  rw [Exchange.exists_tellsLength_append, List.exists_mem_cons_iff, or_iff_right hclose,
    or_iff_right hcreate]

theorem CarriesOver.asked {told : Except Error (List Part × Bytes)}
    (h : w.CarriesOver new told carried) (hclosing : ∀ z ∈ w.closing c, z.Completes w.session)
    (hx : x.Starts w.session new) (dropped : List (Exchange σ))
    (hdropped : ∀ z ∈ dropped, z.request = new.abortion) :
    ∀ z ∈ w.closing c ++ x :: (carried ++ dropped),
      ((∃ parts, z.request = w.session.completion parts) ∨
        z.request = w.session.abortion ∨ z.request.Creates w.session) ∨
      ∃ new, (∃ y ∈ w.closing c ++ x :: (carried ++ dropped), y.Starts w.session new) ∧
        (z.request.CarriesTo w.session new ∨ z.request = new.abortion) := by
  have hstarts : ∃ y ∈ w.closing c ++ x :: (carried ++ dropped), y.Starts w.session new :=
    ⟨x, by simp, hx⟩
  intro z hz
  rcases List.mem_append.mp hz with hz | hz
  · exact .inl (.inl (hclosing z hz).1)
  rcases List.mem_cons.mp hz with rfl | hz
  · exact .inl (.inr (.inr hx.1))
  rcases List.mem_append.mp hz with hz | hz
  · exact .inr ⟨new, hstarts, .inl (h.carriage.carries z hz)⟩
  · exact .inr ⟨new, hstarts, .inr (hdropped z hz)⟩

theorem RepairStep.asked (h : w.RepairStep c result w' xs) :
    ∀ z ∈ xs, ((∃ parts, z.request = w.session.completion parts) ∨
        z.request = w.session.abortion ∨ z.request.Creates w.session) ∨
      ∃ new, (∃ y ∈ xs, y.Starts w.session new) ∧
        (z.request.CarriesTo w.session new ∨ z.request = new.abortion) := by
  cases h with
  | notCompleted hsource hx hy =>
    intro z hz
    rcases List.mem_cons.mp hz with rfl | hz
    · exact .inl (.inl ⟨w.parts, rfl⟩)
    · rw [List.mem_singleton.mp hz]
      exact .inl (.inr (.inl hy))
  | notStarted hclosing hx hnew =>
    intro z hz
    rcases List.mem_append.mp hz with hz | hz
    · exact .inl (.inl (hclosing z hz).1)
    · rw [List.mem_singleton.mp hz]
      exact .inl (.inr (.inr hx))
  | notCarried hclosing hx hcarried hy =>
    apply hcarried.asked hclosing hx
    intro z hz
    rwa [List.mem_singleton.mp hz]
  | staged hmode hclosing hx hcarried =>
    simpa only [List.append_nil] using hcarried.asked hclosing hx [] (by simp)
  | copied hmode hclosing hx hcarried =>
    simpa only [List.append_nil] using hcarried.asked hclosing hx [] (by simp)

theorem RepairStep.returned (hslots : w.slots = none) (h : w.RepairStep c (.ok ()) w' xs) :
    ∃ told, (∀ n, (∃ z ∈ xs, z.TellsLength w.session n (repairMode w.policy w.size)) ↔ n = told) ∧
      (repairMode w.policy w.size = .refetch → told = w.size) ∧ w'.surplus = told - w.size ∧
      w'.size = w.size ∧ w'.repair = .done ∧ w'.Filled (w'.parts.map (·.size)) w'.staged.size 0 := by
  cases h with
  | @staged new x carried parts content lent hmode hclosing hx hcarried hready hpending =>
    obtain ⟨told, htold, htotal, hrefetch, -⟩ := hcarried.carriage.returned parts content rfl
    obtain ⟨rfl, rfl⟩ := hrefetch hmode
    have hcontent : (content.size : Int) = w.size := by simpa [Part.totalSize] using htotal
    simp only [ready, pending, hslots] at hready hpending
    have hheld := held_fill_of_refetch (by rwa [hcontent]) hready
    have hstaged : (lent.ready.fill w.policy.chunk content 0).1.held ++ lent.pending.held =
        content := by rw [hheld, hpending, ByteArray.append_empty]
    refine ⟨w.size, fun n => (exists_tellsLength_behind hclosing hx.1 _).trans (htold n),
      fun _ => rfl, ?_, rfl, rfl, .of_staged ?_ hpending rfl⟩
    · simp only [surplus, Writer.staged, ready, pending, hstaged]
      rw [hcontent]
      simp [Part.totalSize]
    · have hlt := leftOver_size_lt w.policy content
      have hle := w.policy.floor_le_chunk
      rw [hcontent, hmode] at hlt
      simp only [leftOver] at hlt
      simp only [ready, hheld]
      omega
  | @copied new x carried parts content hmode hclosing hx hcarried =>
    obtain ⟨told, htold, htotal, -, hcopy⟩ := hcarried.carriage.returned parts content rfl
    obtain rfl := hcopy hmode
    have hstaged : Writer.staged { w with session := new, parts, repair := .done } =
        ByteArray.empty := staged_of_none hslots
    refine ⟨told, fun n => (exists_tellsLength_behind hclosing hx.1 _).trans (htold n),
      by simp [hmode], ?_, rfl, rfl, .of_staged ?_ ?_ rfl⟩
    · rw [surplus, hstaged, htotal]
    · simp [ready, hslots]
    · simp [pending, hslots]

theorem RepairStep.raised (h : w.RepairStep c result w' xs)
    (hmode : repairMode w.policy w.size = .refetch) {n : Int}
    (htells : ∃ z ∈ xs, z.TellsLength w.session n .refetch) (hne : n ≠ w.size) :
    result = .error (.storage (.lengthChanged w.session.key w.size n.toNat)) ∧
      w' = { w with repair := .required true } ∧
      ∃ new, (∃ y ∈ xs, y.Starts w.session new) ∧
        ∃ z, xs.getLast? = some z ∧ z.request = new.abortion := by
  cases h with
  | @notCompleted e y hsource hx hy =>
    obtain ⟨z, hz, htells⟩ := htells
    have hkind : z.request.kind ≠ .getObject ∧ z.request.kind ≠ .headObject := by
      rcases List.mem_cons.mp hz with rfl | hz
      · simp [completing, Context.exchange]
      · simp [List.mem_singleton.mp hz, hy]
    exact absurd htells (Exchange.not_tellsLength_of_kind hkind)
  | notStarted hclosing hx hnew =>
    rw [exists_tellsLength_behind hclosing hx] at htells
    simp at htells
  | @notCarried e new x y carried hclosing hx hcarried hy =>
    have hdropped : ¬ ∃ z ∈ [y], z.TellsLength w.session n .refetch := by
      simpa using Exchange.not_tellsLength_of_kind (by simp [hy])
    rw [exists_tellsLength_behind hclosing hx.1, Exchange.exists_tellsLength_append,
      or_iff_left hdropped] at htells
    obtain ⟨z, hz, htells⟩ := htells
    have hcarriage := hcarried.carriage
    rw [hmode] at hcarriage
    have hraised := hcarriage.raised rfl z hz n htells hne
    cases hraised
    refine ⟨rfl, rfl, new, ⟨x, by simp, hx⟩, y, ?_, hy⟩
    rw [← List.cons_append, ← List.append_assoc, List.getLast?_concat]
  | @staged new x carried parts content lent _ hclosing hx hcarried hready hpending =>
    obtain ⟨told, htold, -, hrefetch, -⟩ := hcarried.carriage.returned parts content rfl
    obtain ⟨rfl, -⟩ := hrefetch hmode
    rw [hmode] at htold
    exact absurd ((htold n).mp ((exists_tellsLength_behind hclosing hx.1 _).mp htells)) hne
  | copied hcopy => simp [hmode] at hcopy

end Repair

theorem replaceSession_accounted (hslots : w.slots = none) (c : Context σ) :
    ∃ result w' c' xs, replaceSession.execute w c = (result, w', c') ∧ c.Asks c' xs ∧
      w.Accounted result w' xs := by
  obtain ⟨result, w', c', xs, hrun, hasks, hstep, -⟩ := replaceSession_step w c
  refine ⟨result, w', c', xs, hrun, hasks, hstep.asked, ?_, ?_⟩
  · rintro rfl
    exact hstep.returned hslots
  · intro hmode z hz n htells hne
    exact hstep.raised hmode ⟨z, hz, htells⟩ hne

/-! ## 3. A write -/

theorem sendPart_surplus {body : Bytes} {result : Except Error Unit}
    (hrun : (sendPart body).execute w c = (result, w', c')) :
    w' = w ∧ result ≠ .ok () ∨
      result = .ok () ∧ ∃ part, w' = { w with parts := w.parts ++ [part] } ∧ part.size = body.size := by
  rcases result with e | ⟨⟩
  · obtain ⟨x, c₁, -, -, -, ⟨part, hsent⟩ | ⟨e', -, hfailed⟩⟩ := sendPart_asks w c body
    · rw [hrun] at hsent
      cases hsent
    · rw [hrun] at hfailed
      cases hfailed
      exact .inl ⟨rfl, by simp⟩
  · exact .inr ⟨rfl, sendPart_eq_ok hrun⟩

theorem surplus_of_slots {slots : Slots} (hslots : w.slots = some slots) :
    w.surplus = Part.totalSize w.parts + slots.staged.size - w.size := by
  rw [surplus, staged_of_slots hslots]

theorem surplus_of_fill {slots : Slots} (hslots : w.slots = some slots) (capacity : Nat)
    (data : Bytes) (offset : Nat) :
    surplus { w with
      slots := some (slots.fill capacity data offset).1
      size := w.size + (slots.fill capacity data offset).2 } = w.surplus := by
  have hready := Slots.fill_ready_size slots capacity data offset
  have hpending := Slots.fill_pending_size slots capacity data offset
  rw [surplus_of_slots hslots, surplus_of_slots rfl, Slots.staged_size, Slots.staged_size,
    Slots.fill_count]
  push_cast
  omega

theorem surplus_of_shift {slots : Slots} (hslots : w.slots = some slots) {part : Part}
    (hsize : part.size = slots.ready.held.size) :
    surplus { w with parts := w.parts ++ [part], slots := some slots.shift } = w.surplus := by
  rw [surplus_of_slots hslots, surplus_of_slots rfl, Slots.staged_shift, Slots.staged_size,
    Part.totalSize_eq, Part.totalSize_eq, List.map_append, List.sum_append]
  simp only [List.map_singleton, List.sum_singleton, hsize]
  push_cast
  omega

/-- Bytes are counted when they are taken in: a feed keeps the surplus, also one that fails. -/
theorem feed_surplus (policy : Policy) (slots : Slots) (offset : Nat)
    {result : Except Error Nat} (hslots : w.slots = some slots)
    (hrun : (feed policy data slots offset).execute w c = (result, w', c')) :
    w'.surplus = w.surplus := by
  induction slots, offset using feed.induct policy data generalizing w c with
  | case1 slots offset hlt filled hfull =>
    rename_i ih
    have hkept := surplus_of_fill hslots policy.chunk data offset
    rw [feed_execute_of_full hlt hfull, Writing.execute_bind] at hrun
    rcases hsend : (sendPart filled.1.ready.held).execute
      { w with slots := some filled.1, size := w.size + filled.2 }
      { c with pool := c.pool.putBoth slots policy.chunk data offset } with ⟨sent, w₁, c₁⟩
    rw [hsend] at hrun
    rcases sendPart_surplus hsend with ⟨rfl, hfailed⟩ | ⟨rfl, part, rfl, hpart⟩
    · rcases sent with e | ⟨⟩
      · obtain ⟨-, rfl, -⟩ := hrun
        exact hkept
      · exact absurd rfl hfailed
    · rw [ih rfl hrun, ← hkept]
      exact surplus_of_shift (w := { w with slots := some filled.1, size := w.size + filled.2 })
        rfl hpart
  | case2 slots offset hlt filled hroom =>
    rw [feed_execute_of_room hlt (eq_false_of_ne_true hroom)] at hrun
    obtain ⟨-, rfl, -⟩ := hrun
    exact surplus_of_fill hslots policy.chunk data offset
  | case3 slots offset hge =>
    rw [feed_execute_of_done hge] at hrun
    obtain ⟨-, rfl, -⟩ := hrun
    rfl

theorem takeIn_surplus {result : Except Error Nat}
    (hrun : (takeIn data).execute w c = (result, w', c')) : w'.surplus = w.surplus := by
  obtain ⟨slots, c₁, hborrow, -, -, hready, hpending⟩ := borrow_lends w c
  simp only [takeIn, Writing.execute_bind, hborrow, Writing.execute_writer] at hrun
  have hkept := feed_surplus (w := { w with slots := some slots }) w.policy slots 0 rfl hrun
  rw [hkept, surplus, surplus, staged, staged]
  simp only [ready, pending] at hready hpending ⊢
  rw [hready, hpending]

/-- A write that takes everything in makes the size grow by what it was given. -/
theorem Filled.takeIn_size {total : Nat} (h : w.Filled (w.parts.map (·.size)) total 0)
    (hne : data.size ≠ 0) {told : Nat}
    (hrun : (Writer.takeIn data).execute w c = (.ok told, w', c')) :
    w'.size = w.size + data.size := by
  have hsurplus := takeIn_surplus hrun
  obtain ⟨hadvances, count, hfilled⟩ := h.takeIn hne hrun
  have htotal := h.total_eq
  have htotal' := hfilled.total_eq
  have hsum : Part.totalSize w'.parts = Part.totalSize w.parts + count * w'.policy.chunk := by
    rw [Part.totalSize_eq, Part.totalSize_eq, hfilled.sizes, List.sum_append, List.sum_replicate]
    simp
  rw [surplus, surplus, hsum] at hsurplus
  have hcast : ((count * w'.policy.chunk : Nat) : Int) + w'.staged.size = (total + data.size : Nat) := by
    exact_mod_cast htotal'
  push_cast at hcast
  omega

/-- A writer in use whose upload is to be replaced before it takes anything in. -/
structure Resumed (w : Writer) : Prop where
  phase : w.phase = .active
  repair : ∃ completed, w.repair = .required completed
  slots : w.slots = none
  size : w.size = Part.totalSize w.parts

theorem resumed_ofSession {policy : Policy} {session : Session} {parts : List Part}
    (h : (ofSession policy session parts).repair ≠ .notNeeded) :
    (ofSession policy session parts).Resumed := by
  refine ⟨rfl, ⟨false, ?_⟩, rfl, rfl⟩
  simp only [ofSession] at h ⊢
  by_contra hnot
  rw [if_neg fun hsmall => hnot (if_pos hsmall)] at h
  exact h rfl

theorem takeIn_tells_nothing {s : Session} {n : Int} {mode : RepairMode} {result : Except Error Nat}
    {ys : List (Exchange σ)} (hsends : Sends w result w' ys) :
    ∀ y ∈ ys, ¬ y.TellsLength s n mode := by
  intro y hy
  apply Exchange.not_tellsLength_of_kind
  rw [(hsends.parts y hy).kind_eq]
  decide

/-- What a write that repairs makes of the length of the object that it carries over, whatever the
service answers.

When the repair has gone through, the service has told one length, and the parts and the staged
bytes differ from the size by as much as that length differs from the size that was resumed.  An
object that is read again has the resumed size then; one of another length makes the write raise,
drops the new upload and leaves the writer as it was.  The length that is told of an object that is
copied is not compared with anything. -/
theorem Resumed.write_source_length (h : w.Resumed) (hdata : data.size ≠ 0)
    {result : Except Error Nat} (hrun : (write data).execute w c = (result, w', c')) :
    (∀ n, result = .ok n → n = data.size ∧ w'.repair = .done ∧ w'.size = w.size + data.size) ∧
      (w'.repair = .done → ∃ told,
        (∀ n, (∃ x ∈ c.exchanges c', x.TellsLength w.session n (repairMode w.policy w.size)) ↔
          n = told) ∧
        (repairMode w.policy w.size = .refetch → told = w.size) ∧
        Part.totalSize w'.parts + w'.staged.size = w'.size + (told - w.size)) ∧
      (repairMode w.policy w.size = .refetch →
        ∀ x ∈ c.exchanges c', ∀ n, x.TellsLength w.session n .refetch → n ≠ w.size →
          result = .error (.storage (.lengthChanged w.session.key w.size n.toNat)) ∧
            w' = { w with repair := .required true } ∧
            ∃ new, (∃ y ∈ c.exchanges c', y.Starts w.session new) ∧
              ∃ z, (c.exchanges c').getLast? = some z ∧ z.request = new.abortion) := by
  obtain ⟨completed, hrepair⟩ := h.repair
  rw [write_of_required h.phase hrepair hdata, Writing.execute_bind] at hrun
  obtain ⟨repaired, w₁, c₁, xs, hreplace, hasks, haccounted⟩ := replaceSession_accounted h.slots c
  rw [hreplace] at hrun
  rcases repaired with e | ⟨⟩
  · -- the repair has failed, and nothing is taken in
    cases hrun
    obtain ⟨_, _, _, ys, hreplace', -, hrepairs, -⟩ := replaceSession_repairs w c
    rw [hreplace] at hreplace'
    cases hreplace'
    have hnot : w'.repair ≠ .done := by
      cases hrepairs with
      | notCompleted => simp [hrepair]
      | notStarted => simp
      | notCarried => simp
    rw [hasks.exchanges_eq]
    refine ⟨by simp, fun hdone => absurd hdone hnot, ?_⟩
    intro hmode x hx n htells hne
    obtain ⟨hresult, hw', hdropped⟩ := haccounted.raised hmode x hx n htells hne
    cases hresult
    exact ⟨rfl, hw', hdropped⟩
  · obtain ⟨told, htold, hrefetch, hsurplus, hsize, hdone, hfilled⟩ := haccounted.returned rfl
    obtain ⟨ys, hasks', hsends⟩ := takeIn_sendsParts (σ := σ) data w₁ c₁
    dsimp only at hrun
    rw [hrun] at hasks' hsends
    have htells : ∀ n, (∃ x ∈ xs ++ ys, x.TellsLength w.session n (repairMode w.policy w.size)) ↔
        n = told := by
      intro n
      have hsilent : ¬ ∃ y ∈ ys, y.TellsLength w.session n (repairMode w.policy w.size) :=
        fun ⟨y, hy, h⟩ => takeIn_tells_nothing hsends y hy h
      rw [Exchange.exists_tellsLength_append, or_iff_left hsilent]
      exact htold n
    rw [(hasks.trans hasks').exchanges_eq]
    refine ⟨?_, ?_, ?_⟩
    · rintro n rfl
      refine ⟨takeIn_tells hrun, hsends.advances.repair_eq.trans hdone, ?_⟩
      rw [hfilled.takeIn_size hdata hrun, hsize]
    · intro _
      have hkept := takeIn_surplus hrun
      rw [hsurplus, surplus] at hkept
      exact ⟨told, htells, hrefetch, by omega⟩
    · intro hmode x hx n h hne
      rw [hmode] at htells
      exact absurd (((htells n).mp ⟨x, hx, h⟩).trans (hrefetch hmode)) hne

/-! ## 4. An object of another length -/

namespace Sample

def longPart : Bytes := ⟨#[97, 98, 99, 100]⟩

/-- The object was replaced by a longer one before it is read. -/
def longerObject : List (RequestKind × List (Option Disturbance)) :=
  [(.getObject, [some ⟨false, .answers (.object [("Body", .stream longPart none)])⟩])]

def repairOfLonger : Except Error Nat × Writer × Context (Disturbed Store) :=
  (write shortPart).execute resumed (resumedContext longerObject)

theorem repairOfLonger_asks :
    ((resumedContext longerObject).exchanges repairOfLonger.2.2).length = 4 := by
  decide +kernel

/-- The request that reads the longer object. -/
def reading : Exchange (Disturbed Store) :=
  ((resumedContext longerObject).exchanges repairOfLonger.2.2).get
    ⟨2, by rw [repairOfLonger_asks]; decide⟩

theorem reading_tells : reading.TellsLength resumed.session 4 .refetch :=
  ⟨by with_unfolding_all rfl, longPart, by with_unfolding_all rfl, rfl⟩

end Sample

theorem longer_object_is_refused :
    Sample.resumed.Resumed ∧ Sample.shortPart.size ≠ 0 ∧
      repairMode Sample.resumed.policy Sample.resumed.size = .refetch ∧
      Sample.reading.TellsLength Sample.resumed.session 4 .refetch ∧ Sample.resumed.size = 1 ∧
      Sample.repairOfLonger.1 = .error (.storage (.lengthChanged "a" 1 4)) ∧
      Sample.repairOfLonger.2.1 = { Sample.resumed with repair := .required true } := by
  have hresumed : Sample.resumed.Resumed := resumed_ofSession (by decide)
  have hdata : Sample.shortPart.size ≠ 0 := by decide
  have hmode : repairMode Sample.resumed.policy Sample.resumed.size = .refetch := by decide
  have hrun : (write Sample.shortPart).execute Sample.resumed
      (Sample.resumedContext Sample.longerObject) = Sample.repairOfLonger := rfl
  have hmem : Sample.reading ∈ (Sample.resumedContext Sample.longerObject).exchanges
      Sample.repairOfLonger.2.2 := List.get_mem _ _
  obtain ⟨-, -, hraises⟩ := Resumed.write_source_length hresumed hdata hrun
  obtain ⟨hresult, hwriter, -⟩ := hraises hmode _ hmem 4 Sample.reading_tells (by decide)
  exact ⟨hresumed, hdata, hmode, Sample.reading_tells, by decide, hresult, hwriter⟩

/-- The repair of a write whose old upload can be completed goes on from there. -/
theorem write_of_completed {c₁ : Context σ} {etag : String} (hphase : w.phase = .active)
    (hrepair : w.repair = .required false) (hdata : data.size ≠ 0)
    (hcomplete : (Client.completeUpload w.session w.parts).execute c = (.ok etag, c₁)) :
    (write data).execute w c = (write data).execute { w with repair := .required true } c₁ := by
  rw [write_of_required hphase hrepair hdata,
    write_of_required (w := { w with repair := .required true }) hphase rfl hdata]
  simp [replaceSession, completeSource, Writing.execute_bind, sourceCompleted, hrepair,
    orAbort_of_ok hcomplete, Except.map]

namespace Sample

/-- Two parts, above the floor in sum, of which the last is below it. -/
def copied : Writer :=
  ofSession policy ⟨"u1", "bucket", "a"⟩ (Part.ofTable (Part.table [longPart, shortPart]))

/-- The store answers to a request for the size of an object without telling one. -/
def noLength : List (RequestKind × List (Option Disturbance)) :=
  [(.headObject, [some ⟨false, .answers (.object [])⟩])]

def copiedContext : Context (Disturbed Store) :=
  { context [] with
    service := ⟨((Store.empty 2).startUpload "a").setParts "u1"
      (Part.table [longPart, shortPart]), noLength⟩ }

def completedFirst : Context (Disturbed Store) :=
  copiedContext.asked (.completeUpload "bucket" "a" "u1"
    [(1, Store.tag longPart), (2, Store.tag shortPart)])

theorem copied_completes : (Client.completeUpload copied.session copied.parts).execute
    copiedContext = (.ok (Store.tag (longPart ++ shortPart)), completedFirst) := by
  have hanswer : (copiedContext.exchange (.completeUpload "bucket" "a" "u1"
      [(1, Store.tag longPart), (2, Store.tag shortPart)])).decoded .completeUpload
        Client.completionTag = .ok (Store.tag (longPart ++ shortPart)) := by
    with_unfolding_all rfl
  rw [Client.completeUpload_decodes, copied, ofSession, Session.completion_ofTable]
  exact Prod.ext hanswer rfl

def repairWithoutLength : Except Error Nat × Writer × Context (Disturbed Store) :=
  (write shortPart).execute copied copiedContext

theorem repairWithoutLength_eq : repairWithoutLength =
    (write shortPart).execute { copied with repair := .required true } completedFirst :=
  write_of_completed rfl (by decide) (by decide) copied_completes

end Sample

/-- Five bytes are carried over and one is written, and the write returns.  The parts and the staged
bytes come to one byte, since the store has told no size of the object and none counts as zero. -/
theorem copy_is_not_compared :
    Sample.copied.Resumed ∧ repairMode Sample.copied.policy Sample.copied.size = .copy ∧
      Sample.copied.size = 5 ∧ Sample.repairWithoutLength.1.isOk = true ∧
      Sample.repairWithoutLength.2.1.size = 6 ∧
      Part.totalSize Sample.repairWithoutLength.2.1.parts +
        Sample.repairWithoutLength.2.1.staged.size = 1 := by
  rw [Sample.repairWithoutLength_eq]
  refine ⟨resumed_ofSession (by decide), by decide, by decide, ?_, ?_, ?_⟩
  · decide +kernel
  · decide +kernel
  · decide +kernel

end Writer

end ResumableStorage
