/-
  ResumableStorage/Proofs/Client/Paging.lean
  ==========================================
  **Listings put together from pages** — what a walk over pages comes to is told by the
  pages alone, whatever service shows them: repeated entries, pages without entries, pages
  out of order and pages that end in the wrong way included.  Each page is asked for behind
  the marker of the page before, and no page is asked for that is not needed.
-/
import ResumableStorage.Proofs.Client.Walks

namespace ResumableStorage

/-- What is composed returns exactly when its steps do. -/
theorem Except.bind_eq_ok {ε α β : Type} {x : Except ε α} {f : α → Except ε β} {b : β} :
    (x >>= f) = .ok b ↔ ∃ a, x = .ok a ∧ f a = .ok b := by
  rcases x with e | a
  · exact iff_of_false nofun nofun
  · simp [bind, Except.bind]

/-! ## 1. Services that show pages -/

section

variable {σ β : Type} [Service σ]

/-- Requests of a kind are answered with these pages, one after the other, whatever they ask for. -/
def Shows (kind : RequestKind) (decode : Value → Except Malformed β) : List β → σ → Prop
  | [], _ => True
  | page :: rest, s => ∀ r : Request, r.kind = kind → ∃ v, (Service.answer r s).1 = .ok v ∧
      decode v = .ok page ∧ Shows kind decode rest (Service.answer r s).2

variable {kind : RequestKind} {decode : Value → Except Malformed β} {page : β} {rest : List β}

theorem Run.Decodes.shown {x : Run σ β} {action : Action} {r : Request} {c : Context σ}
    (h : x.Decodes action r fun v => (decode v).mapError .malformed) (hkind : r.kind = kind)
    (hshows : Shows kind decode (page :: rest) c.service) :
    x.execute c = (.ok page, c.asked r) ∧ Shows kind decode rest (c.asked r).service ∧
      ∃ v, decode v = .ok page := by
  obtain ⟨v, hanswer, hdecode, hrest⟩ := hshows r hkind
  have hexchange : (c.exchange r).answer = .ok v := hanswer
  refine ⟨?_, hrest, v, hdecode⟩
  rw [h c, Exchange.decoded_of_ok hexchange, hdecode]
  rfl

/-- The disturbance that answers a request with a value. -/
def Disturbance.answering (v : Value) : Option Disturbance :=
  some ⟨false, .answers v⟩

namespace Disturbed

variable {d : Disturbed σ} {answers : List Value} {pages : List β}

/-- A plan that begins with answers shows the pages that they are. -/
theorem shows_of_queue (hdecode : List.Forall₂ (fun v page => decode v = .ok page) answers pages)
    (hqueue : answers.map Disturbance.answering <+: d.queue kind) : Shows kind decode pages d := by
  induction hdecode generalizing d with
  | nil => trivial
  | @cons v page answers pages hv _ ih =>
    rintro r rfl
    obtain ⟨more, hmore⟩ := hqueue
    have hfst : (d.next r.kind).1 = Disturbance.answering v := by
      rw [next_fst, ← hmore]
      rfl
    refine ⟨v, ?_, hv, ih ⟨more, ?_⟩⟩
    · simp only [Service.answer, under]
      rcases hnext : d.next r.kind with ⟨x, d'⟩
      rw [hnext] at hfst
      cases hfst
      rfl
    · rw [queue_answer, queue_next, if_pos rfl, ← hmore]
      rfl

omit [Service σ] in
theorem length_queue_le (d : Disturbed σ) (kind : RequestKind) :
    (d.queue kind).length ≤ d.pending := by
  unfold queue pending
  rcases hlookup : d.queues.lookup kind with _ | xs
  · exact Nat.zero_le _
  · obtain ⟨l₁, l₂, hqueues, -⟩ := List.lookup_eq_some_iff.mp hlookup
    rw [hqueues]
    simp
    omega

/-- A walk goes on for as long as there are planned pages. -/
theorem length_le_horizon (hdecode : List.Forall₂ (fun v page => decode v = .ok page) answers pages)
    (hqueue : answers.map Disturbance.answering <+: d.queue kind) :
    pages.length ≤ Service.horizon d := by
  have hlength := hqueue.length_le
  rw [List.length_map, hdecode.length_eq] at hlength
  have hpending := d.length_queue_le kind
  have hhorizon : d.pending + 1 ≤ Service.horizon d := Nat.le_mul_of_pos_right _ (Nat.succ_pos _)
  omega

end Disturbed

end

/-! ## 2. Markers -/

namespace PartPage

/-- The marker behind which the next page is; none when there is no next page, or no telling where
it is. -/
def next? (page : PartPage) : Option Int :=
  if page.isTruncated then page.nextMarker.filter (· ≠ 0) else none

end PartPage

namespace UploadPage

/-- The markers behind which the next page is. -/
def next? (page : UploadPage) : Option (Value × Option Value) :=
  if page.isTruncated then page.nextKeyMarker.map (·, page.nextIdMarker) else none

end UploadPage

/-! ## 3. Parts -/

namespace Part

/-- Among the entries of a listing the part is the last one with its number. -/
def IsLatest (p : Part) (entries : List Part) : Prop :=
  ∃ front behind, entries = front ++ p :: behind ∧ ∀ q ∈ behind, q.number ≠ p.number

theorem isLatest_concat {p q : Part} {entries : List Part} : p.IsLatest (entries ++ [q]) ↔
    p = q ∨ p.number ≠ q.number ∧ p.IsLatest entries := by
  constructor
  · rintro ⟨front, behind, hentries, hbehind⟩
    rcases List.eq_nil_or_concat' behind with rfl | ⟨behind, r, rfl⟩
    · obtain ⟨-, hlast⟩ := List.append_inj' hentries rfl
      exact .inl (List.cons.inj hlast).1.symm
    · rw [← List.cons_append, ← List.append_assoc] at hentries
      obtain ⟨hfront, hlast⟩ := List.append_inj' hentries rfl
      obtain rfl := (List.cons.inj hlast).1
      refine .inr ⟨(hbehind q (by simp)).symm, front, behind, hfront, ?_⟩
      exact fun r hr => hbehind r (List.mem_append_left _ hr)
  · rintro (rfl | ⟨hne, front, behind, rfl, hbehind⟩)
    · exact ⟨entries, [], rfl, by simp⟩
    · refine ⟨front, behind ++ [q], by simp, ?_⟩
      intro r hr
      rcases List.mem_append.mp hr with hr | hr
      · exact hbehind r hr
      · rw [List.mem_singleton.mp hr]
        exact hne.symm

theorem IsLatest.mem {p : Part} {entries : List Part} (h : p.IsLatest entries) : p ∈ entries := by
  obtain ⟨front, behind, rfl, -⟩ := h
  simp

/-- Of the entries with one number there is a last one. -/
theorem exists_isLatest {q : Part} {entries : List Part} (hq : q ∈ entries) :
    ∃ p : Part, p.IsLatest entries ∧ p.number = q.number := by
  induction entries using List.reverseRecOn with
  | nil => cases hq
  | append_singleton entries r ih =>
    by_cases hnumber : q.number = r.number
    · exact ⟨r, isLatest_concat.mpr (.inl rfl), hnumber.symm⟩
    · have hmem : q ∈ entries := by
        rcases List.mem_append.mp hq with hq | hq
        · exact hq
        · exact absurd (congrArg Part.number (List.mem_singleton.mp hq)) hnumber
      obtain ⟨p, hlatest, hsame⟩ := ih hmem
      exact ⟨p, isLatest_concat.mpr (.inr ⟨hsame ▸ hnumber, hlatest⟩), hsame⟩

end Part

namespace Bucket

theorem find?_enterParts_iff_latest {entries : List Part} {n : Int} {p : Part} :
    (enterParts Keyed.empty entries).find? n = some p ↔ p.number = n ∧ p.IsLatest entries := by
  induction entries using List.reverseRecOn with
  | nil => exact iff_of_false nofun fun h => absurd h.2.mem (List.not_mem_nil)
  | append_singleton entries q ih =>
    have hlast : enterParts Keyed.empty (entries ++ [q]) =
        (enterParts Keyed.empty entries).insert q.number q := List.foldl_append ..
    rw [hlast, Part.isLatest_concat]
    by_cases hn : n = q.number
    · rw [hn, Keyed.find?_insert_self, Option.some.injEq]
      constructor
      · rintro rfl
        exact ⟨rfl, .inl rfl⟩
      · rintro ⟨hnumber, rfl | ⟨hne, -⟩⟩
        · rfl
        · exact absurd hnumber hne
    · rw [Keyed.find?_insert_of_ne _ _ hn, ih]
      constructor
      · rintro ⟨rfl, hlatest⟩
        exact ⟨rfl, .inr ⟨hn, hlatest⟩⟩
      · rintro ⟨rfl, rfl | ⟨-, hlatest⟩⟩
        · exact absurd rfl hn
        · exact ⟨rfl, hlatest⟩

theorem mem_values_enterParts {entries : List Part} {p : Part} :
    p ∈ (enterParts Keyed.empty entries).values ↔ p.IsLatest entries := by
  constructor
  · intro hp
    obtain ⟨e, he, rfl⟩ := List.mem_map.mp hp
    exact (find?_enterParts_iff_latest.mp (Part.find?_of_mem he)).2
  · intro hlatest
    have hfind := find?_enterParts_iff_latest.mpr ⟨rfl, hlatest⟩
    obtain ⟨l₁, l₂, hentries, -⟩ := List.lookup_eq_some_iff.mp hfind
    refine List.mem_map.mpr ⟨(p.number, p), ?_, rfl⟩
    rw [hentries]
    simp

theorem values_enterParts_ascending (entries : List Part) :
    (enterParts Keyed.empty entries).values.Pairwise fun p q => p.number < q.number := by
  have hnumber : ∀ e ∈ (enterParts Keyed.empty entries).entries, e.2.number = e.1 :=
    fun e he => (find?_enterParts_iff_latest.mp (Part.find?_of_mem he)).1
  refine List.pairwise_map.mpr ((enterParts Keyed.empty entries).ascending.imp_of_mem ?_)
  intro e e' he he' hlt
  rw [hnumber e he, hnumber e' he']
  exact hlt

theorem mem_numbers_enterParts {entries : List Part} {n : Int} :
    n ∈ (enterParts Keyed.empty entries).values.map Part.number ↔
      n ∈ entries.map Part.number := by
  simp only [List.mem_map, mem_values_enterParts]
  constructor
  · rintro ⟨p, hlatest, hnumber⟩
    exact ⟨p, hlatest.mem, hnumber⟩
  · rintro ⟨q, hq, rfl⟩
    exact Part.exists_isLatest hq

variable {σ : Type} [Service σ] {c : Context σ}

/-- The request for the page of parts behind a marker. -/
def partsRequest (b : Bucket) (s : Session) (marker : Int) : Request :=
  .listParts s.bucket s.key s.uploadId b.partPageSize marker

/-- One page of a walk over parts. -/
theorem partsFrom_page (b : Bucket) (s : Session) (n : Nat) (marker : Int)
    (table : Keyed Int Part) {page : PartPage} {rest : List PartPage}
    (hshows : Shows .listParts PartPage.decode (page :: rest) c.service) :
    Shows .listParts PartPage.decode rest (c.asked (b.partsRequest s marker)).service ∧
    (b.partsFrom s (n + 1) marker table).execute c =
      match page.next? with
      | some next => (b.partsFrom s n next (enterParts table page.parts)).execute
          (c.asked (b.partsRequest s marker))
      | none => (if page.isTruncated then .error (.storage .noPartMarker)
          else .ok (enterParts table page.parts), c.asked (b.partsRequest s marker)) := by
  obtain ⟨hrun, hrest, -⟩ :=
    (Client.listParts_decodes (σ := σ) s b.partPageSize marker).shown rfl hshows
  refine ⟨hrest, ?_⟩
  simp only [partsFrom, Run.execute_bind, hrun, PartPage.next?]
  cases page.isTruncated with
  | false => rfl
  | true =>
    simp only [Bool.not_true, Bool.false_eq_true, if_false, if_true]
    generalize Option.filter _ page.nextMarker = next
    cases next <;> rfl

/-- A walk over parts enters the entries of all pages up to the one behind which there is none. -/
theorem partsFrom_shown (b : Bucket) (s : Session) {n : Nat} (marker : Int)
    (table : Keyed Int Part) {front : List PartPage} {last : PartPage} (hn : front.length < n)
    (hshows : Shows .listParts PartPage.decode (front ++ [last]) c.service)
    (hfront : ∀ page ∈ front, page.next?.isSome) (hlast : last.next? = none) :
    ∃ c', (b.partsFrom s n marker table).execute c =
        (if last.isTruncated then .error (.storage .noPartMarker)
          else .ok (enterParts table ((front ++ [last]).flatMap PartPage.parts)), c') ∧
      c'.trace = c.trace ++ (marker :: front.filterMap PartPage.next?).map fun marker =>
        .sent (b.partsRequest s marker) := by
  induction front generalizing n marker table c with
  | nil =>
    obtain ⟨n, rfl⟩ := Nat.exists_eq_add_one_of_ne_zero (Nat.ne_zero_of_lt hn)
    obtain ⟨-, hrun⟩ := b.partsFrom_page s n marker table hshows
    rw [hlast] at hrun
    refine ⟨c.asked (b.partsRequest s marker), ?_, rfl⟩
    rw [hrun, List.nil_append, List.flatMap_singleton]
  | cons page front ih =>
    obtain ⟨n, rfl⟩ := Nat.exists_eq_add_one_of_ne_zero (Nat.ne_zero_of_lt hn)
    obtain ⟨hrest, hrun⟩ := b.partsFrom_page s n marker table hshows
    obtain ⟨next, hnext⟩ := Option.isSome_iff_exists.mp (hfront page List.mem_cons_self)
    rw [hnext] at hrun
    obtain ⟨c', hwalk, htrace⟩ := ih next (enterParts table page.parts)
      (Nat.lt_of_succ_lt_succ hn) hrest fun page hpage => hfront page (List.mem_cons_of_mem _ hpage)
    refine ⟨c', ?_, ?_⟩
    · have hentries : enterParts table ((page :: front ++ [last]).flatMap PartPage.parts) =
          enterParts (enterParts table page.parts) ((front ++ [last]).flatMap PartPage.parts) :=
        List.foldl_append ..
      rw [hrun, hentries]
      exact hwalk
    · rw [htrace, List.filterMap_cons_some hnext]
      simp [Context.asked]

/-! ## 4. Uploads -/

theorem given?_of_given? {v w : Value} (h : v.given? = some w) : w.given? = some w := by
  rw [Value.given?] at h
  split at h
  · rename_i hgiven
    cases h
    rw [Value.given?, if_pos hgiven]
  · cases h

theorem bind_given?_given? (v : Value) : v.given?.bind Value.given? = v.given? := by
  rcases h : v.given? with _ | w
  · rfl
  · exact given?_of_given? h

/-- Two markers behind which a page can be asked for: the first is given, the second if there is
one. -/
structure AreMarkers (m : Value × Option Value) : Prop where
  key : m.1.given? = some m.1
  id : m.2.bind Value.given? = m.2

theorem next?_areMarkers {v : Value} {page : UploadPage} (h : UploadPage.decode v = .ok page)
    {m : Value × Option Value} (hm : page.next? = some m) : AreMarkers m := by
  obtain ⟨_, -, h⟩ := Except.bind_eq_ok.mp h
  obtain ⟨_, -, h⟩ := Except.bind_eq_ok.mp h
  obtain ⟨_, -, h⟩ := Except.bind_eq_ok.mp h
  obtain ⟨_, -, h⟩ := Except.bind_eq_ok.mp h
  obtain ⟨key, -, h⟩ := Except.bind_eq_ok.mp h
  obtain ⟨id, -, h⟩ := Except.bind_eq_ok.mp h
  cases h
  rw [UploadPage.next?] at hm
  split at hm
  · obtain ⟨w, hw, rfl⟩ := Option.map_eq_some_iff.mp hm
    exact ⟨given?_of_given? hw, bind_given?_given? id⟩
  · cases hm

/-- The request for the page of uploads behind two markers, or for the first page. -/
def pageRequest (b : Bucket) (keyFront : String) (behind? : Option (Value × Option Value)) :
    Request :=
  .listUploads b.name (Client.nonEmpty keyFront) (behind?.map Prod.fst) (behind?.bind Prod.snd)

variable {α : Type} {step : α → InFlight → Except Error (ForInStep α)}
  {behind? : Option (Value × Option Value)}

/-- One page of a walk over uploads. -/
theorem walkUploadsFrom_page (b : Bucket) (keyFront : String) (n : Nat)
    (hmarkers : ∀ m ∈ behind?, AreMarkers m) (acc : α) {page : UploadPage}
    {rest : List UploadPage}
    (hshows : Shows .listUploads UploadPage.decode (page :: rest) c.service) :
    Shows .listUploads UploadPage.decode rest (c.asked (b.pageRequest keyFront behind?)).service ∧
    (∀ m ∈ page.next?, AreMarkers m) ∧
    (b.walkUploadsFrom keyFront step (n + 1) (behind?.map Prod.fst) (behind?.bind Prod.snd)
        acc).execute c =
      match walkPage step acc page.uploads with
      | .error e => (.error e, c.asked (b.pageRequest keyFront behind?))
      | .ok (.done a) => (.ok a, c.asked (b.pageRequest keyFront behind?))
      | .ok (.yield a) =>
        match page.next? with
        | some next => (b.walkUploadsFrom keyFront step n (some next.1) next.2 a).execute
            (c.asked (b.pageRequest keyFront behind?))
        | none => (if page.isTruncated then .error (.storage .noKeyMarker) else .ok a,
            c.asked (b.pageRequest keyFront behind?)) := by
  have hrequest : Client.uploadsRequest b.name keyFront (behind?.map Prod.fst)
      (behind?.bind Prod.snd) = b.pageRequest keyFront behind? := by
    rcases behind? with _ | m
    · rfl
    · obtain ⟨hkey, hid⟩ := hmarkers m rfl
      simp [Client.uploadsRequest, pageRequest, hkey, hid]
  obtain ⟨hrun, hrest, v, hdecode⟩ := (Client.listUploads_decodes (σ := σ) b.name keyFront
    (behind?.map Prod.fst) (behind?.bind Prod.snd)).shown rfl hshows
  rw [hrequest] at hrun hrest
  refine ⟨hrest, fun m hm => next?_areMarkers hdecode hm, ?_⟩
  simp only [walkUploadsFrom, Run.execute_bind, hrun, UploadPage.next?]
  rcases walkPage step acc page.uploads with e | a | a
  · rfl
  · rfl
  cases page.isTruncated with
  | false => rfl
  | true =>
    simp only [Bool.not_true, Bool.false_eq_true, if_false, if_true]
    cases page.nextKeyMarker <;> rfl

/-- The consumer has not stopped at these entries. -/
def GoesOn (step : α → InFlight → Except Error (ForInStep α)) (acc : α)
    (entries : List InFlight) : Prop :=
  ∃ a, walkPage step acc entries = .ok (.yield a)

/-- What a consumer of the entries comes to; `cut` says that the listing breaks off behind them. -/
def consumed (step : α → InFlight → Except Error (ForInStep α)) (acc : α)
    (entries : List InFlight) (cut : Bool) : Except Error α :=
  match walkPage step acc entries with
  | .error e => .error e
  | .ok (.done a) => .ok a
  | .ok (.yield a) => if cut then .error (.storage .noKeyMarker) else .ok a

theorem goesOn_nil (acc : α) : GoesOn step acc [] := ⟨acc, rfl⟩

theorem goesOn_append {acc : α} {l l' : List InFlight} :
    GoesOn step acc (l ++ l') ↔
      ∃ a, walkPage step acc l = .ok (.yield a) ∧ GoesOn step a l' := by
  simp only [GoesOn, walkPage_append]
  rcases walkPage step acc l with e | a | a <;> simp

/-- A walk over uploads comes to what its consumer makes of the entries of all pages, and asks for a
page exactly when the consumer has not stopped at those before it. -/
theorem walkUploadsFrom_shown (b : Bucket) (keyFront : String) {n : Nat}
    (hmarkers : ∀ m ∈ behind?, AreMarkers m) (acc : α) {front : List UploadPage}
    {last : UploadPage} (hn : front.length < n)
    (hshows : Shows .listUploads UploadPage.decode (front ++ [last]) c.service)
    (hfront : ∀ page ∈ front, page.next?.isSome) (hlast : last.next? = none) :
    ∃ asked c',
      (b.walkUploadsFrom keyFront step n (behind?.map Prod.fst) (behind?.bind Prod.snd)
          acc).execute c =
        (consumed step acc ((front ++ [last]).flatMap UploadPage.uploads) last.isTruncated, c') ∧
      c'.trace = c.trace ++ ((behind? :: front.map UploadPage.next?).take asked).map (fun behind? =>
        .sent (b.pageRequest keyFront behind?)) ∧
      ∀ j, j < asked ↔ j ≤ front.length ∧
        GoesOn step acc ((front.take j).flatMap UploadPage.uploads) := by
  induction front generalizing n behind? acc c with
  | nil =>
    obtain ⟨n, rfl⟩ := Nat.exists_eq_add_one_of_ne_zero (Nat.ne_zero_of_lt hn)
    obtain ⟨-, -, hrun⟩ := b.walkUploadsFrom_page keyFront n hmarkers acc hshows
    refine ⟨1, c.asked (b.pageRequest keyFront behind?), ?_, rfl, ?_⟩
    · rw [hrun, hlast, List.nil_append, List.flatMap_singleton, consumed]
      rcases walkPage step acc last.uploads with e | a | a <;> rfl
    · intro j
      simp only [List.length_nil, List.take_nil, List.flatMap_nil, goesOn_nil, and_true]
      omega
  | cons page front ih =>
    obtain ⟨n, rfl⟩ := Nat.exists_eq_add_one_of_ne_zero (Nat.ne_zero_of_lt hn)
    obtain ⟨hrest, hnextMarkers, hrun⟩ :=
      b.walkUploadsFrom_page keyFront n hmarkers acc hshows
    obtain ⟨next, hnext⟩ := Option.isSome_iff_exists.mp (hfront page List.mem_cons_self)
    by_cases hgoes : GoesOn step acc page.uploads
    · obtain ⟨a, ha⟩ := hgoes
      rw [ha, hnext] at hrun
      have hmarkers : ∀ m ∈ some next, AreMarkers m := hnext ▸ hnextMarkers
      obtain ⟨asked, c', hwalk, htrace, hasked⟩ := ih hmarkers a (Nat.lt_of_succ_lt_succ hn) hrest
        fun page hpage => hfront page (List.mem_cons_of_mem _ hpage)
      refine ⟨asked + 1, c', ?_, ?_, ?_⟩
      · rw [hrun, List.cons_append, List.flatMap_cons, consumed, walkPage_append, ha]
        exact hwalk
      · rw [htrace, List.map_cons, hnext]
        simp [Context.asked]
      · rintro (_ | j)
        · simp [goesOn_nil]
        · have hbehind : GoesOn step acc (((page :: front).take (j + 1)).flatMap
              UploadPage.uploads) ↔ GoesOn step a ((front.take j).flatMap UploadPage.uploads) := by
            rw [List.take_succ_cons, List.flatMap_cons, goesOn_append, ha]
            simp
          rw [hbehind, Nat.succ_lt_succ_iff, hasked, List.length_cons, Nat.succ_le_succ_iff]
    · -- the consumer stops in this page
      refine ⟨1, c.asked (b.pageRequest keyFront behind?), ?_, by simp [Context.asked], ?_⟩
      · rw [hrun, List.cons_append, List.flatMap_cons, consumed, walkPage_append]
        rcases hwalk : walkPage step acc page.uploads with e | a | a
        · rfl
        · rfl
        · exact absurd ⟨a, hwalk⟩ hgoes
      · rintro (_ | j)
        · simp [goesOn_nil]
        · rw [List.take_succ_cons, List.flatMap_cons, goesOn_append]
          refine iff_of_false (by omega) ?_
          rintro ⟨-, a, ha, -⟩
          exact hgoes ⟨a, ha⟩

/-! ## 5. Whole listings -/

/-- **Listings are put together from their pages.**  The pages that a service shows may hold any
entries.  All pages but the last go on: they are truncated and tell where the next one is.  Then the
parts of an upload are asked for once a page, from the marker zero on and then behind each page's
marker; a truncated last page is a violation of the protocol, and with any other the parts ascend by
their numbers, which are those of the entries, each part the last entry with its number.  A walk
over uploads comes to what its consumer makes of the entries of all pages in their order, a
violation of the protocol following the entries when the last page is truncated; a page is asked
for, behind both markers of the page before, exactly when the consumer has not stopped at the
entries before it. -/
theorem put_together_from_pages (b : Bucket) (c : Context (Disturbed σ)) :
    (∀ (s : Session) (answers : List Value) (front : List PartPage) (last : PartPage),
      List.Forall₂ (fun v page => PartPage.decode v = .ok page) answers (front ++ [last]) →
      answers.map Disturbance.answering <+: c.service.queue .listParts →
      (∀ page ∈ front, page.next?.isSome) → last.next? = none →
      ∃ result c', (b.parts s).execute c = (result, c') ∧
        c'.trace = c.trace ++ (0 :: front.filterMap PartPage.next?).map (fun marker =>
          .sent (b.partsRequest s marker)) ∧
        (last.isTruncated = true → result = .error (.storage .noPartMarker)) ∧
        (last.isTruncated = false → ∃ parts, result = .ok parts ∧
          (parts.Pairwise fun p q => p.number < q.number) ∧
          (∀ n, n ∈ parts.map Part.number ↔
            n ∈ ((front ++ [last]).flatMap PartPage.parts).map Part.number) ∧
          ∀ p, p ∈ parts ↔ p.IsLatest ((front ++ [last]).flatMap PartPage.parts))) ∧
    (∀ (α : Type) (step : α → InFlight → Except Error (ForInStep α)) (acc : α)
        (keyFront : String) (answers : List Value) (front : List UploadPage) (last : UploadPage),
      List.Forall₂ (fun v page => UploadPage.decode v = .ok page) answers (front ++ [last]) →
      answers.map Disturbance.answering <+: c.service.queue .listUploads →
      (∀ page ∈ front, page.next?.isSome) → last.next? = none →
      ∃ asked c', (b.walkUploads keyFront step acc).execute c =
          (consumed step acc ((front ++ [last]).flatMap UploadPage.uploads) last.isTruncated, c') ∧
        c'.trace = c.trace ++ ((none :: front.map UploadPage.next?).take asked).map (fun behind? =>
          .sent (b.pageRequest keyFront behind?)) ∧
        ∀ j, j < asked ↔ j ≤ front.length ∧
          GoesOn step acc ((front.take j).flatMap UploadPage.uploads)) ∧
    StorageError.noPartMarker.family = .protocolViolation ∧
    StorageError.noKeyMarker.family = .protocolViolation := by
  refine ⟨?_, ?_, rfl, rfl⟩
  · intro s answers front last hdecode hqueue hfront hlast
    have hhorizon := Disturbed.length_le_horizon hdecode hqueue
    rw [List.length_append, List.length_singleton] at hhorizon
    obtain ⟨c', hwalk, htrace⟩ := b.partsFrom_shown s 0 Keyed.empty hhorizon
      (Disturbed.shows_of_queue hdecode hqueue) hfront hlast
    simp only [parts, Run.execute_bind, Run.execute_get, hwalk]
    cases htruncated : last.isTruncated with
    | true =>
      exact ⟨_, c', rfl, htrace, fun _ => rfl, Bool.noConfusion⟩
    | false =>
      refine ⟨_, c', rfl, htrace, Bool.noConfusion, fun _ =>
        ⟨_, rfl, values_enterParts_ascending _, ?_, ?_⟩⟩
      · exact fun n => mem_numbers_enterParts
      · exact fun p => mem_values_enterParts
  · intro α step acc keyFront answers front last hdecode hqueue hfront hlast
    have hhorizon := Disturbed.length_le_horizon hdecode hqueue
    rw [List.length_append, List.length_singleton] at hhorizon
    have hmarkers : ∀ m ∈ (none : Option (Value × Option Value)), AreMarkers m := by simp
    obtain ⟨asked, c', hwalk, htrace, hasked⟩ := b.walkUploadsFrom_shown keyFront hmarkers acc
      hhorizon (Disturbed.shows_of_queue hdecode hqueue) hfront hlast
    refine ⟨asked, c', ?_, htrace, hasked⟩
    simp only [walkUploads, Run.execute_bind, Run.execute_get]
    exact hwalk

namespace Sample

/-- Two pages of parts, with two entries for the second part. -/
def partAnswers : List Value :=
  [.object [("Parts", .list [.object [("PartNumber", .int 2), ("Size", .int 1)],
      .object [("PartNumber", .int 1)]]), ("IsTruncated", .bool true),
      ("NextPartNumberMarker", .int 2)],
    .object [("Parts", .list [.object [("PartNumber", .int 2), ("Size", .int 5)]])]]

/-- A page of one upload, and an empty one that does not tell where the next one is. -/
def uploadAnswers : List Value :=
  [.object [("Uploads", .list [.object [("Key", .text "a"), ("UploadId", .text "u1")]]),
      ("IsTruncated", .bool true), ("NextKeyMarker", .text "a")],
    .object [("IsTruncated", .bool true), ("NextKeyMarker", .text "")]]

def paged : Context (Disturbed Store) where
  service := ⟨Store.empty 0, [(.listParts, partAnswers.map Disturbance.answering),
    (.listUploads, uploadAnswers.map Disturbance.answering)]⟩
  pool := ⟨1, Nat.one_pos, none, [], #[]⟩

def bucket : Bucket := ⟨"bucket", 1000⟩

end Sample

/-- The later entry of the second part counts.  Of the uploads one was told of before the listing
breaks off. -/
theorem pages_with_repeated_part_and_no_end :
    (∃ parts c',
      (Sample.bucket.parts ⟨"u1", "bucket", "a"⟩).execute Sample.paged = (.ok parts, c') ∧
      (parts.Pairwise fun p q => p.number < q.number) ∧
      (∀ n, n ∈ parts.map Part.number ↔ n = 1 ∨ n = 2) ∧ (⟨2, "", 5⟩ : Part) ∈ parts) ∧
    ∃ c', (Sample.bucket.walkUploads "" (fun n _ => .ok (.yield (n + 1))) 0).execute Sample.paged =
        (.error (.storage .noKeyMarker), c') ∧
      c'.trace = [.sent (.listUploads "bucket" none none none),
        .sent (.listUploads "bucket" none (some (.text "a")) none)] := by
  obtain ⟨hparts, huploads, -⟩ := Sample.bucket.put_together_from_pages Sample.paged
  constructor
  · obtain ⟨result, c', hrun, -, -, hresult⟩ := hparts ⟨"u1", "bucket", "a"⟩ Sample.partAnswers
      [⟨[⟨2, "", 1⟩, ⟨1, "", 0⟩], true, some 2⟩] ⟨[⟨2, "", 5⟩], false, none⟩
      (.cons rfl (.cons rfl .nil)) (List.prefix_refl _) (by decide) rfl
    obtain ⟨parts, rfl, hascending, hnumbers, hlatest⟩ := hresult rfl
    refine ⟨parts, c', hrun, hascending, fun n => (hnumbers n).trans ?_, (hlatest _).mpr ?_⟩
    · simp only [List.flatMap_cons, List.cons_append, List.map_cons, List.mem_cons, List.nil_append,
        List.flatMap_nil, List.append_nil, List.map_nil, List.not_mem_nil, or_false]
      omega
    · exact ⟨[⟨2, "", 1⟩, ⟨1, "", 0⟩], [], rfl, by simp⟩
  · obtain ⟨asked, c', hrun, htrace, hasked⟩ := huploads Nat (fun n _ => .ok (.yield (n + 1))) 0 ""
      Sample.uploadAnswers [⟨[⟨"a", "u1", .null⟩], true, some (.text "a"), none⟩]
      ⟨[], true, none, none⟩ (.cons rfl (.cons rfl .nil)) (List.prefix_refl _) (by decide) rfl
    have hsecond : 1 < asked := (hasked 1).mpr ⟨le_rfl, 1, rfl⟩
    have hthird : ¬ 2 < asked := fun h => absurd ((hasked 2).mp h).1 (by decide)
    obtain rfl : asked = 2 := by omega
    exact ⟨c', hrun, htrace⟩

end Bucket

end ResumableStorage
