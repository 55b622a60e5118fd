/-
  ResumableStorage/Proofs/Client/Listings.lean
  ============================================
  **Listings that agree** — what is found by walking over a listing of a whole bucket: the
  upload of a key and its parts, the uploads below a front, the objects below a front.

  A listing may tell of everything in the bucket, and pages may end anywhere in it; what
  is found in the end depends on nothing but the region.
-/
import ResumableStorage.Proofs.Client.Agreement
import ResumableStorage.Proofs.Client.Walks

namespace ResumableStorage

/-! ## 1. Uploads in flight -/

namespace Store

variable {region : Region} {sharp : Prop} {s t : Store} {key : String}

/-- The uploads in flight at exactly this key, in the order of a listing. -/
def openAt (s : Store) (key : String) : List StoredUpload :=
  s.inFlight.filter fun u => u.key = key

theorem inFlight_filter_perm (s : Store) (p : Region) :
    (s.inFlight.filter fun u => p u.key).Perm
      ((s.uploadsIn p).filter fun u => u.status = .inFlight) := by
  have hperm := (List.mergeSort_perm (s.uploads.filter (·.status = .inFlight)) fun a b =>
    a.key < b.key || (a.key = b.key && a.id ≤ b.id)).filter fun u => p u.key
  apply hperm.trans
  rw [uploadsIn, List.filter_filter, List.filter_filter]
  apply List.Perm.of_eq
  apply List.filter_congr
  intro u _
  exact Bool.and_comm _ _

/-- In the sharp sense both stores list the same uploads in flight at keys of the region. -/
theorem Alike.inFlight_filter_eq (h : s.Alike region sharp t) (hsharp : sharp) {p : Region}
    (hp : ∀ key, p key = true → region key = true) :
    s.inFlight.filter (fun u => p u.key) = t.inFlight.filter fun u => p u.key := by
  have hregion : s.inFlight.filter (fun u => region u.key) =
      t.inFlight.filter fun u => region u.key := by
    have hperm := s.inFlight_filter_perm region
    rw [(h.sharply hsharp).2] at hperm
    apply (hperm.trans (t.inFlight_filter_perm region).symm).eq_of_pairwise
    · intro u v _ _ huv hvu
      exact absurd hvu (StoredUpload.Precedes.asymm u v huv)
    · exact h.left.ids.inFlight_ascending.filter _
    · exact h.right.ids.inFlight_ascending.filter _
  have hsub : ∀ s : Store, s.inFlight.filter (fun u => p u.key) =
      (s.inFlight.filter fun u => region u.key).filter fun u => p u.key := by
    intro s
    rw [List.filter_filter]
    apply List.filter_congr
    intro u _
    rcases hkey : p u.key with _ | _
    · rfl
    · simp [hp u.key hkey]
  rw [hsub, hsub, hregion]

/-- The uploads of the region that stand for each other. -/
theorem Alike.forall₂_paired (h : s.Alike region sharp t) :
    List.Forall₂ (fun u v => u.Same v ∧ (u.id, v.id) ∈ pairing region s t)
      (s.uploadsIn region) (t.uploadsIn region) := by
  apply List.forall₂_iff_zip.mpr
  refine ⟨h.length_eq, ?_⟩
  intro u v hmem
  refine ⟨h.same_of_mem_zip hmem, ?_⟩
  rw [pairing_eq]
  exact List.mem_map_of_mem (f := fun p => (p.1.id, p.2.id)) hmem

/-- It is in flight at exactly this key. -/
def isOpenAt (key : String) (u : StoredUpload) : Bool :=
  decide (u.status = .inFlight) && decide (u.key = key)

theorem openAt_perm (s : Store) (hkey : region key = true) :
    (s.openAt key).Perm ((s.uploadsIn region).filter (isOpenAt key)) := by
  apply (s.inFlight_filter_perm fun other => other = key).trans
  rw [uploadsIn, uploadsIn, List.filter_filter, List.filter_filter]
  apply List.Perm.of_eq
  apply List.filter_congr
  intro u _
  by_cases hu : u.key = key
  · simp [isOpenAt, hu, hkey]
  · simp [isOpenAt, hu]

theorem length_openAt (s : Store) (key : String) :
    (s.openAt key).length = (s.uploads.filter (isOpenAt key)).length := by
  have hall : s.uploadsIn (fun _ => true) = s.uploads := List.filter_true _
  have hperm : (s.openAt key).Perm ((s.uploadsIn fun _ => true).filter (isOpenAt key)) :=
    s.openAt_perm rfl
  rw [hperm.length_eq, hall]

theorem Alike.forall₂_open (h : s.Alike region sharp t) (key : String) :
    List.Forall₂ (fun u v => u.Same v ∧ (u.id, v.id) ∈ pairing region s t)
      ((s.uploadsIn region).filter (isOpenAt key)) ((t.uploadsIn region).filter (isOpenAt key)) := by
  apply List.rel_filter ?_ h.forall₂_paired
  rintro u v ⟨huv, -⟩
  simp only [isOpenAt, huv.status, huv.key]

/-- As many uploads are in flight at the key in the one store as in the other. -/
theorem Alike.length_openAt (h : s.Alike region sharp t) (hkey : region key = true) :
    (s.openAt key).length = (t.openAt key).length :=
  (s.openAt_perm hkey).length_eq.trans
    ((h.forall₂_open key).length_eq.trans (t.openAt_perm hkey).length_eq.symm)

/-- The first upload in flight at a key is the same in both stores, when there is no more than one
or identifiers do not differ. -/
theorem Alike.openAt_cases (h : s.Alike region sharp t) (hkey : region key = true)
    (hone : sharp ∨ (s.openAt key).length ≤ 1) :
    ((s.openAt key).head? = none ∧ (t.openAt key).head? = none) ∨
      ∃ u v, (s.openAt key).head? = some u ∧ (t.openAt key).head? = some v ∧ u.Same v ∧
        u.key = key ∧ key ≠ "" ∧ (u.id, v.id) ∈ pairing region s t := by
  have hknown : ∀ {u : StoredUpload}, u ∈ s.openAt key → u ∈ s.uploads ∧ u.key = key := by
    intro u hu
    obtain ⟨hmem, hu⟩ := List.mem_filter.mp hu
    exact ⟨(mem_inFlight.mp hmem).1, of_decide_eq_true hu⟩
  have hpaired := h.forall₂_paired
  rcases hone with hsharp | hone
  · have hsame : s.openAt key = t.openAt key :=
      h.inFlight_filter_eq hsharp (p := fun other => other = key) fun other hother =>
        of_decide_eq_true hother ▸ hkey
    rcases hhead : (s.openAt key).head? with _ | u
    · exact .inl ⟨rfl, hsame ▸ hhead⟩
    · obtain ⟨hmem, rfl⟩ := hknown (List.mem_of_head? hhead)
      have hin := mem_uploadsIn.mpr ⟨hmem, hkey⟩
      refine .inr ⟨u, u, rfl, hsame ▸ hhead, ⟨rfl, rfl, rfl, rfl⟩, rfl, h.left.keys u hmem, ?_⟩
      rw [(h.sharply hsharp).2] at hpaired
      rw [(h.sharply hsharp).2] at hin
      exact (List.forall₂_same.mp hpaired u hin).2
  · have hrelated := h.forall₂_open key
    have hleft := s.openAt_perm hkey
    have hright := t.openAt_perm hkey
    revert hleft hright hrelated
    generalize (s.uploadsIn region).filter _ = l
    generalize (t.uploadsIn region).filter _ = m
    intro hrelated hleft hright
    cases hrelated with
    | nil =>
      rw [List.perm_nil.mp hleft, List.perm_nil.mp hright]
      exact .inl ⟨rfl, rfl⟩
    | @cons u v l m huv hrest =>
      have hl : l = [] := by
        rw [hleft.length_eq, List.length_cons] at hone
        exact List.length_eq_zero_iff.mp (by omega)
      subst hl
      cases hrest
      rw [List.perm_singleton.mp hleft, List.perm_singleton.mp hright]
      obtain ⟨hmem, hu⟩ := hknown (u := u) (by rw [List.perm_singleton.mp hleft]; simp)
      exact .inr ⟨u, v, rfl, rfl, huv.1, hu, hu ▸ h.left.keys u hmem, huv.2⟩

end Store

/-! ## 2. The upload of a key -/

namespace Bucket

open Run

variable {region : Region} {sharp : Prop} {pairs : List (String × String)} {s s' : Session}
  {c d : Context (Disturbed Store)} {key : String}

theorem findUpload_execute (b : Bucket) (hcalm : c.service.IsCalm) (hregular : c.store.Regular)
    (key : String) : ∃ c', (b.findUpload key).execute c =
        (.ok ((c.store.openAt key).head?.map StoredUpload.entry), c') ∧
      c.Leads c' ∧ c'.store = c.store := by
  have hkeys : ∀ u ∈ c.store.listed (Client.nonEmpty key),
      u.key ≠ "" ∨ ∀ acc, ∃ a, stopAt key acc u.entry = .ok (.done a) :=
    fun u hu => .inl (hregular.keys u (Store.mem_listed.mp hu).1.1)
  obtain ⟨c', hwalk, hstore⟩ :=
    b.walkUploads_eq key (hcalm.calmFor _) hregular.ids hregular.pages hkeys none
  refine ⟨c', ?_, b.walkUploads_leads key none hcalm.failsOnly hwalk, hstore⟩
  have hfind : ((c.store.listed (Client.nonEmpty key)).map StoredUpload.entry).find?
      (fun u => u.key = key) = (c.store.openAt key).head?.map StoredUpload.entry := by
    rw [List.find?_map, Store.openAt, List.head?_filter, Store.listed, List.find?_filter]
    congr 2
    funext u
    simp only [Function.comp, StoredUpload.entry]
    by_cases hkey : u.key = key
    · subst hkey
      by_cases hempty : u.key = ""
      · simp [hempty, Client.nonEmpty, Option.filter, Text.startsWith_empty]
      · simp [hempty, Client.nonEmpty, Option.filter, Text.startsWith_self]
    · simp [hkey]
  rw [← hfind, ← walked_stopAt]
  exact hwalk

/-- The entries are of one key of the region, and their uploads stand for each other. -/
def Found (region : Region) (key : String) : Related (Option InFlight) (Option InFlight) :=
  fun pairs u v => (u = none ∧ v = none) ∨ ∃ a b, u = some a ∧ v = some b ∧ key ≠ "" ∧
    region key = true ∧ (a.uploadId, b.uploadId) ∈ pairs

theorem findUpload_agree (b : Bucket) (hcd : c.Alike region sharp d) (hkey : region key = true)
    (hone : sharp ∨ (c.store.openAt key).length ≤ 1) :
    AgreeAt region sharp (Found region key) (b.findUpload key) (b.findUpload key) c d := by
  obtain ⟨c', hrun, hleads, hstore⟩ := b.findUpload_execute hcd.left hcd.stores.left key
  obtain ⟨d', hrun', hleads', hstore'⟩ := b.findUpload_execute hcd.right hcd.stores.right key
  rw [AgreeAt, hrun, hrun']
  refine ⟨⟨?_, hleads, hleads'⟩, .returned ?_⟩
  · rw [hstore, hstore']
    exact hcd.stores.together
  · rw [Context.pairs, hstore, hstore']
    rcases hcd.stores.openAt_cases hkey hone with ⟨hu, hv⟩ | ⟨u, v, hu, hv, -, -, hne, hpair⟩
    · rw [hu, hv]
      exact .inl ⟨rfl, rfl⟩
    · rw [hu, hv]
      exact .inr ⟨u.entry, v.entry, rfl, rfl, hne, hkey, hpair⟩

/-! ## 3. Parts -/

/-- Parts of an upload that is not in flight are not listed. -/
theorem parts_refused (b : Bucket) (hcalm : c.service.IsCalm)
    (hu : c.store.upload? s.key s.uploadId = none) :
    ∃ c', (b.parts s).execute c = (.error (.storage (.failed .listParts
        (Store.missing "ListParts" "NoSuchUpload"))), c') ∧ c.Leads c' ∧ c'.store = c.store := by
  obtain ⟨n, hn⟩ : ∃ n, Service.horizon c.service = n + 1 :=
    Nat.exists_eq_succ_of_ne_zero (Nat.ne_zero_of_lt (horizon_gt c))
  have hdecodes : (Client.listParts s b.partPageSize 0 : Run (Disturbed Store) PartPage).Decodes
      .listParts (.listParts s.bucket s.key s.uploadId b.partPageSize 0)
      fun v => (PartPage.decode v).mapError .malformed :=
    decodes_send_bind fun _ c => execute_decoded _ c
  have heffect : c.store.effect (.listParts s.bucket s.key s.uploadId b.partPageSize 0) =
      .error (Store.missing "ListParts" "NoSuchUpload") := by
    simp only [Store.effect, Store.usable, hu]
    rfl
  obtain ⟨hrefused, hstore⟩ := hcalm.answer_refused heffect
  have hanswer : (c.exchange (.listParts s.bucket s.key s.uploadId b.partPageSize 0)).answer =
      .error (Store.missing "ListParts" "NoSuchUpload") := hrefused
  refine ⟨c.asked (.listParts s.bucket s.key s.uploadId b.partPageSize 0), ?_,
    ⟨Disturbed.Within.answer hcalm.failsOnly _, fun h => h.answer _, rfl⟩, hstore⟩
  simp only [parts, execute_bind, execute_get, hn, partsFrom, hdecodes c,
    Exchange.decoded_of_error hanswer]

theorem parts_agree (b : Bucket) (h : s.Tied region pairs s') :
    Agree region sharp pairs .equal (b.parts s) (b.parts s') := by
  intro c d hcd hpairs
  have hupload := hcd.stores.upload?_cases (hpairs h.pair) s.key
  rcases hupload with ⟨hu, hv⟩ | ⟨u, v, hu, hv, huv⟩
  · rw [h.key] at hv
    obtain ⟨c', hrun, hleads, hstore⟩ := b.parts_refused hcd.left hu
    obtain ⟨d', hrun', hleads', hstore'⟩ := b.parts_refused hcd.right hv
    rw [AgreeAt, hrun, hrun']
    refine ⟨⟨?_, hleads, hleads'⟩, .failed _⟩
    rw [hstore, hstore']
    exact hcd.stores.together
  · rw [h.key] at hv
    obtain ⟨c', hrun, hleads, hstore⟩ := b.parts_execute hcd.left hu
    obtain ⟨d', hrun', hleads', hstore'⟩ := b.parts_execute hcd.right hv
    rw [AgreeAt, hrun, hrun', huv.parts]
    refine ⟨⟨?_, hleads, hleads'⟩, .same _⟩
    rw [hstore, hstore']
    exact hcd.stores.together

/-! ## 4. Sessions -/

/-- The sessions are tied, and have the same parts. -/
def Continued (region : Region) (key : String) : Related (Session × List Part) (Session × List Part) :=
  fun pairs p q => p.1.Tied region pairs q.1 ∧ p.1.key = key ∧ p.2 = q.2

theorem resume_agree (b : Bucket) (hcd : c.Alike region sharp d) (hkey : region key = true)
    (hone : sharp ∨ (c.store.openAt key).length ≤ 1) :
    AgreeAt region sharp (Continued region key) (b.resume key) (b.resume key) c d := by
  unfold resume
  apply AgreeAt.bind (Q := Continued region key) hcd
  · apply AgreeAt.notFoundAs hcd
    apply (b.findUpload_agree hcd hkey hone).bind hcd
    intro pairs u v hsub hfound
    rcases hfound with ⟨rfl, rfl⟩ | ⟨u, v, rfl, rfl, hne, -, hpair⟩
    · exact agree_throw _
    · have htied : Session.Tied region pairs ⟨u.uploadId, b.name, key⟩ ⟨v.uploadId, b.name, key⟩ :=
        ⟨rfl, rfl, hkey, hne, hpair⟩
      apply (b.parts_agree htied).bind
      intro pairs' p q hsub' hpq
      exact agree_pure fun pairs'' hsub'' => ⟨htied.of_subset fun _ h => hsub'' (hsub' h), rfl, hpq⟩
  · rintro pairs ⟨s, p⟩ ⟨s', q⟩ hsub ⟨htied, rfl, hpq⟩
    apply (agree_report _ _).bind_equal
    intro _
    exact agree_pure fun pairs' hsub' => ⟨htied.of_subset hsub', rfl, hpq⟩

theorem session_agree (b : Bucket) {append : Bool} (hcd : c.Alike region sharp d)
    (hkey : region key = true)
    (hone : append = true → sharp ∨ (c.store.openAt key).length ≤ 1)
    (hfresh : append = false → key ≠ "") :
    AgreeAt region sharp (Continued region key) (b.session key append) (b.session key append) c d := by
  unfold session
  cases append with
  | true => exact b.resume_agree hcd hkey (hone rfl)
  | false =>
    have hcreate : Agree region sharp (c.pairs region d) (Continued region key)
        (b.start key : Run (Disturbed Store) _) (b.start key) := by
      apply (Client.createUpload_agree hkey (hfresh rfl) b.name opaqueContent).bind
      rintro pairs s s' hsub ⟨htied, rfl⟩
      exact agree_pure fun pairs' hsub' => ⟨htied.of_subset hsub', rfl, rfl⟩
    exact hcreate c d hcd fun _ h => h

/-! ## 5. The uploads below a front -/

section

variable {α : Type} {step : α → InFlight → Except Error (ForInStep α)} {p : InFlight → Bool}

/-- Entries that a step passes over do not matter to a walk. -/
theorem walked_filter (hskip : ∀ acc u, p u = false → step acc u = .ok (.yield acc)) (acc : α)
    (entries : List InFlight) :
    walked step acc (entries.filter p) = walked step acc entries := by
  have hpage : walkPage step acc (entries.filter p) = walkPage step acc entries := by
    induction entries generalizing acc with
    | nil => rfl
    | cons u rest ih =>
      rcases hp : p u with _ | _
      · rw [List.filter_cons_of_neg (by simp [hp]), ih]
        simp only [walkPage, hskip acc u hp]
        rfl
      · rw [List.filter_cons_of_pos hp]
        simp only [walkPage]
        rcases step acc u with e | acc | acc
        · rfl
        · rfl
        · exact ih acc
  rw [walked, hpage, walked]

/-- The step that keeps the entries which satisfy a test. -/
def keepIf (test : InFlight → Except Error Bool) (acc : List InFlight) (u : InFlight) :
    Except Error (ForInStep (List InFlight)) := do
  return .yield (if ← test u then acc ++ [u] else acc)

/-- A test that does not fail keeps the uploads that it says. -/
theorem walked_keepIf {test : InFlight → Except Error Bool} {q : StoredUpload → Bool}
    (htest : ∀ u : StoredUpload, test u.entry = .ok (q u)) (acc : List InFlight)
    (l : List StoredUpload) : walked (keepIf test) acc (l.map StoredUpload.entry) =
      .ok (acc ++ (l.filter q).map StoredUpload.entry) := by
  induction l generalizing acc with
  | nil => simp [walked, walkPage]
  | cons u rest ih =>
    have hrest := ih (if q u then acc ++ [u.entry] else acc)
    simp only [List.map_cons, walked, walkPage, keepIf, htest u, bind, Except.bind, pure,
      Except.pure] at hrest ⊢
    rw [hrest, List.filter_cons]
    split <;> simp

theorem mem_of_walked_keepIf {test : InFlight → Except Error Bool} {acc kept : List InFlight}
    {entries : List InFlight} (h : walked (keepIf test) acc entries = .ok kept) {u : InFlight}
    (hu : u ∈ kept) : u ∈ acc ∨ u ∈ entries := by
  induction entries generalizing acc with
  | nil =>
    cases h
    exact .inl hu
  | cons v rest ih =>
    rcases htest : test v with e | keep
    · simp [walked, walkPage, keepIf, htest, bind, Except.bind] at h
    · have hrest : walked (keepIf test) (if keep then acc ++ [v] else acc) rest = .ok kept := by
        simpa [walked, walkPage, keepIf, htest, bind, Except.bind, pure, Except.pure] using h
      rcases ih hrest with hacc | hrest
      · cases keep with
        | false => exact .inl hacc
        | true =>
          rcases List.mem_append.mp hacc with hacc | hv
          · exact .inl hacc
          · rw [List.mem_singleton.mp hv]
            exact .inr List.mem_cons_self
      · exact .inr (List.mem_cons_of_mem _ hrest)

end

/-- A test that no upload satisfies but those below the front sees only these. -/
theorem uploadsWhere_execute (b : Bucket) (hcalm : c.service.IsCalmFor .listUploads)
    (hregular : c.store.Regular) {front : String} {test : InFlight → Except Error Bool}
    (htest : ∀ u : InFlight, Text.startsWith u.key front = false → test u = .ok false) :
    ∃ c', (b.uploadsWhere front test).execute c = (walked (keepIf test) []
        ((c.store.inFlight.filter fun u => Text.startsWith u.key front).map StoredUpload.entry), c') ∧
      c'.store = c.store := by
  have hkeys : ∀ u ∈ c.store.listed (Client.nonEmpty front),
      u.key ≠ "" ∨ ∀ acc, ∃ a, keepIf test acc u.entry = .ok (.done a) :=
    fun u hu => .inl (hregular.keys u (Store.mem_listed.mp hu).1.1)
  obtain ⟨c', hwalk, hstore⟩ :=
    b.walkUploads_eq front hcalm hregular.ids hregular.pages hkeys []
  refine ⟨c', ?_, hstore⟩
  have hskip : ∀ (acc : List InFlight) (u : InFlight), Text.startsWith u.key front = false →
      keepIf test acc u = .ok (.yield acc) := by
    intro acc u hu
    rw [keepIf, htest u hu]
    rfl
  have hlisted : ((c.store.listed (Client.nonEmpty front)).map StoredUpload.entry).filter
      (fun u => Text.startsWith u.key front) =
      (c.store.inFlight.filter fun u => Text.startsWith u.key front).map StoredUpload.entry := by
    rw [List.filter_map, Store.listed, List.filter_filter]
    congr 1
    apply List.filter_congr
    intro u _
    simp only [Function.comp, StoredUpload.entry]
    rcases hu : Text.startsWith u.key front with _ | _
    · rfl
    · by_cases hempty : front = ""
      · simp [hempty, Client.nonEmpty, Option.filter, Text.startsWith_empty]
      · simp [hempty, Client.nonEmpty, Option.filter, hu]
  rw [← hlisted, walked_filter hskip]
  exact hwalk

/-- Equal lists of entries whose uploads are known in the region. -/
def Known (region : Region) : Related (List InFlight) (List InFlight) :=
  fun pairs l m => l = m ∧ ∀ u ∈ l, region u.key = true ∧ (u.uploadId, u.uploadId) ∈ pairs

theorem uploadsWhere_agree (b : Bucket) (hsharp : sharp) {front : String}
    (hfront : ∀ key, Text.startsWith key front = true → region key = true)
    {test : InFlight → Except Error Bool}
    (htest : ∀ u : InFlight, Text.startsWith u.key front = false → test u = .ok false) :
    Agree region sharp pairs (Known region) (b.uploadsWhere front test)
      (b.uploadsWhere front test) := by
  intro c d hcd hpairs
  obtain ⟨c', hrun, hstore⟩ :=
    b.uploadsWhere_execute (hcd.left.calmFor _) hcd.stores.left htest
  obtain ⟨d', hrun', hstore'⟩ :=
    b.uploadsWhere_execute (hcd.right.calmFor _) hcd.stores.right htest
  have hleads := b.walkUploads_leads front [] hcd.left.failsOnly hrun
  have hleads' := b.walkUploads_leads front [] hcd.right.failsOnly hrun'
  rw [← hcd.stores.inFlight_filter_eq hsharp (p := fun key => Text.startsWith key front) hfront]
    at hrun'
  rw [AgreeAt, hrun, hrun', Context.pairs, hstore, hstore']
  refine ⟨⟨by rw [hstore, hstore']; exact hcd.stores.together, hleads, hleads'⟩, ?_⟩
  dsimp only
  generalize hkept : walked (keepIf test) [] _ = result
  rcases result with e | kept
  · exact .failed e
  · refine .returned ⟨rfl, ?_⟩
    intro u hu
    rcases mem_of_walked_keepIf hkept hu with hnil | hu
    · cases hnil
    · obtain ⟨v, hv, rfl⟩ := List.mem_map.mp hu
      obtain ⟨hflight, hbelow⟩ := List.mem_filter.mp hv
      have hin := Store.mem_uploadsIn.mpr ⟨(Store.mem_inFlight.mp hflight).1, hfront _ hbelow⟩
      refine ⟨hfront _ hbelow, ?_⟩
      have hpaired := hcd.stores.forall₂_paired
      rw [← (hcd.stores.sharply hsharp).2] at hpaired
      exact (List.forall₂_same.mp hpaired v hin).2

end Bucket

/-! ## 6. Objects -/

namespace Store

variable {region : Region} {sharp : Prop} {s t : Store}

theorem lookup_filter_keys {β : Type} (p : Region) (l : List (String × β)) (key : String) :
    (l.filter fun e => p e.1).lookup key = if p key then l.lookup key else none := by
  induction l with
  | nil => simp
  | cons e rest ih =>
    obtain ⟨k, b⟩ := e
    rw [List.filter_cons]
    by_cases hkey : key = k
    · subst hkey
      rcases hp : p key with _ | _
      · simpa [hp] using ih
      · simp
    · rcases hp : p k with _ | _
      · simpa [hp, List.lookup_cons, beq_false_of_ne hkey] using ih
      · simpa [hp, List.lookup_cons, beq_false_of_ne hkey] using ih

/-- A listing of what is below a front in the region tells of the same objects in both stores. -/
theorem Alike.entries_eq (h : s.Alike region sharp t) (l : Listing)
    (hfront : ∀ key, Text.startsWith key l.keyFront = true → region key = true) :
    s.entries l = t.entries l := by
  have hbelow : s.objects.entries.filter (fun e => Text.startsWith e.1 l.keyFront) =
      t.objects.entries.filter fun e => Text.startsWith e.1 l.keyFront := by
    apply Part.eq_of_lookup (s.objects.ascending.filter _) (t.objects.ascending.filter _)
    intro key
    rw [lookup_filter_keys fun key => Text.startsWith key l.keyFront,
      lookup_filter_keys fun key => Text.startsWith key l.keyFront]
    split
    · rename_i hkey
      exact h.objects key (hfront key hkey)
    · rfl
  simp only [entries, hbelow]

theorem withoutRepeats_sublist (seen : List String) (l : List Entry) :
    (withoutRepeats seen l).Sublist l := by
  induction l generalizing seen with
  | nil => exact .slnil
  | cons e rest ih =>
    cases e with
    | object key o => exact (ih seen).cons_cons _
    | front text =>
      rw [withoutRepeats]
      split
      · exact (ih seen).cons _
      · exact (ih _).cons_cons _

theorem limitObjects_sublist (n : Nat) (l : List Entry) : (limitObjects n l).Sublist l := by
  induction l generalizing n with
  | nil =>
    cases n <;> exact .slnil
  | cons e rest ih =>
    cases e with
    | front text => cases n <;> exact (ih _).cons_cons _
    | object key o =>
      cases n with
      | zero => exact (ih 0).cons _
      | succ n => exact (ih n).cons_cons _

/-- Every object that is listed is below the front. -/
theorem startsWith_of_mem_entries {l : Listing} {key : String} {o : StoredObject}
    (h : Entry.object key o ∈ s.entries l) : Text.startsWith key l.keyFront = true := by
  have hall : Entry.object key o ∈ withoutRepeats [] ((s.objects.entries.filter fun e =>
      Text.startsWith e.1 l.keyFront).map fun e => entryOf l e.1 e.2) := by
    simp only [entries] at h
    split at h
    · exact h
    · exact (limitObjects_sublist _ _).subset h
  have hmem := (withoutRepeats_sublist _ _).subset hall
  obtain ⟨e, he, hentry⟩ := List.mem_map.mp hmem
  obtain ⟨-, hbelow⟩ := List.mem_filter.mp he
  have hkey : e.1 = key := by
    simp only [entryOf] at hentry
    split at hentry
    · cases hentry
      rfl
    · split at hentry <;> cases hentry
      rfl
  rw [← hkey]
  exact hbelow

/-! ## 7. Pages of objects -/

namespace Entry

def summary? : Entry → Option ObjectSummary
  | .object key o => some ⟨key, o.content.size, .time o.modified⟩
  | .front _ => none

def front? : Entry → Option String
  | .object .. => none
  | .front text => some text

end Entry

/-- What a client makes of the entries of a listing. -/
def listingOf (es : List Entry) : ObjectListing :=
  ⟨es.filterMap Entry.summary?, es.filterMap Entry.front?⟩

theorem listingOf_append (es fs : List Entry) :
    listingOf (es ++ fs) = (listingOf es).append (listingOf fs) := by
  simp [listingOf, ObjectListing.append]

def objectFields? : Entry → Option Value
  | .object key o => some (.object [("Key", .text key), ("Size", .int o.content.size),
      ("LastModified", .time o.modified)])
  | .front _ => none

def frontFields? : Entry → Option Value
  | .object .. => none
  | .front text => some (.object [("Prefix", .text text)])

theorem decode_objectFields (es : List Entry) : (es.filterMap objectFields?).mapM
    ObjectListing.decodeObject = .ok (es.filterMap Entry.summary?) := by
  induction es with
  | nil => rfl
  | cons e rest ih =>
    cases e with
    | front text => exact ih
    | object key o =>
      change ((_ :: rest.filterMap objectFields?).mapM ObjectListing.decodeObject) = _
      rw [List.mapM_cons, ih]
      rfl

theorem decode_frontFields (es : List Entry) : (es.filterMap frontFields?).mapM
    (fun w => do return (← w.field "Prefix").display) =
      (.ok (es.filterMap Entry.front?) : Except Malformed (List String)) := by
  induction es with
  | nil => rfl
  | cons e rest ih =>
    cases e with
    | object key o => exact ih
    | front text =>
      change ((_ :: rest.filterMap frontFields?).mapM _) = _
      rw [List.mapM_cons, ih]
      rfl

theorem decodePage_pageOf (es : List Entry) :
    ObjectListing.decodePage (pageOf es) = .ok (listingOf es) := by
  have hpage : pageOf es = .object (listField "Contents" (es.filterMap objectFields?) ++
      listField "CommonPrefixes" (es.filterMap frontFields?)) := by
    refine congrArg Value.object (congrArg₂ _ (congrArg _ ?_) (congrArg _ ?_))
    · rfl
    · congr 1
      funext e
      cases e <;> rfl
  have hnone : Fields.find? (listField "CommonPrefixes" (es.filterMap frontFields?)) "Contents" =
      none := by
    rw [← List.append_nil (listField _ _), find?_listField_of_ne (by decide)]
    rfl
  have hfronts : (Fields.find? (listField "CommonPrefixes" (es.filterMap frontFields?))
      "CommonPrefixes").getD (.list []) = .list (es.filterMap frontFields?) := by
    rw [← List.append_nil (listField _ _)]
    exact find?_listField _ _ rfl
  rw [hpage]
  simp only [ObjectListing.decodePage, Value.fieldD_object, find?_listField _ _ hnone]
  rw [find?_listField_of_ne (by decide), hfronts]
  change ((es.filterMap objectFields?).mapM ObjectListing.decodeObject >>= _) = _
  rw [decode_objectFields]
  change ((es.filterMap frontFields?).mapM (fun w => do return (← w.field "Prefix").display) >>=
    fun fronts => (.ok ⟨es.filterMap Entry.summary?, fronts⟩ : Except Malformed ObjectListing)) = _
  rw [decode_frontFields]
  rfl

theorem flatten_pieces {α : Type} (bound n : Nat) (l : List α) : (pieces bound n l).flatten = l := by
  induction bound generalizing l with
  | zero => simp [pieces]
  | succ bound ih =>
    rw [pieces]
    split
    · simp
    · rw [List.flatten_cons, ih, List.take_append_drop]

/-- The pages of a listing come out as its entries, whatever the size of a page. -/
theorem foldlM_addPage (pages : List (List Entry)) (acc : ObjectListing) :
    (pages.map fun page => (.ok (pageOf page) : Page)).foldlM Client.addPage acc =
      .ok (acc.append (listingOf pages.flatten)) := by
  induction pages generalizing acc with
  | nil =>
    simp only [List.map_nil, List.foldlM_nil, List.flatten_nil, listingOf, List.filterMap_nil,
      ObjectListing.append, List.append_nil]
    rfl
  | cons page rest ih =>
    have hpage : Client.addPage acc (.ok (pageOf page)) = .ok (acc.append (listingOf page)) := by
      rw [Client.addPage, decodePage_pageOf]
      rfl
    rw [List.map_cons, List.foldlM_cons, hpage]
    change (rest.map _).foldlM Client.addPage _ = _
    rw [ih, List.flatten_cons, listingOf_append]
    simp [ObjectListing.append]

theorem foldlM_objectPages (s : Store) (l : Listing) :
    (s.objectPages l).foldlM Client.addPage ⟨[], []⟩ = .ok (listingOf (s.entries l)) := by
  rw [objectPages, foldlM_addPage, flatten_pieces]
  rfl

end Store

/-- The context once the pages of a listing were asked for, and given out. -/
def Context.listed (c : Context (Disturbed Store)) (l : Listing) : Context (Disturbed Store) :=
  { c with
    trace := c.trace ++ [.sent .openListing, .listed l]
    service := ((c.service.next .openListing).2.next .listObjects).2 }

namespace Context

variable {c : Context (Disturbed Store)}

@[simp] theorem listed_store (c : Context (Disturbed Store)) (l : Listing) :
    (c.listed l).store = c.store :=
  (Disturbed.next_service _ _).trans (Disturbed.next_service _ _)

theorem isCalm_listed (h : c.service.IsCalm) (l : Listing) : (c.listed l).service.IsCalm :=
  (h.next _).next _

theorem Leads.listed (h : c.service.IsCalm) (l : Listing) : c.Leads (c.listed l) :=
  ⟨(isCalm_listed h l).failsOnly, fun h => isCalm_listed h l, rfl⟩

/-- A listing takes from two queues and leaves the others alone. -/
theorem listed_queue (c : Context (Disturbed Store)) (l : Listing) {kind : RequestKind}
    (hopen : kind ≠ .openListing) (hlist : kind ≠ .listObjects) :
    (c.listed l).service.queue kind = c.service.queue kind := by
  change ((c.service.next .openListing).2.next .listObjects).2.queue kind = _
  rw [Disturbed.queue_next, if_neg hlist, Disturbed.queue_next, if_neg hopen]

end Context

namespace Client

open Run

variable {region : Region} {sharp : Prop} {pairs : List (String × String)}
  {c : Context (Disturbed Store)}

/-- A listing of which nothing is disturbed tells of all entries, however they are divided into
pages. -/
theorem listObjects_execute (hopen : c.service.IsCalmFor .openListing)
    (hlist : c.service.IsCalmFor .listObjects) (bucket front : String) (delimiter : Option String)
    (maxItems : Option Int) : (listObjects bucket front delimiter maxItems).execute c =
      (.ok (Store.listingOf (c.store.entries
        ⟨bucket, front, nonEmpty delimiter, maxItems.filter (· ≠ 0)⟩)),
        c.listed ⟨bucket, front, nonEmpty delimiter, maxItems.filter (· ≠ 0)⟩) := by
  generalize hl : (⟨bucket, front, nonEmpty delimiter, maxItems.filter (· ≠ 0)⟩ : Listing) = l
  have hstore : (c.service.next .openListing).2.service = c.store :=
    Disturbed.next_service c.service .openListing
  have hanswer : Service.answer .openListing c.service =
      (.ok .handle, (c.service.next .openListing).2) := by
    rw [Disturbed.answer_of_next hopen.next_eq_none]
    exact congrArg (fun s => (_, ({ (c.service.next .openListing).2 with service := s } :
      Disturbed Store))) hstore.symm
  have hnext : ((c.service.next .openListing).2.next .listObjects).1 = none :=
    (hlist.of_suffix (Disturbed.queue_next_suffix _ _ _)).next_eq_none
  have hpages : Service.pages l (c.service.next .openListing).2 = (.ok (c.store.objectPages l),
      ((c.service.next .openListing).2.next .listObjects).2) := by
    rw [Disturbed.pages_of_next l hnext, hstore]
    exact congrArg (fun s => (_, ({ ((c.service.next .openListing).2.next .listObjects).2 with
      service := s } : Disturbed Store))) ((Disturbed.next_service _ _).trans hstore).symm
  simp only [listObjects, execute_bind, execute_send, hanswer, Except.mapError, hl, listPages,
    execute_record, execute_get, execute_set, execute_pure, hpages, Store.foldlM_objectPages,
    Context.listed, List.append_assoc, List.singleton_append]

/-- Equal listings of objects below a front. -/
def Below (front : String) : Related ObjectListing ObjectListing :=
  fun _ l m => l = m ∧ ∀ o ∈ l.objects, Text.startsWith o.key front = true

theorem listObjects_agree {front : String}
    (hfront : ∀ key, Text.startsWith key front = true → region key = true) (bucket : String)
    (delimiter : Option String) (maxItems : Option Int) :
    Agree region sharp pairs (Below front) (listObjects bucket front delimiter maxItems)
      (listObjects bucket front delimiter maxItems) := by
  intro c d hcd hpairs
  rw [AgreeAt, listObjects_execute (hcd.left.calmFor _) (hcd.left.calmFor _),
    listObjects_execute (hcd.right.calmFor _) (hcd.right.calmFor _),
    ← hcd.stores.entries_eq _ hfront]
  refine ⟨⟨by rw [Context.listed_store, Context.listed_store]; exact hcd.stores.together,
    .listed hcd.left _, .listed hcd.right _⟩, .returned ⟨rfl, ?_⟩⟩
  intro o ho
  obtain ⟨e, he, hsummary⟩ := List.mem_filterMap.mp ho
  cases e with
  | front text => cases hsummary
  | object key content =>
    cases hsummary
    exact Store.startsWith_of_mem_entries he

end Client

end ResumableStorage
