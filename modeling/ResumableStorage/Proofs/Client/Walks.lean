/-
  ResumableStorage/Proofs/Client/Walks.lean
  =========================================
  **Walks over listings** — with nothing disturbed a walk over the uploads of a store, or
  over the parts of one of them, sees every entry once and in order, whatever the size of
  a page, and ends before its bound.
-/
import ResumableStorage.Proofs.Client.Lookups
import ResumableStorage.Proofs.Client.Requests
import ResumableStorage.Proofs.Service.Queues

namespace ResumableStorage

/-! ## 1. Pages of uploads -/

variable {c c' : Context (Disturbed Store)} {front rest : List StoredUpload}

theorem horizon_gt (c : Context (Disturbed Store)) :
    c.store.extent < Service.horizon c.service := by
  change c.store.extent < (c.service.pending + 1) * (c.store.extent + 1)
  exact Nat.lt_of_lt_of_le (Nat.lt_succ_self _) (Nat.le_mul_of_pos_left _ (Nat.succ_pos _))

theorem Store.IdsInOrder.id_ne_empty {s : Store} (h : s.IdsInOrder) {u : StoredUpload}
    (hu : u ∈ s.uploads) : u.id ≠ "" := by
  obtain ⟨i, hi⟩ := List.mem_iff_getElem?.mp hu
  rw [h i u hi]
  intro hempty
  have hlist := congrArg String.toList hempty
  simp at hlist

/-- The markers of the last upload of a page ask for what comes behind the page. -/
theorem Store.marks_of_page {s : Store} (hids : s.IdsInOrder) {keyFront : Option String}
    (hlisted : s.listed keyFront = front ++ rest) {n : Nat} {last : StoredUpload}
    (hlast : (rest.take n).getLast? = some last) :
    Store.Marks (front ++ rest.take n) (some (.text last.key)) (Value.text last.id).given? := by
  have hin : last ∈ s.listed keyFront := by
    rw [hlisted]
    exact List.mem_append_right _ (List.mem_of_mem_take (List.mem_of_getLast? hlast))
  have hid : last.id ≠ "" := hids.id_ne_empty (Store.mem_listed.mp hin).1.1
  rw [Store.Marks, List.getLast?_append, hlast, Value.given?_text hid]
  exact ⟨rfl, rfl⟩

namespace Client

/-- A page of uploads behind the markers of those that came before. -/
theorem listUploads_page (hcalm : c.service.IsCalmFor .listUploads) (hids : c.store.IdsInOrder)
    (bucket keyFront : String) (hlisted : c.store.listed (nonEmpty keyFront) = front ++ rest)
    {keyMarker idMarker : Option Value} (hmarks : Store.Marks front keyMarker idMarker)
    (hfront : ∀ last ∈ front.getLast?, last.key ≠ "") :
    ∃ page c', (listUploads bucket keyFront keyMarker idMarker).execute c = (.ok page, c') ∧
      c'.service.IsCalmFor .listUploads ∧ c'.store = c.store ∧
      page.uploads = (rest.take c.store.uploadPageSize).map StoredUpload.entry ∧
      page.isTruncated = decide (c.store.uploadPageSize < rest.length) ∧
      (c.store.uploadPageSize < rest.length →
        ∀ last ∈ (rest.take c.store.uploadPageSize).getLast?,
          page.nextKeyMarker = (Value.text last.key).given? ∧
          page.nextIdMarker = (Value.text last.id).given?) := by
  have hgiven : Store.Marks front (keyMarker.bind Value.given?)
      (if (keyMarker.bind Value.given?).isSome then idMarker.bind Value.given? else none) := by
    unfold Store.Marks at *
    rcases hlast : front.getLast? with _ | last
    · rw [hlast] at hmarks
      simp [hmarks]
    · rw [hlast] at hmarks
      obtain ⟨rfl, rfl⟩ := hmarks
      have hmem : last ∈ c.store.uploads := by
        have hin : last ∈ c.store.listed (nonEmpty keyFront) := by
          rw [hlisted]
          exact List.mem_append_left _ (List.mem_of_getLast? hlast)
        exact (Store.mem_listed.mp hin).1.1
      simp [Value.given?_text (hfront last hlast), Value.given?_text (hids.id_ne_empty hmem)]
  obtain ⟨nextKey, nextId, hdecode, hnext⟩ := c.store.decode_uploadPageOf rest
  have heffect : c.store.effect (uploadsRequest bucket keyFront keyMarker idMarker) =
      .ok (c.store.uploadPageOf rest, c.store) := by
    simp only [uploadsRequest, Store.effect, Store.uploadPage_eq hids hlisted hgiven]
    rfl
  obtain ⟨hrun, hstore⟩ := (listUploads_decodes bucket keyFront keyMarker idMarker).granted
    hcalm.next_eq_none heffect
  rw [hdecode] at hrun
  exact ⟨_, _, hrun, hcalm.answer _, hstore, rfl, rfl, hnext⟩

end Client

namespace Bucket

/-! ## 2. Walks -/

variable {α : Type} {step : α → InFlight → Except Error (ForInStep α)}

/-- What a walk over these entries comes to. -/
def walked (step : α → InFlight → Except Error (ForInStep α)) (acc : α) (entries : List InFlight) :
    Except Error α :=
  match walkPage step acc entries with
  | .error e => .error e
  | .ok (.done acc) => .ok acc
  | .ok (.yield acc) => .ok acc

theorem walkPage_append (acc : α) (l l' : List InFlight) : walkPage step acc (l ++ l') =
    match walkPage step acc l with
    | .error e => .error e
    | .ok (.done acc) => .ok (.done acc)
    | .ok (.yield acc) => walkPage step acc l' := by
  induction l generalizing acc with
  | nil => rfl
  | cons u rest ih =>
    simp only [List.cons_append, walkPage]
    rcases step acc u with e | acc | acc
    · rfl
    · rfl
    · exact ih acc

/-- A walk does not get past an entry at which it is done. -/
theorem not_done_of_walkPage {u : InFlight} {l : List InFlight} (hu : u ∈ l) {acc acc' : α}
    (h : walkPage step acc l = .ok (.yield acc')) : ¬ ∀ acc, ∃ a, step acc u = .ok (.done a) := by
  induction l generalizing acc with
  | nil => cases hu
  | cons v rest ih =>
    intro hdone
    simp only [walkPage] at h
    rcases hstep : step acc v with e | a | a
    · rw [hstep] at h
      cases h
    · rw [hstep] at h
      cases h
    · rw [hstep] at h
      rcases List.mem_cons.mp hu with rfl | hu
      · obtain ⟨a', ha'⟩ := hdone acc
        rw [hstep] at ha'
        cases ha'
      · exact ih hu h hdone

/-- A walk over the uploads behind a front sees all that follow it. -/
theorem walkUploadsFrom_eq (b : Bucket) {keyFront : String} (n : Nat) (hn : rest.length < n)
    (hcalm : c.service.IsCalmFor .listUploads) (hids : c.store.IdsInOrder)
    (hsize : 0 < c.store.uploadPageSize)
    (hlisted : c.store.listed (Client.nonEmpty keyFront) = front ++ rest)
    {keyMarker idMarker : Option Value} (hmarks : Store.Marks front keyMarker idMarker)
    (hfront : ∀ last ∈ front.getLast?, last.key ≠ "")
    (hkeys : ∀ u ∈ rest, u.key ≠ "" ∨ ∀ acc, ∃ a, step acc u.entry = .ok (.done a)) (acc : α) :
    ∃ c', (b.walkUploadsFrom keyFront step n keyMarker idMarker acc).execute c =
        (walked step acc (rest.map StoredUpload.entry), c') ∧ c'.store = c.store := by
  induction n generalizing c front rest keyMarker idMarker acc with
  | zero => omega
  | succ n ih =>
    obtain ⟨page, c₁, hlist, hcalm₁, hstore, huploads, htruncated, hnext⟩ :=
      Client.listUploads_page hcalm hids b.name keyFront hlisted hmarks hfront
    have hsplit : walkPage step acc (rest.map StoredUpload.entry) =
        match walkPage step acc page.uploads with
        | .error e => .error e
        | .ok (.done acc) => .ok (.done acc)
        | .ok (.yield acc) =>
          walkPage step acc ((rest.drop c.store.uploadPageSize).map StoredUpload.entry) := by
      rw [huploads, ← walkPage_append, ← List.map_append, List.take_append_drop]
    simp only [walkUploadsFrom, Run.execute_bind, hlist, walked, hsplit]
    rcases hpage : walkPage step acc page.uploads with e | a | a
    · exact ⟨c₁, rfl, hstore⟩
    · exact ⟨c₁, rfl, hstore⟩
    simp only [htruncated]
    by_cases hlt : c.store.uploadPageSize < rest.length
    · -- the last upload of the page has a key, or the walk would have ended with it
      obtain ⟨last, hlast⟩ := exists_getLast?_take hsize hlt
      have hmem : last ∈ rest.take c.store.uploadPageSize := List.mem_of_getLast? hlast
      have hkey : last.key ≠ "" := by
        rcases hkeys last (List.mem_of_mem_take hmem) with hkey | hdone
        · exact hkey
        · rw [huploads] at hpage
          exact absurd hdone (not_done_of_walkPage (List.mem_map_of_mem hmem) hpage)
      obtain ⟨hnextKey, hnextId⟩ := hnext hlt last hlast
      simp only [decide_eq_true hlt, Bool.not_true, Bool.false_eq_true, if_false, hnextKey,
        Value.given?_text hkey, hnextId]
      have hrest : (rest.drop c.store.uploadPageSize).length < n := by
        rw [List.length_drop]
        omega
      have hlisted' : c₁.store.listed (Client.nonEmpty keyFront) =
          (front ++ rest.take c.store.uploadPageSize) ++ rest.drop c.store.uploadPageSize := by
        rw [hstore, hlisted, List.append_assoc, List.take_append_drop]
      have hfront' : ∀ u ∈ (front ++ rest.take c.store.uploadPageSize).getLast?, u.key ≠ "" := by
        rw [List.getLast?_append, hlast]
        rintro _ ⟨⟩
        exact hkey
      obtain ⟨c', hwalk, hstore'⟩ := ih hrest hcalm₁ (hstore ▸ hids) (hstore ▸ hsize) hlisted'
        (Store.marks_of_page hids hlisted hlast) hfront'
        (fun u hu => hkeys u (List.mem_of_mem_drop hu)) a
      exact ⟨c', hwalk, hstore'.trans hstore⟩
    · have hall : rest.drop c.store.uploadPageSize = [] := List.drop_eq_nil_of_le (by omega)
      simp only [decide_eq_false hlt, Bool.not_false, if_true, hall]
      exact ⟨c₁, rfl, hstore⟩

/-- A walk over the uploads of a store sees all that are listed. -/
theorem walkUploads_eq (b : Bucket) (keyFront : String)
    (hcalm : c.service.IsCalmFor .listUploads) (hids : c.store.IdsInOrder)
    (hsize : 0 < c.store.uploadPageSize)
    (hkeys : ∀ u ∈ c.store.listed (Client.nonEmpty keyFront),
      u.key ≠ "" ∨ ∀ acc, ∃ a, step acc u.entry = .ok (.done a)) (acc : α) :
    ∃ c', (b.walkUploads keyFront step acc).execute c =
        (walked step acc ((c.store.listed (Client.nonEmpty keyFront)).map StoredUpload.entry), c') ∧
      c'.store = c.store := by
  have hlength : (c.store.listed (Client.nonEmpty keyFront)).length ≤ c.store.extent := by
    have hle := List.length_filter_le (fun u : StoredUpload => !c.store.honourFront ||
      Text.startsWith u.key ((Client.nonEmpty keyFront).getD "")) c.store.inFlight
    have hle' := List.length_filter_le (fun u : StoredUpload => decide (u.status = .inFlight))
      c.store.uploads
    have hsorted : c.store.inFlight.length =
        (c.store.uploads.filter fun u => decide (u.status = .inFlight)).length :=
      List.length_mergeSort _
    rw [Store.listed, Store.extent]
    omega
  have hmarks : Store.Marks [] none none := rfl
  obtain ⟨c', hwalk, hstore⟩ := b.walkUploadsFrom_eq (Service.horizon c.service)
    (Nat.lt_of_le_of_lt hlength (horizon_gt c)) hcalm hids hsize (List.nil_append _).symm hmarks
    (by simp) hkeys acc
  refine ⟨c', ?_, hstore⟩
  simp only [walkUploads, Run.execute_bind, Run.execute_get]
  exact hwalk

/-- A walk over uploads changes nothing but the plan. -/
theorem walkUploads_leads (b : Bucket) (keyFront : String) (acc : α)
    (hf : c.service.FailsOnly) {result : Except Error α}
    (hrun : (b.walkUploads keyFront step acc).execute c = (result, c')) : c.Leads c' := by
  have hleads : c.Leads ((b.walkUploads keyFront step acc).execute c).2 :=
    (b.walkUploads_quiet keyFront acc).leads hf
  rwa [hrun] at hleads

end Bucket

/-! ## 3. Parts -/

/-- The parts of a table that are listed: those whose numbers are positive. -/
def Part.listed (t : Keyed Int Bytes) : List Part :=
  (t.entries.filter fun p => (0 : Int) < p.1).map Part.ofEntry

/-- What a table holds behind the last part of a page is what the page has left out. -/
theorem Part.filter_behind_page {t : Keyed Int Bytes} {front rest : List (Int × Bytes)}
    (hsplit : t.entries.filter (fun p => 0 < p.1) = front ++ rest) {n : Nat} {last : Int × Bytes}
    (hlast : (rest.take n).getLast? = some last) (hpos : 0 ≤ last.1) :
    t.entries.filter (fun p => last.1 < p.1) = rest.drop n := by
  have hfront : (front ++ rest.take n).getLast? = some last := by
    rw [List.getLast?_append, hlast]
    rfl
  have hasc : (front ++ rest.take n ++ rest.drop n).Pairwise fun a b => a.1 < b.1 := by
    rw [List.append_assoc, List.take_append_drop, ← hsplit]
    exact t.ascending.filter _
  have hpositive : t.entries.filter (fun p => last.1 < p.1) =
      (t.entries.filter fun p => 0 < p.1).filter fun p => last.1 < p.1 := by
    rw [List.filter_filter]
    apply List.filter_congr
    intro p _
    rw [← Bool.decide_and, decide_eq_decide]
    omega
  rw [hpositive, hsplit]
  conv_lhs => rw [← List.take_append_drop n rest, ← List.append_assoc]
  exact filter_above_last (fun _ _ hab => hab.asymm) hasc hfront

namespace Client

theorem listParts_page (hcalm : c.service.IsCalm) {s : Session} {u : StoredUpload}
    (hu : c.store.upload? s.key s.uploadId = some u) (maxParts marker : Int)
    {rest : List (Int × Bytes)} (hrest : u.parts.entries.filter (fun p => marker < p.1) = rest) :
    ∃ page c', (listParts s maxParts marker).execute c = (.ok page, c') ∧ c.Leads c' ∧
      c'.store = c.store ∧ page.parts.Perm ((rest.take maxParts.toNat).map Part.ofEntry) ∧
      page.isTruncated = decide (maxParts.toNat < rest.length) ∧
      (maxParts.toNat < rest.length → ∀ last ∈ (rest.take maxParts.toNat).getLast?,
        last.1 ≠ 0 → page.nextMarker = some last.1) ∧
      (maxParts ≤ 0 → page.nextMarker = none) := by
  obtain ⟨parts, next, hdecode, hperm, hnext⟩ := c.store.decode_partPage u maxParts marker hrest
  obtain ⟨c', hsend, hleads, hstore⟩ := Run.send_granted hcalm .listParts
    (r := .listParts s.bucket s.key s.uploadId maxParts marker)
    nofun (v := c.store.partPage u maxParts marker) (s := c.store) (by
      simp only [Store.effect, Store.usable, hu]
      rfl)
  refine ⟨⟨parts, decide (maxParts.toNat < rest.length), next⟩, c', ?_, hleads, hstore, hperm, rfl,
    hnext⟩
  simp only [listParts, Run.execute_bind, hsend, Run.execute_decoded, hdecode, Except.mapError]

end Client

namespace Bucket

theorem find?_enterParts_of_not_mem {table : Keyed Int Part} {parts : List Part} {n : Int}
    (hn : n ∉ parts.map (·.number)) : (enterParts table parts).find? n = table.find? n := by
  induction parts generalizing table with
  | nil => rfl
  | cons p rest ih =>
    rw [List.map_cons, List.mem_cons, not_or] at hn
    rw [enterParts, List.foldl_cons]
    exact (ih hn.2).trans (Keyed.find?_insert_of_ne _ _ hn.1)

/-- Parts with distinct numbers are all found, in whatever order they were entered. -/
theorem find?_enterParts_of_mem (table : Keyed Int Part) {parts : List Part}
    (hnodup : (parts.map (·.number)).Nodup) {p : Part} (hp : p ∈ parts) :
    (enterParts table parts).find? p.number = some p := by
  induction parts generalizing table with
  | nil => cases hp
  | cons q rest ih =>
    rw [List.map_cons, List.nodup_cons] at hnodup
    rw [enterParts, List.foldl_cons]
    rcases List.mem_cons.mp hp with rfl | hp
    · exact (find?_enterParts_of_not_mem hnodup.1).trans (Keyed.find?_insert_self _ _ _)
    · exact ih _ hnodup.2 hp

def numbered (e : Int × Bytes) : Int × Part := (e.1, Part.ofEntry e)

theorem numbered_ascending {l : List (Int × Bytes)} (h : l.Pairwise fun a b => a.1 < b.1) :
    (l.map numbered).Pairwise fun a b => a.1 < b.1 :=
  List.pairwise_map.mpr h

theorem find?_enterParts {front page : List (Int × Bytes)}
    (hasc : (front ++ page).Pairwise fun a b => a.1 < b.1) {table : Keyed Int Part}
    (htable : ∀ n, table.find? n = (front.map numbered).lookup n) {parts : List Part}
    (hperm : parts.Perm (page.map Part.ofEntry)) (n : Int) :
    (enterParts table parts).find? n = ((front ++ page).map numbered).lookup n := by
  have hnumbers : (parts.map (·.number)).Perm (page.map Prod.fst) := by
    have hmap := hperm.map Part.number
    rwa [List.map_map] at hmap
  have hpage : (page.map Prod.fst).Nodup := by
    refine List.pairwise_map.mpr (((List.pairwise_append.mp hasc).2.1).imp ?_)
    exact fun hlt => hlt.ne
  by_cases hn : n ∈ page.map Prod.fst
  · obtain ⟨e, he, rfl⟩ := List.mem_map.mp hn
    have hfind := find?_enterParts_of_mem table (hnumbers.nodup_iff.mpr hpage)
      (hperm.mem_iff.mpr (List.mem_map_of_mem he))
    refine hfind.trans (Part.lookup_eq_of_ascending (e := numbered e) (numbered_ascending hasc)
      ?_).symm
    exact List.mem_map_of_mem (List.mem_append_right _ he)
  · have hnone : (page.map numbered).lookup n = none := by
      rw [List.lookup_eq_none_iff]
      intro e he
      obtain ⟨e', he', rfl⟩ := List.mem_map.mp he
      exact bne_iff_ne.mpr fun heq => hn (heq ▸ List.mem_map_of_mem he')
    rw [find?_enterParts_of_not_mem (mt hnumbers.mem_iff.mp hn), htable, List.map_append,
      List.lookup_append, hnone, Option.or_none]

/-- The number of pages in which `n` entries are listed; one when there are none. -/
def pageCount (n size : Nat) : Nat := max 1 ((n + size - 1) / size)

theorem pageCount_of_le {n size : Nat} (hle : n ≤ size) : pageCount n size = 1 := by
  rw [pageCount]
  rcases Nat.eq_zero_or_pos size with rfl | hsize
  · simp
  · have hlt : (n + size - 1) / size < 2 := Nat.div_lt_of_lt_mul (by omega)
    omega

/-- A full page, and the pages of the rest. -/
theorem pageCount_of_lt {n size : Nat} (hsize : 0 < size) (hlt : size < n) :
    pageCount n size = pageCount (n - size) size + 1 := by
  have hsplit : n + size - 1 = (n - size + size - 1) + size := by omega
  have hrest : 1 ≤ (n - size + size - 1) / size := (Nat.one_le_div_iff hsize).mpr (by omega)
  rw [pageCount, pageCount, hsplit, Nat.add_div_right _ hsize]
  omega

/-- A walk over the parts behind a front enters all that follow it, and asks for no page more than
they fill; a part whose number is not positive is never listed. -/
theorem partsFrom_eq (b : Bucket) {s : Session} {u : StoredUpload} (hsize : 1 ≤ b.partPageSize)
    (n : Nat) {front rest : List (Int × Bytes)} (hn : rest.length < n) (hcalm : c.service.IsCalm)
    (hu : c.store.upload? s.key s.uploadId = some u)
    (hsplit : u.parts.entries.filter (fun p => 0 < p.1) = front ++ rest) {marker : Int}
    (hmarker : 0 ≤ marker)
    (hrest : u.parts.entries.filter (fun p => marker < p.1) = rest) {table : Keyed Int Part}
    (htable : ∀ n, table.find? n = (front.map numbered).lookup n) :
    ∃ table' c' xs, (b.partsFrom s n marker table).execute c = (.ok table', c') ∧ c.Leads c' ∧
      c'.store = c.store ∧ table'.values = Part.listed u.parts ∧ c.Asks c' xs ∧
      xs.length = pageCount rest.length b.partPageSize.toNat := by
  have hascending : (u.parts.entries.filter fun p => (0 : Int) < p.1).Pairwise fun a b => a.1 < b.1 :=
    u.parts.ascending.filter _
  induction n generalizing c front rest marker table with
  | zero => omega
  | succ n ih =>
    obtain ⟨page, c₁, hlist, hleads, hstore, hperm, htruncated, hnext, -⟩ :=
      Client.listParts_page hcalm hu b.partPageSize marker hrest
    have hasks : c.Asks c₁ [c.exchange (.listParts s.bucket s.key s.uploadId b.partPageSize marker)] := by
      have hdecodes := Client.listParts_decodes s b.partPageSize marker c
      rw [hlist, Prod.mk.injEq] at hdecodes
      rw [hdecodes.2]
      exact c.asks_asked _
    have hasc : (front ++ rest.take b.partPageSize.toNat ++
        rest.drop b.partPageSize.toNat).Pairwise fun a b => a.1 < b.1 := by
      rw [List.append_assoc, List.take_append_drop, ← hsplit]
      exact hascending
    have hentered := find?_enterParts (List.pairwise_append.mp hasc).1 htable hperm
    simp only [partsFrom, Run.execute_bind, hlist, htruncated]
    by_cases hlt : b.partPageSize.toNat < rest.length
    · obtain ⟨last, hlast⟩ := exists_getLast?_take (by omega) hlt
      have hmem : last ∈ rest := List.mem_of_mem_take (List.mem_of_getLast? hlast)
      have hbehind : marker < last.1 := by
        rw [← hrest] at hmem
        simpa using (List.mem_filter.mp hmem).2
      have hmore := Part.filter_behind_page hsplit hlast (by omega)
      have hsplit' : u.parts.entries.filter (fun p => 0 < p.1) =
          (front ++ rest.take b.partPageSize.toNat) ++ rest.drop b.partPageSize.toNat := by
        rw [hsplit, List.append_assoc, List.take_append_drop]
      obtain ⟨table', c', xs, hwalk, hleads', hstore', hvalues, hasks', hcount⟩ := ih
        (by rw [List.length_drop]; omega) (hleads.calm hcalm) (by rw [hstore]; exact hu) hsplit'
        (by omega) hmore hentered
      have hgiven : page.nextMarker.filter (· ≠ 0) = some last.1 := by
        rw [hnext hlt last hlast (by omega), Option.filter_some, if_pos (by simp; omega)]
      simp only [decide_eq_true hlt, Bool.not_true, Bool.false_eq_true, if_false, hgiven]
      refine ⟨table', c', _, hwalk, hleads.trans hleads', hstore'.trans hstore, hvalues,
        hasks.trans hasks', ?_⟩
      rw [List.length_append, hcount, List.length_drop, pageCount_of_lt (by omega) hlt]
      exact Nat.add_comm _ _
    · simp only [decide_eq_false hlt, Bool.not_false, if_true]
      refine ⟨_, c₁, _, rfl, hleads, hstore, ?_, hasks, (pageCount_of_le (by omega)).symm⟩
      rw [List.take_of_length_le (by omega), ← hsplit] at hentered
      rw [Keyed.values, Part.entries_eq_of_find? (numbered_ascending hascending) hentered,
        List.map_map]
      rfl

/-- The parts of an upload in flight are listed in the order of their numbers. -/
theorem parts_listed (b : Bucket) {s : Session} {u : StoredUpload} (hsize : 1 ≤ b.partPageSize)
    (hcalm : c.service.IsCalm) (hu : c.store.upload? s.key s.uploadId = some u) :
    ∃ c' xs, (b.parts s).execute c = (.ok (Part.listed u.parts), c') ∧ c.Leads c' ∧
      c'.store = c.store ∧ c.Asks c' xs ∧
      xs.length = pageCount (Part.listed u.parts).length b.partPageSize.toNat := by
  have hlength : (u.parts.entries.filter fun p => (0 : Int) < p.1).length ≤ c.store.extent := by
    have hmem : u ∈ c.store.uploads := List.mem_of_find?_eq_some hu
    have hle : u.parts.entries.length ≤
        (c.store.uploads.map fun u => u.parts.entries.length).sum :=
      List.single_le_sum (by simp) _ (List.mem_map_of_mem hmem)
    have hfilter := List.length_filter_le (fun p : Int × Bytes => decide (0 < p.1)) u.parts.entries
    rw [Store.extent, List.length_flatMap]
    omega
  have hempty : ∀ n, (Keyed.empty : Keyed Int Part).find? n =
      (([] : List (Int × Bytes)).map numbered).lookup n := fun n => rfl
  obtain ⟨table, c', xs, hwalk, hleads, hstore, hvalues, hasks, hcount⟩ := b.partsFrom_eq hsize
    (Service.horizon c.service) (Nat.lt_of_le_of_lt hlength (horizon_gt c)) hcalm hu
    (List.nil_append _).symm le_rfl rfl hempty
  refine ⟨c', xs, ?_, hleads, hstore, hasks, by rw [hcount, Part.listed, List.length_map]⟩
  simp only [parts, Run.execute_bind, Run.execute_get, hwalk, Run.execute_pure, hvalues]

/-- What the parts of an upload come to: pages without entries do not get beyond the first. -/
def partsOf (b : Bucket) (t : Keyed Int Bytes) : Except Error (List Part) :=
  if 1 ≤ b.partPageSize ∨ Part.listed t = [] then .ok (Part.listed t)
  else .error (.storage .noPartMarker)

theorem parts_execute (b : Bucket) {s : Session} {u : StoredUpload} (hcalm : c.service.IsCalm)
    (hu : c.store.upload? s.key s.uploadId = some u) :
    ∃ c', (b.parts s).execute c = (b.partsOf u.parts, c') ∧ c.Leads c' ∧ c'.store = c.store := by
  by_cases hsize : 1 ≤ b.partPageSize
  · rw [partsOf, if_pos (.inl hsize)]
    obtain ⟨c', _, hlisted, hleads, hstore, -⟩ := b.parts_listed hsize hcalm hu
    exact ⟨c', hlisted, hleads, hstore⟩
  · obtain ⟨page, c₁, hlist, hleads, hstore, hperm, htruncated, -, hmarker⟩ :=
      Client.listParts_page hcalm hu b.partPageSize 0 rfl
    have hzero : b.partPageSize.toNat = 0 := Int.toNat_of_nonpos (by omega)
    have hnothing : page.parts = [] := by simpa [hzero] using hperm
    obtain ⟨n, hn⟩ : ∃ n, Service.horizon c.service = n + 1 :=
      Nat.exists_eq_succ_of_ne_zero (Nat.ne_zero_of_lt (horizon_gt c))
    refine ⟨c₁, ?_, hleads, hstore⟩
    simp only [parts, Run.execute_bind, Run.execute_get, hn, partsFrom, hlist, htruncated, hzero,
      hmarker (by omega), hnothing]
    by_cases hempty : Part.listed u.parts = []
    · have hfilter : u.parts.entries.filter (fun p => (0 : Int) < p.1) = [] := by
        simpa [Part.listed] using hempty
      simp [partsOf, hempty, hfilter, enterParts, Keyed.values, Keyed.empty]
    · have hfilter : u.parts.entries.filter (fun p => (0 : Int) < p.1) ≠ [] := by
        simpa [Part.listed] using hempty
      have hlength := List.length_pos_iff.mpr hfilter
      simp [partsOf, hempty, hsize, hlength]

/-- All parts of an upload whose part numbers are positive are listed. -/
theorem parts_eq (b : Bucket) {s : Session} {u : StoredUpload} (hsize : 1 ≤ b.partPageSize)
    (hcalm : c.service.IsCalm) (hu : c.store.upload? s.key s.uploadId = some u)
    (hpositive : ∀ e ∈ u.parts.entries, 0 < e.1) :
    ∃ c' xs, (b.parts s).execute c = (.ok (Part.ofTable u.parts), c') ∧ c.Leads c' ∧
      c'.store = c.store ∧ c.Asks c' xs ∧
      xs.length = pageCount u.parts.entries.length b.partPageSize.toNat := by
  have hlength : (Part.ofTable u.parts).length = u.parts.entries.length := List.length_map _
  have hall : Part.listed u.parts = Part.ofTable u.parts := by
    rw [Part.listed, List.filter_eq_self.mpr fun e he => decide_eq_true (hpositive e he)]
    rfl
  rw [← hlength, ← hall]
  exact b.parts_listed hsize hcalm hu

/-! ## 4. Sessions -/

/-- A step of the walk for the upload of a key, which ends at the first with exactly this key. -/
def stopAt (key : String) (_ : Option InFlight) (u : InFlight) :
    Except Error (ForInStep (Option InFlight)) :=
  .ok (if u.key = key then .done (some u) else .yield none)

theorem walked_stopAt (key : String) (entries : List InFlight) :
    walked (stopAt key) none entries = .ok (entries.find? fun u => u.key = key) := by
  induction entries with
  | nil => rfl
  | cons u rest ih =>
    by_cases hkey : u.key = key
    · simp [walked, walkPage, stopAt, hkey, bind, Except.bind, pure, Except.pure]
    · rw [List.find?_cons_of_neg (by simpa using hkey), ← ih]
      simp [walked, walkPage, stopAt, hkey, bind, Except.bind]

theorem findUpload_eq (b : Bucket) {key id : String} {u : StoredUpload} (hcalm : c.service.IsCalm)
    (hids : c.store.IdsInOrder) (hsize : 0 < c.store.uploadPageSize)
    (halone : c.store.Alone key id) (hu : c.store.upload? key id = some u) :
    ∃ c', (b.findUpload key).execute c = (.ok (some u.entry), c') ∧ c.Leads c' ∧
      c'.store = c.store := by
  obtain ⟨hmem, hid, hkey, hstatus⟩ := hids.upload?_eq_some_iff.mp hu
  have hin : ∀ v ∈ c.store.listed (Client.nonEmpty key),
      v.key = key ∧ v = u ∨ v.key ≠ key ∧ v.key ≠ "" := by
    intro v hv
    obtain ⟨⟨hv, hstatus⟩, -⟩ := Store.mem_listed.mp hv
    exact (halone v hv hstatus).imp_left fun hsame =>
      ⟨hsame.1, hids.unique hv hmem (hsame.2.trans hid.symm)⟩
  have hlisted : u ∈ c.store.listed (Client.nonEmpty key) := by
    refine Store.mem_listed.mpr ⟨⟨hmem, hstatus⟩, fun _ => ?_⟩
    rw [hkey]
    by_cases hempty : key = ""
    · simp [hempty, Client.nonEmpty, Option.filter, Text.startsWith_empty]
    · simp [hempty, Client.nonEmpty, Option.filter, Text.startsWith_self]
  have hfind : ((c.store.listed (Client.nonEmpty key)).map StoredUpload.entry).find?
      (fun e => e.key = key) = some u.entry := by
    rcases hfound : ((c.store.listed (Client.nonEmpty key)).map StoredUpload.entry).find?
      (fun e => e.key = key) with _ | e
    · have hnone := List.find?_eq_none.mp hfound _ (List.mem_map_of_mem hlisted)
      simp [StoredUpload.entry, hkey] at hnone
    · have hentry : e.key = key := by simpa using List.find?_some hfound
      obtain ⟨v, hv, rfl⟩ := List.mem_map.mp (List.mem_of_find?_eq_some hfound)
      rcases hin v hv with ⟨-, rfl⟩ | ⟨hne, -⟩
      · exact hfound
      · exact absurd hentry hne
  have hkeys : ∀ v ∈ c.store.listed (Client.nonEmpty key),
      v.key ≠ "" ∨ ∀ acc, ∃ a, stopAt key acc v.entry = .ok (.done a) := by
    intro v hv
    rcases hin v hv with ⟨hsame, -⟩ | ⟨-, hne⟩
    · exact .inr fun acc => ⟨some v.entry, by simp [stopAt, StoredUpload.entry, hsame]⟩
    · exact .inl hne
  obtain ⟨c', hwalk, hstore⟩ := b.walkUploads_eq key (hcalm.calmFor _) hids hsize hkeys none
  have hleads := b.walkUploads_leads key none hcalm.failsOnly hwalk
  rw [walked_stopAt, hfind] at hwalk
  exact ⟨c', hwalk, hleads, hstore⟩

/-- The only upload in flight at a key is resumed, with all its parts. -/
theorem resume_eq (b : Bucket) {key id : String} {u : StoredUpload} (hcalm : c.service.IsCalm)
    (hids : c.store.IdsInOrder) (hsize : 0 < c.store.uploadPageSize) (hpart : 1 ≤ b.partPageSize)
    (halone : c.store.Alone key id) (hu : c.store.upload? key id = some u)
    (hpositive : ∀ e ∈ u.parts.entries, 0 < e.1) :
    ∃ c', (b.resume key).execute c = (.ok (⟨id, b.name, key⟩, Part.ofTable u.parts), c') ∧
      c.Leads c' ∧ c'.store = c.store := by
  obtain ⟨c₁, hfind, hleads₁, hstore₁⟩ := b.findUpload_eq hcalm hids hsize halone hu
  have hid : u.entry.uploadId = id := Store.upload?_id hu
  have hu₁ : c₁.store.upload? (⟨id, b.name, key⟩ : Session).key
      (⟨id, b.name, key⟩ : Session).uploadId = some u := by
    rw [hstore₁]
    exact hu
  obtain ⟨c₂, _, hparts, hleads₂, hstore₂, -⟩ :=
    b.parts_eq hpart (hleads₁.calm hcalm) hu₁ hpositive
  have hleads := hleads₁.trans hleads₂
  simp only [resume, Run.notFoundAs, Run.execute_bind, Run.execute_tryCatch, hfind, hid, hparts,
    Run.execute_pure, Run.execute_report]
  exact ⟨_, rfl, ⟨hleads.failsOnly, hleads.calm, hleads.capacity⟩, hstore₂.trans hstore₁⟩

end Bucket

end ResumableStorage
