/-
  ResumableStorage/Proofs/Store/Pages.lean
  ========================================
  **Pages of a store** — uploads and parts are listed in strictly ascending order, and a
  page takes what comes behind the marker of the page before.  So what is behind the
  last entry of a page is exactly what the page has left over, and the pages, one after
  the other, are the whole listing.
-/
import ResumableStorage.Proofs.Store.Effects
import ResumableStorage.Upload.Session

namespace ResumableStorage

/-! ## 1. Strictly ascending lists -/

/-- In an ascending list the entries above the last one of a front are those that follow it. -/
theorem filter_above_last {α : Type} {r : α → α → Prop} [DecidableRel r]
    (hasymm : ∀ a b, r a b → ¬ r b a) {front rest : List α} (h : (front ++ rest).Pairwise r)
    {last : α} (hlast : front.getLast? = some last) :
    (front ++ rest).filter (fun a => decide (r last a)) = rest := by
  obtain ⟨init, rfl⟩ : ∃ init, front = init ++ [last] := by
    rcases List.eq_nil_or_concat front with rfl | ⟨init, a, rfl⟩
    · cases hlast
    · rw [List.concat_eq_append, List.getLast?_concat, Option.some.injEq] at hlast
      exact ⟨init, by rw [List.concat_eq_append, hlast]⟩
  obtain ⟨hfront, -, habove⟩ := List.pairwise_append.mp h
  obtain ⟨-, -, hinit⟩ := List.pairwise_append.mp hfront
  rw [List.filter_append, List.filter_eq_nil_iff.mpr, List.nil_append, List.filter_eq_self]
  · intro a ha
    exact decide_eq_true (habove last (by simp) a ha)
  · intro a ha
    rw [decide_eq_true_eq]
    rcases List.mem_append.mp ha with ha | ha
    · exact hasymm a last (hinit a ha last (by simp))
    · rw [List.mem_singleton.mp ha]
      exact fun hself => hasymm last last hself hself

theorem exists_getLast?_take {α : Type} {l : List α} {n : Nat} (hpos : 0 < n) (hlt : n < l.length) :
    ∃ last, (l.take n).getLast? = some last := by
  rw [← Option.ne_none_iff_exists', ne_eq, List.getLast?_eq_none_iff, List.take_eq_nil_iff]
  rintro (hzero | hnil)
  · omega
  · simp [hnil] at hlt

theorem mapM_eq_ok {α β ε : Type} {f : α → Except ε β} {g : α → β} {l : List α}
    (h : ∀ a ∈ l, f a = .ok (g a)) : l.mapM f = .ok (l.map g) := by
  induction l with
  | nil => rfl
  | cons a rest ih =>
    rw [List.mapM_cons, h a (by simp), ih fun b hb => h b (by simp [hb])]
    rfl

theorem filterM_eq_ok {α ε : Type} {f : α → Except ε Bool} {p : α → Bool} {l : List α}
    (h : ∀ a ∈ l, f a = .ok (p a)) : l.filterM f = .ok (l.filter p) := by
  have hacc : ∀ acc, l.filterAuxM f acc = .ok ((l.filter p).reverse ++ acc) := by
    induction l with
    | nil => exact fun acc => rfl
    | cons a rest ih =>
      intro acc
      rw [List.filterAuxM, h a (by simp)]
      change List.filterAuxM f rest (cond (p a) (a :: acc) acc) = _
      rw [ih fun b hb => h b (by simp [hb])]
      cases hp : p a <;> simp [hp]
  rw [List.filterM, hacc]
  change Except.ok ((l.filter p).reverse ++ []).reverse = _
  rw [List.append_nil, List.reverse_reverse]

theorem mem_of_filterM_eq_ok {α ε : Type} {f : α → Except ε Bool} {l kept : List α}
    (h : l.filterM f = .ok kept) {a : α} (ha : a ∈ kept) : a ∈ l := by
  have hacc : ∀ {acc kept : List α}, l.filterAuxM f acc = .ok kept →
      ∀ a ∈ kept, a ∈ acc ∨ a ∈ l := by
    clear h ha
    induction l with
    | nil =>
      intro acc kept h a ha
      cases h
      exact .inl ha
    | cons b rest ih =>
      intro acc kept h a ha
      rw [List.filterAuxM] at h
      rcases hb : f b with e | keep <;> rw [hb] at h
      · cases h
      · rcases ih h a ha with hacc | hrest
        · cases keep with
          | true => exact (List.mem_cons.mp hacc).elim (fun hab => .inr (hab ▸ List.mem_cons_self)) .inl
          | false => exact .inl hacc
        · exact .inr (List.mem_cons_of_mem _ hrest)
  rw [List.filterM] at h
  rcases hfilter : l.filterAuxM f [] with e | reversed <;> rw [hfilter] at h <;> cases h
  exact (hacc hfilter a (List.mem_reverse.mp ha)).resolve_left List.not_mem_nil

namespace StoredUpload

/-! ## 2. Uploads in order -/

/-- Uploads are listed by key, and those of one key by identifier. -/
def Precedes (u v : StoredUpload) : Prop :=
  u.key < v.key ∨ u.key = v.key ∧ u.id < v.id

instance : DecidableRel Precedes := fun u v =>
  inferInstanceAs (Decidable (u.key < v.key ∨ u.key = v.key ∧ u.id < v.id))

theorem Precedes.asymm (u v : StoredUpload) (h : u.Precedes v) : ¬ v.Precedes u := by
  unfold Precedes at *
  rcases h with hlt | ⟨heq, hlt⟩
  · rintro (hgt | ⟨heq', -⟩)
    · exact lt_asymm hlt hgt
    · exact hlt.ne heq'.symm
  · rintro (hgt | ⟨-, hgt⟩)
    · exact hgt.ne heq.symm
    · exact lt_asymm hlt hgt

def entry (u : StoredUpload) : InFlight :=
  ⟨u.key, u.id, (u.initiated.map Value.time).getD .null⟩

end StoredUpload

namespace Store

variable {s : Store}

theorem mem_inFlight {u : StoredUpload} :
    u ∈ s.inFlight ↔ u ∈ s.uploads ∧ u.status = .inFlight := by
  simp [inFlight]

theorem IdsInOrder.inFlight_ascending (h : s.IdsInOrder) :
    s.inFlight.Pairwise StoredUpload.Precedes := by
  have hids : s.inFlight.Pairwise fun u v => u.id ≠ v.id := by
    have hfiltered : (s.uploads.filter (·.status = .inFlight)).Pairwise fun u v => u.id ≠ v.id :=
      h.pairwise_ids.filter _
    exact (List.mergeSort_perm _ _).symm.pairwise hfiltered fun hne => hne.symm
  have hsorted : s.inFlight.Pairwise fun u v =>
      (u.key < v.key || (u.key = v.key && u.id ≤ v.id)) = true := by
    apply List.pairwise_mergeSort
    · intro a b c hab hbc
      simp only [Bool.or_eq_true, Bool.and_eq_true, decide_eq_true_eq] at *
      rcases hab with hab | ⟨hab, hid⟩
      · rcases hbc with hbc | ⟨hbc, -⟩
        · exact .inl (hab.trans hbc)
        · exact .inl (hbc ▸ hab)
      · rw [hab]
        exact hbc.imp_right fun ⟨hbc, hid'⟩ => ⟨hbc, hid.trans hid'⟩
    · intro a b
      simp only [Bool.or_eq_true, Bool.and_eq_true, decide_eq_true_eq]
      rcases lt_trichotomy a.key b.key with hlt | heq | hgt
      · exact .inl (.inl hlt)
      · rcases le_total a.id b.id with hle | hle
        · exact .inl (.inr ⟨heq, hle⟩)
        · exact .inr (.inr ⟨heq.symm, hle⟩)
      · exact .inr (.inl hgt)
  refine (hsorted.and hids).imp ?_
  rintro u v ⟨hle, hne⟩
  simp only [Bool.or_eq_true, Bool.and_eq_true, decide_eq_true_eq] at hle
  exact hle.imp_right fun ⟨hkey, hid⟩ => ⟨hkey, lt_of_le_of_ne hid hne⟩

/-- The uploads in flight that a listing with this front tells of. -/
def listed (s : Store) (keyFront : Option String) : List StoredUpload :=
  s.inFlight.filter fun u => !s.honourFront || Text.startsWith u.key (keyFront.getD "")

theorem mem_listed {keyFront : Option String} {u : StoredUpload} : u ∈ s.listed keyFront ↔
    (u ∈ s.uploads ∧ u.status = .inFlight) ∧
      (s.honourFront = true → Text.startsWith u.key (keyFront.getD "") = true) := by
  rw [listed, List.mem_filter, mem_inFlight]
  cases s.honourFront <;> simp

theorem IdsInOrder.listed_ascending (h : s.IdsInOrder) (keyFront : Option String) :
    (s.listed keyFront).Pairwise StoredUpload.Precedes :=
  h.inFlight_ascending.filter _

/-- The markers that ask for what comes behind a front of a listing. -/
def Marks (front : List StoredUpload) (keyMarker idMarker : Option Value) : Prop :=
  match front.getLast? with
  | none => keyMarker = none
  | some last => keyMarker = some (.text last.key) ∧ idMarker = some (.text last.id)

/-- What is behind the last upload of a front is what follows the front. -/
theorem filterM_isBehind {front rest : List StoredUpload}
    (h : (front ++ rest).Pairwise StoredUpload.Precedes) {last : StoredUpload}
    (hlast : front.getLast? = some last) :
    (front ++ rest).filterM (isBehind (.text last.key) (.text last.id)) = .ok rest := by
  rw [filterM_eq_ok (p := fun u => decide (last.Precedes u)),
    filter_above_last StoredUpload.Precedes.asymm h hlast]
  intro u _
  simp only [isBehind, StoredUpload.Precedes]
  by_cases hkey : u.key = last.key
  · simp [hkey]
  · simp [hkey, Ne.symm hkey]

def uploadFields (u : StoredUpload) : Value :=
  .object ([("Key", .text u.key), ("UploadId", .text u.id)] ++
    (u.initiated.map fun t => ("Initiated", Value.time t)).toList)

/-- The page that takes its uploads from `rest`. -/
def uploadPageOf (s : Store) (rest : List StoredUpload) : Value :=
  .object (listField "Uploads" ((rest.take s.uploadPageSize).map uploadFields) ++
    [("IsTruncated", .bool (decide (s.uploadPageSize < rest.length)))] ++
    match decide (s.uploadPageSize < rest.length), (rest.take s.uploadPageSize).getLast? with
    | true, some u => [("NextKeyMarker", Value.text u.key), ("NextUploadIdMarker", .text u.id)]
    | _, _ => [])

/-- The uploads of a listing that come behind two markers. -/
def behind (s : Store) (keyFront : Option String) (keyMarker idMarker : Option Value) :
    Except Failure (List StoredUpload) :=
  match keyMarker with
  | none => .ok (s.listed keyFront)
  | some k => (s.listed keyFront).filterM (isBehind k (idMarker.getD (.text "")))

theorem uploadPage_eq_map (s : Store) (keyFront : Option String)
    (keyMarker idMarker : Option Value) : s.uploadPage keyFront keyMarker idMarker =
      (s.behind keyFront keyMarker idMarker).map s.uploadPageOf := by
  have hlength : ∀ l : List StoredUpload,
      decide ((l.take s.uploadPageSize).length < l.length) = decide (s.uploadPageSize < l.length) := by
    intro l
    rw [List.length_take, decide_eq_decide]
    omega
  simp only [uploadPage, hlength]
  rcases keyMarker with _ | k
  · rfl
  · simp only [behind, listed]
    rcases List.filterM _ _ with f | uploads <;> rfl

theorem uploadPage_eq (h : s.IdsInOrder) {keyFront : Option String} {front rest : List StoredUpload}
    (hlisted : s.listed keyFront = front ++ rest) {keyMarker idMarker : Option Value}
    (hmarks : Marks front keyMarker idMarker) :
    s.uploadPage keyFront keyMarker idMarker = .ok (s.uploadPageOf rest) := by
  have hsorted := h.listed_ascending keyFront
  have hbehind : s.behind keyFront keyMarker idMarker = .ok rest := by
    unfold Marks at hmarks
    rcases hlast : front.getLast? with _ | last
    · rw [hlast] at hmarks
      rw [List.getLast?_eq_none_iff.mp hlast, List.nil_append] at hlisted
      rw [hmarks, behind, hlisted]
    · rw [hlast] at hmarks
      obtain ⟨rfl, rfl⟩ := hmarks
      rw [hlisted] at hsorted
      rw [behind, hlisted]
      exact filterM_isBehind hsorted hlast
  rw [uploadPage_eq_map, hbehind]
  rfl

/-- Whatever its markers are, a page tells only of uploads in flight. -/
theorem uploadPage_eq_ok {keyFront : Option String} {keyMarker idMarker : Option Value} {v : Value}
    (h : s.uploadPage keyFront keyMarker idMarker = .ok v) :
    ∃ uploads, v = s.uploadPageOf uploads ∧ ∀ u ∈ uploads, u ∈ s.inFlight := by
  have hlisted : ∀ u ∈ s.listed keyFront, u ∈ s.inFlight := fun u hu => (List.mem_filter.mp hu).1
  rw [uploadPage_eq_map] at h
  rcases hbehind : s.behind keyFront keyMarker idMarker with f | uploads <;> rw [hbehind] at h <;>
    cases h
  refine ⟨uploads, rfl, ?_⟩
  rcases keyMarker with _ | k
  · cases hbehind
    exact hlisted
  · exact fun u hu => hlisted u (mem_of_filterM_eq_ok hbehind hu)

def partFields (p : Int × Bytes) : Value :=
  .object [("PartNumber", .int p.1), ("ETag", .text (tag p.2)), ("Size", .int p.2.size)]

end Store

end ResumableStorage
