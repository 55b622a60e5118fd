/-
  ResumableStorage/Proofs/Store/Regions.lean
  ==========================================
  **Stores that are alike in a region** — a region is a set of keys.  Two stores are
  alike in it when they hold the same objects and the same uploads there, whatever they
  hold elsewhere; the uploads may go by different identifiers, and are paired in the order
  of creation.

  A request about keys of the region is answered by both in the same way, leaves them
  alike, and changes nothing outside of the region.
-/
import ResumableStorage.Proofs.Store.Frames

namespace ResumableStorage

/-- A set of keys. -/
abbrev Region := String → Bool

/-- The two uploads are the same but for their identifiers. -/
structure StoredUpload.Same (u v : StoredUpload) : Prop where
  key : u.key = v.key
  initiated : u.initiated = v.initiated
  status : u.status = v.status
  parts : u.parts = v.parts

/-! ## 1. Pairs -/

/-- In a list without repetitions an element has one partner. -/
theorem eq_of_mem_zip {α β : Type} {l : List α} {m : List β} (hl : l.Nodup) {a : α} {b b' : β}
    (h : (a, b) ∈ l.zip m) (h' : (a, b') ∈ l.zip m) : b = b' := by
  induction l generalizing m with
  | nil => simp at h
  | cons c l ih =>
    obtain ⟨hc, hl⟩ := List.nodup_cons.mp hl
    cases m with
    | nil => simp at h
    | cons d m =>
      have hfresh : ∀ b, (c, b) ∉ l.zip m := fun b hb => hc (List.of_mem_zip hb).1
      simp only [List.zip_cons_cons, List.mem_cons, Prod.mk.injEq] at h h'
      rcases h with ⟨rfl, rfl⟩ | h <;> rcases h' with ⟨hca, rfl⟩ | h'
      · rfl
      · exact absurd h' (hfresh b')
      · exact absurd (hca ▸ h) (hfresh b)
      · exact ih hl h h'

theorem eq_of_mem_zip_right {α β : Type} {l : List α} {m : List β} (hm : m.Nodup) {a a' : α} {b : β}
    (h : (a, b) ∈ l.zip m) (h' : (a', b) ∈ l.zip m) : a = a' := by
  have hswap : ∀ {a : α}, (a, b) ∈ l.zip m → (b, a) ∈ m.zip l := by
    intro a ha
    have hmem := List.mem_map_of_mem (f := Prod.swap) ha
    rwa [List.zip_swap] at hmem
  exact eq_of_mem_zip hm (hswap h) (hswap h')

namespace Store

variable {region : Region} {sharp : Prop} {s t s' t' s'' t'' : Store} {i j key : String}
  {f : StoredUpload → StoredUpload}

/-! ## 2. Uploads of a region -/

/-- The uploads at keys of the region, in the order of creation. -/
def uploadsIn (s : Store) (region : Region) : List StoredUpload :=
  s.uploads.filter fun u => region u.key

/-- The identifiers of the uploads of the region in two stores, paired in the order of creation. -/
def pairing (region : Region) (s t : Store) : List (String × String) :=
  ((s.uploadsIn region).map (·.id)).zip ((t.uploadsIn region).map (·.id))

theorem mem_uploadsIn {u : StoredUpload} :
    u ∈ s.uploadsIn region ↔ u ∈ s.uploads ∧ region u.key = true :=
  List.mem_filter

theorem IdsInOrder.nodup_ids (h : s.IdsInOrder) (region : Region) :
    ((s.uploadsIn region).map (·.id)).Nodup :=
  List.pairwise_map.mpr (h.pairwise_ids.filter _)

theorem uploadsIn_modifyUpload (hkey : ∀ u, (f u).key = u.key) (id : String) (region : Region) :
    (s.modifyUpload id f).uploadsIn region =
      (s.uploadsIn region).map fun u => if u.id = id then f u else u := by
  simp only [uploadsIn, modifyUpload, List.filter_map]
  congr 1
  apply List.filter_congr
  intro u _
  simp only [Function.comp]
  split <;> simp [hkey]

theorem uploadsIn_addUpload (key : String) (initiated : Option Instant) (parts : Keyed Int Bytes)
    (region : Region) : (s.addUpload key initiated parts).2.uploadsIn region = s.uploadsIn region ++
      if region key then [⟨s.nextId, key, initiated, .inFlight, parts⟩] else [] := by
  simp only [uploadsIn, addUpload, List.filter_append, List.filter_singleton]
  split <;> simp_all

/-- Identifiers are in order, every upload has a key, and pages of a listing are not empty: so a
walk over the uploads sees all of them. -/
structure Regular (s : Store) : Prop where
  ids : s.IdsInOrder
  keys : ∀ u ∈ s.uploads, u.key ≠ ""
  pages : 0 < s.uploadPageSize

theorem Regular.modifyUpload (h : s.Regular) (id : String) (hid : ∀ u, (f u).id = u.id)
    (hkey : ∀ u, (f u).key = u.key) : (s.modifyUpload id f).Regular := by
  refine ⟨h.ids.modifyUpload id hid, ?_, h.pages⟩
  intro u hu
  obtain ⟨v, hv, rfl⟩ := mem_modifyUpload.mp hu
  split
  · rw [hkey]
    exact h.keys v hv
  · exact h.keys v hv

theorem Regular.addUpload (h : s.Regular) (hkey : key ≠ "") (initiated : Option Instant)
    (parts : Keyed Int Bytes) : (s.addUpload key initiated parts).2.Regular := by
  refine ⟨h.ids.addUpload key initiated parts, ?_, h.pages⟩
  intro u hu
  rcases List.mem_append.mp hu with hu | hu
  · exact h.keys u hu
  · rw [List.mem_singleton.mp hu]
    exact hkey

/-! ## 3. Changes in a region -/

/-- From the first store to the second nothing has changed outside of the region. -/
structure Confined (region : Region) (s s' : Store) : Prop where
  clock : s'.clock = s.clock
  minPartSize : s'.minPartSize = s.minPartSize
  objects : ∀ key, region key = false → s'.objects.find? key = s.objects.find? key
  uploads : s'.uploadsIn (fun key => !region key) = s.uploadsIn fun key => !region key

theorem Confined.refl (s : Store) : s.Confined region s := ⟨rfl, rfl, fun _ _ => rfl, rfl⟩

theorem Confined.trans (h : s.Confined region s') (h' : s'.Confined region s'') :
    s.Confined region s'' :=
  ⟨h'.clock.trans h.clock, h'.minPartSize.trans h.minPartSize,
    fun key hkey => (h'.objects key hkey).trans (h.objects key hkey), h'.uploads.trans h.uploads⟩

/-- In a region that is apart nothing has changed. -/
theorem Confined.uploadsIn_eq {other : Region} (h : s.Confined region s')
    (hapart : ∀ key, other key = true → region key = false) :
    s'.uploadsIn other = s.uploadsIn other := by
  have hfilter : ∀ s : Store,
      s.uploadsIn other = (s.uploadsIn fun key => !region key).filter fun u => other u.key := by
    intro s
    rw [uploadsIn, uploadsIn, List.filter_filter]
    apply List.filter_congr
    intro u _
    rcases hother : other u.key with _ | _
    · rfl
    · simp [hapart u.key hother]
  rw [hfilter, hfilter, h.uploads]

theorem Confined.modifyUpload (hkey : ∀ u, (f u).key = u.key)
    (hin : ∀ u ∈ s.uploads, u.id = i → region u.key = true) :
    s.Confined region (s.modifyUpload i f) := by
  refine ⟨rfl, rfl, fun _ _ => rfl, ?_⟩
  rw [uploadsIn_modifyUpload hkey]
  conv_rhs => rw [← List.map_id (s.uploadsIn _)]
  apply List.map_congr_left
  intro u hu
  obtain ⟨hmem, hout⟩ := mem_uploadsIn.mp hu
  have hne : u.id ≠ i := by
    intro hid
    simp [hin u hmem hid] at hout
  rw [if_neg hne, id_eq]

theorem Confined.addUpload (hkey : region key = true) (initiated : Option Instant)
    (parts : Keyed Int Bytes) : s.Confined region (s.addUpload key initiated parts).2 := by
  refine ⟨rfl, rfl, fun _ _ => rfl, ?_⟩
  rw [uploadsIn_addUpload]
  simp [hkey]

theorem Confined.putObject (hkey : region key = true) (content : Bytes) :
    s.Confined region (s.putObject key content) := by
  refine ⟨rfl, rfl, ?_, rfl⟩
  intro other hother
  apply Keyed.find?_insert_of_ne
  rintro rfl
  rw [hkey] at hother
  cases hother

theorem Confined.eraseObject (hkey : region key = true) : s.Confined region (s.eraseObject key) := by
  refine ⟨rfl, rfl, ?_, rfl⟩
  intro other hother
  apply Keyed.find?_erase_of_ne
  rintro rfl
  rw [hkey] at hother
  cases hother

/-! ## 4. Stores that are alike -/

/-- The two stores hold the same in the region.  In the sharp sense the uploads there have the same
identifiers, and so will the next one. -/
structure Alike (region : Region) (sharp : Prop) (s t : Store) : Prop where
  left : s.Regular
  right : t.Regular
  clock : s.clock = t.clock
  minPartSize : s.minPartSize = t.minPartSize
  objects : ∀ key, region key = true → s.objects.find? key = t.objects.find? key
  uploads : List.Forall₂ StoredUpload.Same (s.uploadsIn region) (t.uploadsIn region)
  sharply : sharp → s.uploads.length = t.uploads.length ∧ s.uploadsIn region = t.uploadsIn region

theorem Regular.alike_self (h : s.Regular) (region : Region) (sharp : Prop) :
    s.Alike region sharp s := by
  refine ⟨h, h, rfl, rfl, fun _ _ => rfl, ?_, fun _ => ⟨rfl, rfl⟩⟩
  apply List.forall₂_same.mpr
  intro u _
  exact ⟨rfl, rfl, rfl, rfl⟩

theorem Alike.length_eq (h : s.Alike region sharp t) :
    (s.uploadsIn region).length = (t.uploadsIn region).length :=
  h.uploads.length_eq

theorem Alike.same_of_mem_zip (h : s.Alike region sharp t) {u v : StoredUpload}
    (hmem : (u, v) ∈ (s.uploadsIn region).zip (t.uploadsIn region)) : u.Same v :=
  (List.forall₂_iff_zip.mp h.uploads).2 hmem

theorem pairing_eq (region : Region) (s t : Store) : pairing region s t =
    ((s.uploadsIn region).zip (t.uploadsIn region)).map fun p => (p.1.id, p.2.id) :=
  List.zip_map ..

/-- Paired identifiers are those of two uploads that are the same otherwise. -/
theorem Alike.of_mem_pairing (h : s.Alike region sharp t) (hpair : (i, j) ∈ pairing region s t) :
    ∃ u v, (u, v) ∈ (s.uploadsIn region).zip (t.uploadsIn region) ∧ u.id = i ∧ v.id = j ∧
      u.Same v := by
  rw [pairing_eq, List.mem_map] at hpair
  obtain ⟨⟨u, v⟩, hmem, hids⟩ := hpair
  obtain ⟨rfl, rfl⟩ := Prod.ext_iff.mp hids
  exact ⟨u, v, hmem, rfl, rfl, h.same_of_mem_zip hmem⟩

/-- In the sharp sense paired identifiers are equal. -/
theorem Alike.id_eq_of_sharp (h : s.Alike region sharp t) (hsharp : sharp)
    (hpair : (i, j) ∈ pairing region s t) : i = j := by
  obtain ⟨-, huploads⟩ := h.sharply hsharp
  rw [pairing, ← huploads] at hpair
  have hself : List.Forall₂ Eq ((s.uploadsIn region).map (·.id)) ((s.uploadsIn region).map (·.id)) :=
    List.forall₂_eq_eq_eq ▸ rfl
  exact (List.forall₂_iff_zip.mp hself).2 hpair

/-- The uploads in flight that two requests name are the same, or there are none. -/
theorem Alike.upload?_cases (h : s.Alike region sharp t) (hpair : (i, j) ∈ pairing region s t)
    (key : String) : (s.upload? key i = none ∧ t.upload? key j = none) ∨
      ∃ u v, s.upload? key i = some u ∧ t.upload? key j = some v ∧ u.Same v := by
  obtain ⟨u, v, hmem, rfl, rfl, hsame⟩ := h.of_mem_pairing hpair
  obtain ⟨hu, -⟩ := mem_uploadsIn.mp (List.of_mem_zip hmem).1
  obtain ⟨hv, -⟩ := mem_uploadsIn.mp (List.of_mem_zip hmem).2
  by_cases hnamed : u.key = key ∧ u.status = .inFlight
  · obtain ⟨hkey, hstatus⟩ := hnamed
    exact .inr ⟨u, v, h.left.ids.upload?_eq_some_iff.mpr ⟨hu, rfl, hkey, hstatus⟩,
      h.right.ids.upload?_eq_some_iff.mpr
        ⟨hv, rfl, hsame.key ▸ hkey, hsame.status ▸ hstatus⟩, hsame⟩
  · refine .inl ⟨?_, ?_⟩
    · apply Option.eq_none_iff_forall_ne_some.mpr
      intro u' hu'
      obtain ⟨hmem', hid, hkey, hstatus⟩ := h.left.ids.upload?_eq_some_iff.mp hu'
      rw [h.left.ids.unique hmem' hu hid] at hkey hstatus
      exact hnamed ⟨hkey, hstatus⟩
    · apply Option.eq_none_iff_forall_ne_some.mpr
      intro v' hv'
      obtain ⟨hmem', hid, hkey, hstatus⟩ := h.right.ids.upload?_eq_some_iff.mp hv'
      rw [h.right.ids.unique hmem' hv hid] at hkey hstatus
      exact hnamed ⟨hsame.key.trans hkey, hsame.status.trans hstatus⟩

/-- An upload of the region is changed in both stores. -/
theorem Alike.modifyUpload (h : s.Alike region sharp t) (hpair : (i, j) ∈ pairing region s t)
    (hid : ∀ u, (f u).id = u.id) (hkey : ∀ u, (f u).key = u.key)
    (hsame : ∀ u v : StoredUpload, u.Same v → (f u).Same (f v)) :
    (s.modifyUpload i f).Alike region sharp (t.modifyUpload j f) ∧
      pairing region (s.modifyUpload i f) (t.modifyUpload j f) = pairing region s t := by
  have hids : ∀ (s : Store) (i : String),
      ((s.modifyUpload i f).uploadsIn region).map (·.id) = (s.uploadsIn region).map (·.id) := by
    intro s i
    rw [uploadsIn_modifyUpload hkey, List.map_map]
    apply List.map_congr_left
    intro u _
    simp only [Function.comp]
    split <;> simp [hid]
  have hpaired : ∀ u v, (u, v) ∈ (s.uploadsIn region).zip (t.uploadsIn region) →
      (u.id = i ↔ v.id = j) := by
    intro u v hmem
    have huv : (u.id, v.id) ∈ pairing region s t := by
      rw [pairing_eq]
      exact List.mem_map_of_mem (f := fun p => (p.1.id, p.2.id)) hmem
    constructor
    · rintro rfl
      exact eq_of_mem_zip (h.left.ids.nodup_ids region) huv hpair
    · rintro rfl
      exact eq_of_mem_zip_right (h.right.ids.nodup_ids region) huv hpair
  refine ⟨⟨h.left.modifyUpload i hid hkey, h.right.modifyUpload j hid hkey, h.clock, h.minPartSize,
    h.objects, ?_, ?_⟩, by rw [pairing, hids, hids, pairing]⟩
  · rw [uploadsIn_modifyUpload hkey, uploadsIn_modifyUpload hkey, List.forall₂_map_left_iff,
      List.forall₂_map_right_iff, List.forall₂_iff_zip]
    refine ⟨h.length_eq, ?_⟩
    intro u v hmem
    have huv := h.same_of_mem_zip hmem
    by_cases hu : u.id = i
    · rw [if_pos hu, if_pos ((hpaired u v hmem).mp hu)]
      exact hsame u v huv
    · rw [if_neg hu, if_neg (mt (hpaired u v hmem).mpr hu)]
      exact huv
  · intro hsharp
    obtain ⟨hlength, huploads⟩ := h.sharply hsharp
    rw [uploadsIn_modifyUpload hkey, uploadsIn_modifyUpload hkey, huploads,
      h.id_eq_of_sharp hsharp hpair]
    refine ⟨?_, rfl⟩
    simp only [Store.modifyUpload, List.length_map]
    exact hlength

theorem Alike.addUpload (h : s.Alike region sharp t) (hregion : region key = true) (hkey : key ≠ "")
    (initiated : Option Instant) (parts : Keyed Int Bytes) :
    (s.addUpload key initiated parts).2.Alike region sharp (t.addUpload key initiated parts).2 ∧
      pairing region (s.addUpload key initiated parts).2 (t.addUpload key initiated parts).2 =
        pairing region s t ++ [(s.nextId, t.nextId)] := by
  have huploads : ∀ s : Store, (s.addUpload key initiated parts).2.uploadsIn region =
      s.uploadsIn region ++ [⟨s.nextId, key, initiated, .inFlight, parts⟩] := by
    intro s
    rw [uploadsIn_addUpload, if_pos hregion]
  refine ⟨⟨h.left.addUpload hkey _ _, h.right.addUpload hkey _ _, h.clock, h.minPartSize,
    h.objects, ?_, ?_⟩, ?_⟩
  · rw [huploads, huploads]
    exact List.rel_append h.uploads (.cons ⟨rfl, rfl, rfl, rfl⟩ .nil)
  · intro hsharp
    obtain ⟨hlength, hsame⟩ := h.sharply hsharp
    have hnext : s.nextId = t.nextId := by rw [nextId, nextId, hlength]
    rw [huploads, huploads, hsame, hnext]
    simp [Store.addUpload, hlength]
  · rw [pairing, huploads, huploads, List.map_append, List.map_append,
      List.zip_append (by simp [h.length_eq])]
    rfl

theorem Alike.withObjects {objects objects' : Keyed String StoredObject}
    (h : s.Alike region sharp t)
    (hobjects : ∀ key, region key = true → objects.find? key = objects'.find? key) :
    { s with objects := objects }.Alike region sharp { t with objects := objects' } :=
  ⟨⟨h.left.ids, h.left.keys, h.left.pages⟩, ⟨h.right.ids, h.right.keys, h.right.pages⟩, h.clock,
    h.minPartSize, hobjects, h.uploads, h.sharply⟩

theorem Alike.putObject (h : s.Alike region sharp t) (key : String) (content : Bytes) :
    (s.putObject key content).Alike region sharp (t.putObject key content) := by
  apply h.withObjects
  intro other hother
  by_cases hkey : other = key
  · rw [hkey, Keyed.find?_insert_self, Keyed.find?_insert_self, h.clock]
  · rw [Keyed.find?_insert_of_ne _ _ hkey, Keyed.find?_insert_of_ne _ _ hkey]
    exact h.objects other hother

theorem Alike.eraseObject (h : s.Alike region sharp t) (key : String) :
    (s.eraseObject key).Alike region sharp (t.eraseObject key) := by
  apply h.withObjects
  intro other hother
  by_cases hkey : other = key
  · rw [hkey, Keyed.find?_erase_self, Keyed.find?_erase_self]
  · rw [Keyed.find?_erase_of_ne _ hkey, Keyed.find?_erase_of_ne _ hkey]
    exact h.objects other hother

/-! ## 5. Requests -/

/-- Both stores have gone on, are alike still, and have changed nothing outside of the region.
Identifiers that were paired stay so. -/
structure Together (region : Region) (sharp : Prop) (s t s' t' : Store) : Prop where
  alike : s'.Alike region sharp t'
  pairs : pairing region s t <+: pairing region s' t'
  left : s.Confined region s'
  right : t.Confined region t'

theorem Alike.together (h : s.Alike region sharp t) : Together region sharp s t s t :=
  ⟨h, List.prefix_refl _, .refl s, .refl t⟩

theorem Together.trans (h : Together region sharp s t s' t')
    (h' : Together region sharp s' t' s'' t'') : Together region sharp s t s'' t'' :=
  ⟨h'.alike, h.pairs.trans h'.pairs, h.left.trans h'.left, h.right.trans h'.right⟩

/-- An upload of the region that is known by its identifier is at a key of the region. -/
theorem region_of_mem_uploadsIn {u v : StoredUpload} (h : s.IdsInOrder)
    (hu : u ∈ s.uploadsIn region) (hv : v ∈ s.uploads) (hid : v.id = u.id) :
    region v.key = true := by
  obtain ⟨hmem, hregion⟩ := mem_uploadsIn.mp hu
  rw [h.unique hv hmem hid]
  exact hregion

theorem Alike.together_modifyUpload (h : s.Alike region sharp t)
    (hpair : (i, j) ∈ pairing region s t) (hid : ∀ u, (f u).id = u.id)
    (hkey : ∀ u, (f u).key = u.key)
    (hsame : ∀ u v : StoredUpload, u.Same v → (f u).Same (f v)) :
    Together region sharp s t (s.modifyUpload i f) (t.modifyUpload j f) := by
  obtain ⟨halike, hpairs⟩ := h.modifyUpload hpair hid hkey hsame
  obtain ⟨u, v, hmem, rfl, rfl, -⟩ := h.of_mem_pairing hpair
  obtain ⟨hu, hv⟩ := List.of_mem_zip hmem
  refine ⟨halike, by rw [hpairs], ?_, ?_⟩
  · apply Confined.modifyUpload hkey
    intro other hother hother'
    exact region_of_mem_uploadsIn h.left.ids hu hother hother'
  · apply Confined.modifyUpload hkey
    intro other hother hother'
    exact region_of_mem_uploadsIn h.right.ids hv hother hother'

theorem Alike.together_insertPart (h : s.Alike region sharp t)
    (hpair : (i, j) ∈ pairing region s t) (number : Int) (body : Bytes) :
    Together region sharp s t (s.insertPart i number body) (t.insertPart j number body) := by
  refine h.together_modifyUpload (f := fun u => { u with parts := u.parts.insert number body }) hpair
    (fun _ => rfl) (fun _ => rfl) ?_
  intro u v huv
  exact ⟨huv.key, huv.initiated, huv.status, congrArg (fun parts => parts.insert number body) huv.parts⟩

theorem Alike.together_startUpload (h : s.Alike region sharp t) (hregion : region key = true)
    (hkey : key ≠ "") : Together region sharp s t (s.startUpload key) (t.startUpload key) ∧
      (s.nextId, t.nextId) ∈ pairing region (s.startUpload key) (t.startUpload key) := by
  obtain ⟨halike, hpairs⟩ := h.addUpload hregion hkey (some s.clock) Keyed.empty
  have hclock : (t.addUpload key (some s.clock) Keyed.empty).2 = t.startUpload key := by
    rw [h.clock]
    rfl
  rw [hclock] at halike hpairs
  refine ⟨⟨halike, ?_, .addUpload hregion _ _, .addUpload hregion _ _⟩, ?_⟩
  · change pairing region s t <+: pairing region (s.addUpload key (some s.clock) Keyed.empty).2 _
    rw [hpairs]
    exact List.prefix_append _ _
  · change _ ∈ pairing region (s.addUpload key (some s.clock) Keyed.empty).2 _
    rw [hpairs]
    simp

theorem Alike.together_putObject (h : s.Alike region sharp t) (hregion : region key = true)
    (content : Bytes) :
    Together region sharp s t (s.putObject key content) (t.putObject key content) :=
  ⟨h.putObject key content, List.prefix_refl _, .putObject hregion content, .putObject hregion content⟩

theorem Alike.together_complete (h : s.Alike region sharp t) (hpair : (i, j) ∈ pairing region s t)
    (hregion : region key = true) (content : Bytes) :
    Together region sharp s t (s.complete i key content) (t.complete j key content) := by
  have hcompleted : Together region sharp s t
      (s.modifyUpload i fun u => { u with status := .completed })
      (t.modifyUpload j fun u => { u with status := .completed }) := by
    refine h.together_modifyUpload (f := fun u => { u with status := .completed }) hpair
      (fun _ => rfl) (fun _ => rfl) ?_
    intro u v huv
    exact ⟨huv.key, huv.initiated, rfl, huv.parts⟩
  exact hcompleted.trans (hcompleted.alike.together_putObject hregion content)

theorem Alike.together_abort (h : s.Alike region sharp t) (hpair : (i, j) ∈ pairing region s t) :
    Together region sharp s t (s.abort i) (t.abort j) := by
  refine h.together_modifyUpload (f := fun u => { u with status := .aborted }) hpair
    (fun _ => rfl) (fun _ => rfl) ?_
  intro u v huv
  exact ⟨huv.key, huv.initiated, rfl, huv.parts⟩

theorem Alike.together_eraseObjects (h : s.Alike region sharp t) {keys : List String}
    (hkeys : ∀ key ∈ keys, region key = true) :
    Together region sharp s t (keys.foldl Store.eraseObject s) (keys.foldl Store.eraseObject t) := by
  induction keys generalizing s t with
  | nil => exact h.together
  | cons key rest ih =>
    have hfirst : Together region sharp s t (s.eraseObject key) (t.eraseObject key) :=
      ⟨h.eraseObject key, List.prefix_refl _, .eraseObject (hkeys key List.mem_cons_self),
        .eraseObject (hkeys key List.mem_cons_self)⟩
    exact hfirst.trans (ih hfirst.alike fun other hother => hkeys other (List.mem_cons_of_mem _ hother))

theorem partsToJoin_congr {u v : StoredUpload} (hsize : s.minPartSize = t.minPartSize)
    (hparts : u.parts = v.parts) (names : List (Int × String)) :
    s.partsToJoin u names = t.partsToJoin v names := by
  induction names with
  | nil => rfl
  | cons name rest ih => simp only [partsToJoin, hparts, hsize, ih]

end Store

/-- Requests about keys of the region that name the same things, but for identifiers of uploads that
are paired. -/
inductive Request.Matches (region : Region) (pairs : List (String × String)) :
    Request → Request → Prop
  | uploadPart {key i j : String} (hkey : region key = true) (hpair : (i, j) ∈ pairs)
      (bucket : String) (number : Int) (body : Bytes) :
      Matches region pairs (.uploadPart bucket key i number body)
        (.uploadPart bucket key j number body)
  | copyPart {key source i j : String} (hkey : region key = true) (hsource : region source = true)
      (hpair : (i, j) ∈ pairs) (bucket : String) (number : Int) (range : Option String) :
      Matches region pairs (.copyPart bucket key i number source range)
        (.copyPart bucket key j number source range)
  | completeUpload {key i j : String} (hkey : region key = true) (hpair : (i, j) ∈ pairs)
      (bucket : String) (parts : List (Int × String)) :
      Matches region pairs (.completeUpload bucket key i parts) (.completeUpload bucket key j parts)
  | abortUpload {key i j : String} (hkey : region key = true) (hpair : (i, j) ∈ pairs)
      (bucket : String) :
      Matches region pairs (.abortUpload bucket key i) (.abortUpload bucket key j)
  | getObject {key : String} (hkey : region key = true) (bucket : String) (range : Option String) :
      Matches region pairs (.getObject bucket key range) (.getObject bucket key range)
  | putObject {key : String} (hkey : region key = true) (bucket : String) (body : Bytes)
      (type : Option String) :
      Matches region pairs (.putObject bucket key body type) (.putObject bucket key body type)
  | headObject {key : String} (hkey : region key = true) (bucket : String) :
      Matches region pairs (.headObject bucket key) (.headObject bucket key)
  | deleteObject {key : String} (hkey : region key = true) (bucket : String) :
      Matches region pairs (.deleteObject bucket key) (.deleteObject bucket key)
  | deleteObjects {keys : List String} (hkeys : ∀ key ∈ keys, region key = true) (bucket : String) :
      Matches region pairs (.deleteObjects bucket keys) (.deleteObjects bucket keys)
  | copyObject {source dest : String} (hsource : region source = true) (hdest : region dest = true)
      (bucket : String) :
      Matches region pairs (.copyObject bucket source dest) (.copyObject bucket source dest)
  | openListing : Matches region pairs .openListing .openListing

theorem Request.Matches.of_subset {region : Region} {pairs pairs' : List (String × String)}
    {r q : Request} (h : r.Matches region pairs q) (hsub : pairs ⊆ pairs') :
    r.Matches region pairs' q := by
  cases h with
  | uploadPart hkey hpair bucket number body => exact .uploadPart hkey (hsub hpair) bucket number body
  | copyPart hkey hsource hpair bucket number range =>
    exact .copyPart hkey hsource (hsub hpair) bucket number range
  | completeUpload hkey hpair bucket parts => exact .completeUpload hkey (hsub hpair) bucket parts
  | abortUpload hkey hpair bucket => exact .abortUpload hkey (hsub hpair) bucket
  | getObject hkey bucket range => exact .getObject hkey bucket range
  | putObject hkey bucket body type => exact .putObject hkey bucket body type
  | headObject hkey bucket => exact .headObject hkey bucket
  | deleteObject hkey bucket => exact .deleteObject hkey bucket
  | deleteObjects hkeys bucket => exact .deleteObjects hkeys bucket
  | copyObject hsource hdest bucket => exact .copyObject hsource hdest bucket
  | openListing => exact .openListing

namespace Store

variable {region : Region} {sharp : Prop} {s t s' t' : Store} {r q : Request}

/-- What two stores make of two requests: both refuse them in the same way, or both give the same
answer and go on together. -/
inductive SameEffect (region : Region) (sharp : Prop) (s t : Store) (r q : Request) : Prop
  | refused {f : Failure} (hleft : s.effect r = .error f) (hright : t.effect q = .error f)
  | granted {v : Value} {s' t' : Store} (hleft : s.effect r = .ok (v, s'))
      (hright : t.effect q = .ok (v, t')) (htogether : Together region sharp s t s' t')

/-- Stores that are alike answer matching requests in the same way, and stay alike. -/
theorem Alike.sameEffect (h : s.Alike region sharp t) (hr : r.Matches region (pairing region s t) q) :
    SameEffect region sharp s t r q := by
  cases hr with
  | @uploadPart key i j hkey hpair bucket number body =>
    rcases h.upload?_cases hpair key with ⟨hu, hv⟩ | ⟨u, v, hu, hv, -⟩
    · exact .refused (f := missing "UploadPart" "NoSuchUpload") (by simp only [effect, usable, hu]; rfl)
        (by simp only [effect, usable, hv]; rfl)
    · exact .granted (effect_uploadPart hu bucket number body)
        (effect_uploadPart hv bucket number body) (h.together_insertPart hpair number body)
  | @copyPart key source i j hkey hsource hpair bucket number range =>
    have hobject := h.objects source hsource
    rcases h.upload?_cases hpair key with ⟨hu, hv⟩ | ⟨u, v, hu, hv, -⟩
    · exact .refused (f := missing "UploadPartCopy" "NoSuchUpload")
        (by simp only [effect, usable, hu]; rfl) (by simp only [effect, usable, hv]; rfl)
    · rcases ho : s.objects.find? source with _ | o <;> rw [ho] at hobject
      · exact .refused (f := missing "UploadPartCopy" "NoSuchKey")
          (by simp only [effect, usable, hu, ho]; rfl)
          (by simp only [effect, usable, hv, ← hobject]; rfl)
      · exact .granted (effect_copyPart hu ho bucket number range)
          (effect_copyPart hv hobject.symm bucket number range)
          (h.together_insertPart hpair number _)
  | @completeUpload key i j hkey hpair bucket parts =>
    rcases h.upload?_cases hpair key with ⟨hu, hv⟩ | ⟨u, v, hu, hv, huv⟩
    · exact .refused (f := missing "CompleteMultipartUpload" "NoSuchUpload")
        (by simp only [effect, usable, hu]; rfl) (by simp only [effect, usable, hv]; rfl)
    · have hjoins := partsToJoin_congr h.minPartSize huv.parts parts
      by_cases hnil : parts = []
      · subst hnil
        exact .refused (f := badRequest "CompleteMultipartUpload" "MalformedXML")
          (by simp only [effect, usable, hu]; rfl) (by simp only [effect, usable, hv]; rfl)
      · rcases hjoin : s.partsToJoin u parts with f | contents <;> rw [hjoin] at hjoins
        · exact .refused (effect_completeUpload_refused hu hnil hjoin bucket)
            (effect_completeUpload_refused hv hnil hjoins.symm bucket)
        · exact .granted (effect_completeUpload hu hnil hjoin bucket)
            (effect_completeUpload hv hnil hjoins.symm bucket) (h.together_complete hpair hkey _)
  | @abortUpload key i j hkey hpair bucket =>
    rcases h.upload?_cases hpair key with ⟨hu, hv⟩ | ⟨u, v, hu, hv, -⟩
    · exact .refused (f := missing "AbortMultipartUpload" "NoSuchUpload")
        (by simp only [effect, usable, hu]; rfl) (by simp only [effect, usable, hv]; rfl)
    · exact .granted (effect_abortUpload hu bucket) (effect_abortUpload hv bucket)
        (h.together_abort hpair)
  | @getObject key hkey bucket range =>
    have hobject := h.objects key hkey
    rcases ho : s.objects.find? key with _ | o <;> rw [ho] at hobject
    · exact .refused (effect_getObject_missing ho bucket range)
        (effect_getObject_missing hobject.symm bucket range)
    · rcases hslice : slice? o.content range with _ | content
      · exact .refused (effect_getObject_past_end ho hslice bucket)
          (effect_getObject_past_end hobject.symm hslice bucket)
      · exact .granted (effect_getObject ho hslice bucket)
          (effect_getObject hobject.symm hslice bucket) h.together
  | @putObject key hkey bucket body type => exact .granted rfl rfl (h.together_putObject hkey body)
  | @headObject key hkey bucket =>
    have hobject := h.objects key hkey
    rcases ho : s.objects.find? key with _ | o <;> rw [ho] at hobject
    · exact .refused (effect_headObject_missing ho bucket)
        (effect_headObject_missing hobject.symm bucket)
    · exact .granted (effect_headObject ho bucket) (effect_headObject hobject.symm bucket)
        h.together
  | @deleteObject key hkey bucket =>
    have hkeys : ∀ other ∈ [key], region other = true := by simpa using hkey
    exact .granted rfl rfl (h.together_eraseObjects hkeys)
  | @deleteObjects keys hkeys bucket => exact .granted rfl rfl (h.together_eraseObjects hkeys)
  | @copyObject source dest hsource hdest bucket =>
    have hobject := h.objects source hsource
    rcases ho : s.objects.find? source with _ | o <;> rw [ho] at hobject
    · exact .refused (by simp only [effect, ho]; rfl) (by simp only [effect, ← hobject])
    · exact .granted (by simp only [effect, ho]; rfl) (by simp only [effect, ← hobject])
        (h.together_putObject hdest o.content)
  | openListing => exact .granted rfl rfl h.together

end Store

end ResumableStorage
