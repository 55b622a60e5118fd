/-
  ResumableStorage/Proofs/Store/Objects.lean
  ==========================================
  **The objects of a store** — erasing several of them, and what a listing tells of those
  below a front.  Without a delimiter it tells of every object.  With one, the keys in
  which it follows are collapsed: each front is told of once, and the objects below the
  fronts are those whose keys were collapsed.
-/
import ResumableStorage.Proofs.Client.Listings

namespace ResumableStorage

/-! ## 1. Erasing several objects -/

namespace Keyed

variable {β : Type}

/-- The table without the entries of some keys. -/
def without (t : Keyed String β) (keys : List String) : Keyed String β :=
  ⟨t.entries.filter fun e => e.1 ∉ keys, t.ascending.filter _⟩

theorem without_nil (t : Keyed String β) : t.without [] = t := by
  simp [without]

theorem erase_without (t : Keyed String β) (key : String) (keys : List String) :
    (t.erase key).without keys = t.without (key :: keys) := by
  simp only [without, erase, List.filter_filter, mk.injEq]
  apply List.filter_congr
  intro e _
  by_cases hkey : e.1 = key <;> simp [hkey]

theorem without_append (t : Keyed String β) (keys more : List String) :
    (t.without keys).without more = t.without (keys ++ more) := by
  simp only [without, List.filter_filter, mk.injEq]
  apply List.filter_congr
  intro e _
  by_cases hkey : e.1 ∈ keys <;> simp [hkey]

theorem keys_without (t : Keyed String β) (keys : List String) :
    (t.without keys).keys = t.keys.filter (· ∉ keys) := by
  simp only [without, Keyed.keys, List.filter_map]
  rfl

theorem find?_without (t : Keyed String β) (keys : List String) (key : String) :
    (t.without keys).find? key = if key ∈ keys then none else t.find? key := by
  rw [find?, without, Store.lookup_filter_keys fun key => decide (key ∉ keys)]
  by_cases hkey : key ∈ keys <;> simp [hkey, find?]

theorem mem_entries {t : Keyed String β} {key : String} {b : β} :
    (key, b) ∈ t.entries ↔ t.find? key = some b := by
  constructor
  · intro hmem
    exact Part.find?_of_mem hmem
  · intro hfind
    obtain ⟨l₁, l₂, hentries, -⟩ := List.lookup_eq_some_iff.mp hfind
    rw [hentries]
    simp

theorem mem_keys {t : Keyed String β} {key : String} :
    key ∈ t.keys ↔ ∃ b, t.find? key = some b := by
  simp [Keyed.keys, mem_entries]

theorem keys_ascending (t : Keyed String β) : t.keys.Pairwise (· < ·) :=
  List.pairwise_map.mpr t.ascending

end Keyed

namespace Store

variable {s : Store} {front : String}

/-- The store without some of its objects. -/
def without (s : Store) (keys : List String) : Store :=
  { s with objects := s.objects.without keys }

theorem without_nil (s : Store) : s.without [] = s := by
  simp [without, Keyed.without_nil]

theorem foldl_eraseObject_eq (s : Store) (keys : List String) :
    keys.foldl eraseObject s = s.without keys := by
  induction keys generalizing s with
  | nil => exact s.without_nil.symm
  | cons key rest ih =>
    rw [List.foldl_cons, ih]
    simp only [without, eraseObject, Keyed.erase_without]

theorem without_append (s : Store) (keys more : List String) :
    (s.without keys).without more = s.without (keys ++ more) := by
  simp only [without, Keyed.without_append]

/-! ## 2. Listings without a delimiter -/

/-- The entries of the objects below a front. -/
def below (s : Store) (front : String) : List (String × StoredObject) :=
  s.objects.entries.filter fun e => Text.startsWith e.1 front

theorem mem_below {key : String} {o : StoredObject} : (key, o) ∈ s.below front ↔
    s.objects.find? key = some o ∧ Text.startsWith key front = true := by
  rw [below, List.mem_filter, Keyed.mem_entries]

theorem below_ne_nil_iff : s.below front ≠ [] ↔
    ∃ key o, s.objects.find? key = some o ∧ Text.startsWith key front = true := by
  constructor
  · intro hne
    obtain ⟨⟨key, o⟩, hmem⟩ := List.exists_mem_of_ne_nil _ hne
    exact ⟨key, o, mem_below.mp hmem⟩
  · rintro ⟨key, o, hmem⟩
    exact List.ne_nil_of_mem (mem_below.mpr hmem)

theorem keys_below (s : Store) (front : String) :
    (s.below front).map Prod.fst = s.objects.keys.filter fun key => Text.startsWith key front := by
  rw [below, Keyed.keys, List.filter_map]
  rfl

def objectOf (e : String × StoredObject) : Entry := .object e.1 e.2

theorem withoutRepeats_objects (seen : List String) (l : List (String × StoredObject)) :
    withoutRepeats seen (l.map objectOf) = l.map objectOf := by
  induction l with
  | nil => rfl
  | cons e rest ih => exact congrArg (objectOf e :: ·) ih

/-- Without a delimiter a listing tells of every object below the front. -/
theorem entries_flat (s : Store) (bucket front : String) :
    s.entries ⟨bucket, front, none, none⟩ = (s.below front).map objectOf :=
  withoutRepeats_objects [] _

theorem keys_listingOf_objects (l : List (String × StoredObject)) :
    (listingOf (l.map objectOf)).objects.map ObjectSummary.key = l.map Prod.fst := by
  induction l with
  | nil => rfl
  | cons e rest ih => exact congrArg (e.1 :: ·) ih

/-- A listing of one object tells whether there is any. -/
theorem listingOf_first (s : Store) (bucket front : String) :
    (listingOf (s.entries ⟨bucket, front, none, some 1⟩)).objects.isEmpty =
      (s.below front).isEmpty := by
  have hentries : s.entries ⟨bucket, front, none, some 1⟩ =
      limitObjects 1 ((s.below front).map objectOf) :=
    congrArg (limitObjects 1) (withoutRepeats_objects [] _)
  rw [hentries]
  cases s.below front <;> rfl

/-! ## 3. Listings up to a slash -/

theorem upTo?_of_not_mem {c : Char} {cs : List Char} (h : c ∉ cs) : upTo? [c] cs = none := by
  induction cs with
  | nil => rfl
  | cons d rest ih =>
    have hne : c ≠ d := List.ne_of_not_mem_cons h
    simp [upTo?, hne, ih (List.not_mem_of_not_mem_cons h)]

theorem upTo?_append {c : Char} {segment : List Char} (h : c ∉ segment) (rest : List Char) :
    upTo? [c] (segment ++ c :: rest) = some (segment ++ [c]) := by
  induction segment with
  | nil => simp [upTo?]
  | cons d segment ih =>
    have hne : c ≠ d := List.ne_of_not_mem_cons h
    simp [upTo?, hne, ih (List.not_mem_of_not_mem_cons h)]

/-- The front that a key is collapsed into: it goes on up to the next slash. -/
def frontAt? (front key : String) : Option String :=
  (upTo? ['/'] (key.toList.drop front.length)).map fun rest => front ++ String.ofList rest

/-- A key is collapsed into the fronts that it starts with and that go on by one segment. -/
theorem frontAt?_eq_some_iff {key t : String} (hkey : Text.startsWith key front = true) :
    frontAt? front key = some t ↔
      ∃ segment : String, '/' ∉ segment.toList ∧ t = front ++ segment ++ "/" ∧
        Text.startsWith key t = true := by
  obtain ⟨rest, rfl⟩ := Text.startsWith_iff.mp hkey
  have hdrop : (front ++ rest).toList.drop front.length = rest.toList := by
    rw [String.toList_append, ← String.length_toList, List.drop_left]
  rw [frontAt?, hdrop]
  constructor
  · intro h
    by_cases hslash : '/' ∈ rest.toList
    · obtain ⟨segment, behind, hrest, hsegment⟩ := List.eq_append_cons_of_mem hslash
      rw [hrest, upTo?_append hsegment, Option.map_some, Option.some.injEq] at h
      have ht : front ++ String.ofList segment ++ "/" = t := by
        rw [← h, ← String.toList_inj]
        simp
      refine ⟨String.ofList segment, by simpa using hsegment, ht.symm, ?_⟩
      refine Text.startsWith_iff.mpr ⟨String.ofList behind, ?_⟩
      rw [← ht, ← String.toList_inj]
      simp [hrest]
    · rw [upTo?_of_not_mem hslash] at h
      cases h
  · rintro ⟨segment, hsegment, rfl, ht⟩
    obtain ⟨behind, hbehind⟩ := Text.startsWith_iff.mp ht
    have hrest : rest.toList = segment.toList ++ '/' :: behind.toList := by
      have hlists := congrArg String.toList hbehind
      simpa [List.append_assoc] using hlists
    rw [hrest, upTo?_append hsegment, Option.map_some, Option.some.injEq, ← String.toList_inj]
    simp

/-- The entries that a listing up to a slash tells of one by one. -/
def leaves (s : Store) (front : String) : List (String × StoredObject) :=
  (s.below front).filter fun e => (frontAt? front e.1).isNone

def entryUpTo (front : String) (e : String × StoredObject) : Entry :=
  match frontAt? front e.1 with
  | none => objectOf e
  | some t => .front t

/-- The fronts that it collapses the other entries into. -/
def branches (s : Store) (front : String) : List String :=
  (withoutRepeats [] ((s.below front).map (entryUpTo front))).filterMap Entry.front?

/-- Leaving out repeated fronts leaves out no object. -/
theorem summaries_withoutRepeats (seen : List String) (l : List Entry) :
    (withoutRepeats seen l).filterMap Entry.summary? = l.filterMap Entry.summary? := by
  induction l generalizing seen with
  | nil => rfl
  | cons e rest ih =>
    cases e with
    | object key o => simpa [withoutRepeats, Entry.summary?] using ih seen
    | front t =>
      rw [withoutRepeats]
      split
      · exact ih seen
      · exact ih (t :: seen)

/-- Every front stays once, but those seen before. -/
theorem fronts_withoutRepeats (seen : List String) (l : List Entry) :
    ((withoutRepeats seen l).filterMap Entry.front?).Nodup ∧
      ∀ t, t ∈ (withoutRepeats seen l).filterMap Entry.front? ↔
        t ∉ seen ∧ t ∈ l.filterMap Entry.front? := by
  induction l generalizing seen with
  | nil => exact ⟨List.nodup_nil, by simp [withoutRepeats]⟩
  | cons e rest ih =>
    cases e with
    | object key o => exact ih seen
    | front u =>
      have hfront : ∀ l, (Entry.front u :: l).filterMap Entry.front? =
          u :: l.filterMap Entry.front? := fun _ => rfl
      rw [withoutRepeats, hfront rest]
      by_cases hseen : u ∈ seen
      · rw [if_pos (List.contains_iff_mem.mpr hseen)]
        refine ⟨(ih seen).1, fun t => ((ih seen).2 t).trans ?_⟩
        grind
      · rw [if_neg (mt List.contains_iff_mem.mp hseen), hfront]
        obtain ⟨hnodup, hmem⟩ := ih (u :: seen)
        refine ⟨List.nodup_cons.mpr ⟨?_, hnodup⟩, ?_⟩
        · simp [hmem]
        · intro t
          rw [List.mem_cons, hmem]
          grind

theorem entryOf_slash (bucket front : String) (e : String × StoredObject) :
    entryOf ⟨bucket, front, some "/", none⟩ e.1 e.2 = entryUpTo front e := by
  have hslash : "/".toList = ['/'] := rfl
  simp only [entryOf, entryUpTo, frontAt?, hslash]
  cases upTo? ['/'] (e.1.toList.drop front.length) <;> rfl

theorem branches_nodup (s : Store) (front : String) : (s.branches front).Nodup :=
  (fronts_withoutRepeats [] _).1

theorem mem_branches {t : String} :
    t ∈ s.branches front ↔ ∃ e ∈ s.below front, frontAt? front e.1 = some t := by
  rw [branches, (fronts_withoutRepeats [] _).2 t]
  simp only [List.not_mem_nil, not_false_eq_true, true_and, List.mem_filterMap, List.mem_map,
    exists_exists_and_eq_and]
  refine exists_congr fun e => and_congr_right fun _ => ?_
  rw [entryUpTo]
  rcases frontAt? front e.1 with _ | u
  · exact iff_of_false nofun nofun
  · exact Iff.rfl

/-- A listing up to a slash tells of the leaves and of the branches. -/
theorem listingOf_slash (s : Store) (bucket front : String) :
    ((listingOf (s.entries ⟨bucket, front, some "/", none⟩)).objects.map ObjectSummary.key =
        (s.leaves front).map Prod.fst) ∧
      (listingOf (s.entries ⟨bucket, front, some "/", none⟩)).fronts = s.branches front := by
  have hentries : s.entries ⟨bucket, front, some "/", none⟩ =
      withoutRepeats [] ((s.below front).map (entryUpTo front)) :=
    congrArg (withoutRepeats []) (List.map_congr_left fun e _ => entryOf_slash bucket front e)
  rw [hentries]
  refine ⟨?_, rfl⟩
  rw [listingOf, summaries_withoutRepeats, leaves]
  induction s.below front with
  | nil => rfl
  | cons e rest ih =>
    rw [List.map_cons, List.filter_cons, entryUpTo]
    rcases frontAt? front e.1 with _ | u
    · exact congrArg (e.1 :: ·) ih
    · exact ih

theorem below_nodup (s : Store) (front : String) : (s.below front).Nodup :=
  (s.objects.ascending.imp fun hlt heq => absurd (congrArg Prod.fst heq) hlt.ne).filter _

/-- What lies below a branch was collapsed into it, and nothing else was. -/
theorem mem_below_branch {t : String} (ht : t ∈ s.branches front) {e : String × StoredObject} :
    e ∈ s.below t ↔ e ∈ s.below front ∧ frontAt? front e.1 = some t := by
  obtain ⟨e', he', hcollapsed⟩ := mem_branches.mp ht
  obtain ⟨segment, hsegment, rfl, -⟩ := (frontAt?_eq_some_iff (mem_below.mp he').2).mp hcollapsed
  constructor
  · intro he
    obtain ⟨ho, hstarts⟩ := mem_below.mp he
    have hfront : Text.startsWith e.1 front = true :=
      Text.startsWith_trans hstarts (Text.startsWith_iff.mpr ⟨segment ++ "/", String.append_assoc ..⟩)
    exact ⟨mem_below.mpr ⟨ho, hfront⟩,
      (frontAt?_eq_some_iff hfront).mpr ⟨segment, hsegment, rfl, hstarts⟩⟩
  · rintro ⟨he, hfrontAt⟩
    obtain ⟨ho, hfront⟩ := mem_below.mp he
    obtain ⟨-, -, -, hstarts⟩ := (frontAt?_eq_some_iff hfront).mp hfrontAt
    exact mem_below.mpr ⟨ho, hstarts⟩

theorem below_branches_nodup (s : Store) (front : String) :
    ((s.branches front).flatMap s.below).Nodup := by
  refine List.nodup_flatMap.mpr ⟨fun t _ => s.below_nodup t, ?_⟩
  refine (s.branches_nodup front).imp_of_mem ?_
  intro t u ht hu hne e het heu
  have hsame := ((mem_below_branch ht).mp het).2.symm.trans ((mem_below_branch hu).mp heu).2
  exact hne (Option.some.inj hsame)

/-- **Leaves and branches are a partition**: an object below a front is either told of by itself or
below exactly one of the branches. -/
theorem below_perm (s : Store) (front : String) :
    (s.below front).Perm (s.leaves front ++ (s.branches front).flatMap s.below) := by
  have hnodup : (s.leaves front ++ (s.branches front).flatMap s.below).Nodup := by
    refine List.nodup_append.mpr
      ⟨(s.below_nodup front).filter _, s.below_branches_nodup front, ?_⟩
    rintro e hleaf _ hother rfl
    obtain ⟨t, ht, he⟩ := List.mem_flatMap.mp hother
    have hnone := (List.mem_filter.mp hleaf).2
    rw [((mem_below_branch ht).mp he).2] at hnone
    cases hnone
  refine (List.perm_ext_iff_of_nodup (s.below_nodup front) hnodup).mpr fun e => ?_
  rw [List.mem_append, leaves, List.mem_filter, List.mem_flatMap]
  constructor
  · intro he
    rcases hcollapsed : frontAt? front e.1 with _ | t
    · exact .inl ⟨he, rfl⟩
    · have ht := mem_branches.mpr ⟨e, he, hcollapsed⟩
      exact .inr ⟨t, ht, (mem_below_branch ht).mpr ⟨he, hcollapsed⟩⟩
  · rintro (⟨he, -⟩ | ⟨t, ht, he⟩)
    · exact he
    · exact ((mem_below_branch ht).mp he).1

end Store

end ResumableStorage
