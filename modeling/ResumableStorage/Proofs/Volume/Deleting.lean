/-
  ResumableStorage/Proofs/Volume/Deleting.lean
  ============================================
  **Exactly a subtree is deleted** — the object at the key of a path and the objects below
  it.  The listing that the deletion starts from tells of more: of every key that begins
  with the key of the path, neighbours included.  What is left of it is named, key by key,
  in requests of a limited size.
-/
import ResumableStorage.Proofs.Service.Sweeps
import ResumableStorage.Proofs.Store.Objects
import ResumableStorage.Proofs.Volume.Confinement
import ResumableStorage.Proofs.Volume.Rounds

namespace ResumableStorage

/-! ## 1. Batches -/

namespace Client

theorem batches_nil : batches [] = [] := by
  rw [batches]
  rfl

theorem batches_of_ne_nil {keys : List String} (h : keys ≠ []) :
    batches keys = keys.take deleteBatchSize :: batches (keys.drop deleteBatchSize) := by
  rw [batches, if_neg (by simpa using h)]

/-- Every key is in one batch, and in the order of the keys. -/
theorem flatten_batches (keys : List String) : (batches keys).flatten = keys := by
  induction keys using batches.induct with
  | case1 keys hempty =>
    rw [List.isEmpty_iff.mp hempty, batches_nil]
    rfl
  | case2 keys hne ih =>
    rw [batches_of_ne_nil (by simpa using hne), List.flatten_cons, ih, List.take_append_drop]

theorem length_of_mem_batches {keys batch : List String} (h : batch ∈ batches keys) :
    0 < batch.length ∧ batch.length ≤ deleteBatchSize := by
  induction keys using batches.induct with
  | case1 keys hempty =>
    rw [List.isEmpty_iff.mp hempty, batches_nil] at h
    cases h
  | case2 keys hne ih =>
    rw [batches_of_ne_nil (by simpa using hne)] at h
    rcases List.mem_cons.mp h with rfl | h
    · have hpos : 0 < keys.length := List.length_pos_iff.mpr (by simpa using hne)
      rw [List.length_take]
      exact ⟨by simp only [deleteBatchSize]; omega, Nat.min_le_left _ _⟩
    · exact ih h

/-- Batches before the last are full. -/
theorem flatten_take_batches (keys : List String) (j : Nat) :
    ((batches keys).take j).flatten = keys.take (deleteBatchSize * j) := by
  induction keys using batches.induct generalizing j with
  | case1 keys hempty =>
    rw [List.isEmpty_iff.mp hempty, batches_nil]
    simp
  | case2 keys hne ih =>
    rw [batches_of_ne_nil (by simpa using hne)]
    cases j with
    | zero => simp
    | succ j =>
      rw [List.take_succ_cons, List.flatten_cons, ih, ← List.take_add, Nat.mul_succ, Nat.add_comm]

theorem lt_length_batches {keys : List String} {j : Nat} (h : deleteBatchSize * j < keys.length) :
    j < (batches keys).length := by
  by_contra hle
  have hall : ((batches keys).take j).flatten = keys := by
    rw [List.take_of_length_le (by omega), flatten_batches]
  rw [flatten_take_batches] at hall
  have hlength := congrArg List.length hall
  rw [List.length_take] at hlength
  omega

/-- What the answer for a batch comes to: an error when it tells of a key that is left. -/
def batchResult (answer : Value) : Except Error PUnit :=
  match undeleted? answer with
  | .error e => .error (.malformed e)
  | .ok none => .ok ()
  | .ok (some e) => .error (.storage e)

end Client

/-! ## 2. The sweep over the batches -/

namespace Volume

variable {v : Volume} {path : String} {c c' d : Context (Disturbed Store)} {keys : List String}

theorem foldl_without (s : Store) (batches : List (List String)) :
    batches.foldl Store.without s = s.without batches.flatten := by
  induction batches generalizing s with
  | nil => exact s.without_nil.symm
  | cons batch rest ih => rw [List.foldl_cons, ih, Store.without_append, List.flatten_cons]

/-- Every store grants the request for a batch. -/
def deleting (v : Volume) : Sweep (List String) where
  action := .deleteObjects
  kind := .deleteObjects
  request batch := .deleteObjects v.bucket.name batch
  change := Store.without
  ready _ _ := True
  kind_request _ := rfl
  effect_request {s batch rest} _ := by
    refine ⟨?_, trivial⟩
    rw [← Store.foldl_eraseObject_eq]
    rfl

theorem deleting_runBy (v : Volume) : v.deleting.RunBy (fun batch => do
    let answer ← Run.send .deleteObjects (.deleteObjects v.bucket.name batch)
    match ← Run.decoded (Client.undeleted? answer) with
    | none => pure ()
    | some e => throw (.storage e)) := by
  refine ⟨fun _ => Client.batchResult, fun _ => rfl, ?_⟩
  intro batch c
  refine ⟨c.notices, Run.decodes_send_bind ?_ c⟩
  intro answer c
  change _ = (Client.batchResult answer, c)
  rw [Run.execute_bind, Run.execute_decoded, Client.batchResult]
  rcases Client.undeleted? answer with e | _ | e <;> rfl

/-! ## 3. The subtree of a path -/

/-- The keys of the objects that are at the key of a path or below it, in order. -/
def subtree (v : Volume) (s : Store) (path : String) : List String :=
  s.objects.keys.filter (isWithin (v.key path))

theorem mem_subtree {s : Store} {key : String} : key ∈ v.subtree s path ↔
    (∃ o, s.objects.find? key = some o) ∧
      (key = v.key path ∨ Text.startsWith key (below (v.key path)) = true) := by
  rw [subtree, List.mem_filter, Keyed.mem_keys, isWithin, Bool.or_eq_true, decide_eq_true_eq]

theorem subtree_ascending (v : Volume) (s : Store) (path : String) :
    (v.subtree s path).Pairwise (· < ·) :=
  s.objects.keys_ascending.filter _

theorem startsWith_of_isWithin {root key : String} (h : isWithin root key = true) :
    Text.startsWith key root = true := by
  rw [isWithin, Bool.or_eq_true, decide_eq_true_eq] at h
  rcases h with rfl | h
  · exact Text.startsWith_self key
  · exact Text.startsWith_trans h (key_prefix_below root)

theorem subtree_without (v : Volume) (s : Store) (path : String) (keys : List String) :
    v.subtree (s.without keys) path = (v.subtree s path).filter (· ∉ keys) := by
  rw [subtree, Store.without, Keyed.keys_without, subtree, List.filter_filter, List.filter_filter]
  apply List.filter_congr
  intro key _
  exact Bool.and_comm _ _

/-- The listing of all keys that begin with the key of the path tells of the subtree, when keys of
neighbours are left out. -/
theorem delete_of_listing (v : Volume) (path : String)
    (hopen : c.service.IsCalmFor .openListing) (hlist : c.service.IsCalmFor .listObjects) :
    (v.subtree c.store path = [] → (v.delete path).execute c =
      (.error (.pathNotFound path), c.listed ⟨v.bucket.name, v.key path, none, none⟩)) ∧
    (v.subtree c.store path ≠ [] → ∀ result c',
      (Client.deleteObjects v.bucket.name (v.subtree c.store path)).execute
          (c.listed ⟨v.bucket.name, v.key path, none, none⟩) = (result, c') →
        ∃ notices, (v.delete path).execute c = (result, { c' with notices := notices })) := by
  have hlisting := Client.listObjects_execute hopen hlist v.bucket.name (v.key path) none none
  have hkeys : ((Store.listingOf (c.store.entries
      ⟨v.bucket.name, v.key path, none, none⟩)).objects.map ObjectSummary.key).filter
        (isWithin (v.key path)) = v.subtree c.store path := by
    rw [Store.entries_flat, Store.keys_listingOf_objects, Store.keys_below, List.filter_filter,
      subtree]
    apply List.filter_congr
    intro key _
    rcases hwithin : isWithin (v.key path) key with _ | _
    · rfl
    · rw [startsWith_of_isWithin hwithin]
      rfl
  change (Client.listObjects v.bucket.name (v.key path) none none).execute c =
    (.ok (Store.listingOf (c.store.entries ⟨v.bucket.name, v.key path, none, none⟩)),
      c.listed ⟨v.bucket.name, v.key path, none, none⟩) at hlisting
  constructor
  · intro hnone
    simp only [delete, Run.execute_bind, hlisting, hkeys, hnone, List.isEmpty_nil, if_true,
      Run.execute_throw]
  · intro hsome result c' hsweep
    simp only [delete, Run.execute_bind, hlisting, hkeys, List.isEmpty_eq_false_iff.mpr hsome,
      Bool.false_eq_true, if_false, hsweep]
    rcases result with e | ⟨⟩
    · exact ⟨c'.notices, rfl⟩
    · exact ⟨_, rfl⟩

/-! ## 4. Deletions -/

/-- The events of a listing of the keys that begin with the key of the path, and of requests for
these batches. -/
def deletion (v : Volume) (path : String) (batches : List (List String)) : List Event :=
  .sent .openListing :: .listed ⟨v.bucket.name, v.key path, none, none⟩ ::
    batches.map fun batch => .sent (.deleteObjects v.bucket.name batch)

theorem delete_returns (v : Volume) (path : String) (hopen : c.service.IsCalmFor .openListing)
    (hlist : c.service.IsCalmFor .listObjects) (hcalm : c.service.IsCalmFor .deleteObjects) :
    ∃ c', (v.delete path).execute c = (if v.subtree c.store path = [] then
        .error (.pathNotFound path) else .ok (), c') ∧
      c'.store = c.store.without (v.subtree c.store path) ∧
      c'.trace = c.trace ++ v.deletion path (Client.batches (v.subtree c.store path)) ∧
      (c.service.IsCalm → c'.service.IsCalm) := by
  obtain ⟨hnone, hsome⟩ := v.delete_of_listing path hopen hlist
  by_cases hempty : v.subtree c.store path = []
  · refine ⟨_, by rw [hnone hempty, if_pos hempty], ?_, ?_, fun h => Context.isCalm_listed h _⟩
    · rw [hempty, Store.without_nil, Context.listed_store]
    · rw [hempty, Client.batches_nil]
      rfl
  · have hlets : (c.listed ⟨v.bucket.name, v.key path, none, none⟩).service.Lets .deleteObjects
        (Client.batches (v.subtree c.store path)).length := by
      intro x hx
      rw [c.listed_queue _ (by decide) (by decide)] at hx
      exact hcalm x (List.mem_of_mem_take hx)
    obtain ⟨c₁, hsweep, hswept⟩ := v.deleting_runBy.forM_returns trivial hlets
    obtain ⟨notices, hrun⟩ := hsome hempty _ c₁ hsweep
    refine ⟨{ c₁ with notices := notices }, by rw [hrun, if_neg hempty], ?_, ?_,
      fun h => hswept.calm (Context.isCalm_listed h _)⟩
    · change c₁.store = _
      rw [hswept.store, Context.listed_store]
      exact (foldl_without _ _).trans (by rw [Client.flatten_batches])
    · change c₁.trace = _
      rw [hswept.trace]
      simp [Context.listed, deletion, deleting]

theorem delete_fails (v : Volume) (path : String) (hopen : c.service.IsCalmFor .openListing)
    (hlist : c.service.IsCalmFor .listObjects) {j : Nat} {f : Failure}
    (hj : Client.deleteBatchSize * j < (v.subtree c.store path).length)
    (hplan : c.service.FailsAfter .deleteObjects j f) :
    ∃ c', (v.delete path).execute c = (.error (.storage (.failed .deleteObjects f)), c') ∧
      c'.store = c.store.without ((v.subtree c.store path).take (Client.deleteBatchSize * j)) ∧
      c'.trace = c.trace ++
        v.deletion path ((Client.batches (v.subtree c.store path)).take (j + 1)) := by
  have hne : v.subtree c.store path ≠ [] := by
    intro hempty
    rw [hempty] at hj
    exact Nat.not_lt_zero _ hj
  have hplan' : (c.listed ⟨v.bucket.name, v.key path, none, none⟩).service.FailsAfter
      .deleteObjects j f := hplan.of_queue_eq (c.listed_queue _ (by decide) (by decide))
  obtain ⟨c₁, hsweep, hswept⟩ := v.deleting_runBy.forM_fails trivial hplan'
    (Client.lt_length_batches hj)
  obtain ⟨notices, hrun⟩ := (v.delete_of_listing path hopen hlist).2 hne _ c₁ hsweep
  refine ⟨_, hrun, ?_, ?_⟩
  · change c₁.store = _
    rw [hswept.store, Context.listed_store]
    exact (foldl_without _ _).trans (by rw [Client.flatten_take_batches])
  · change c₁.trace = _
    rw [hswept.trace]
    simp [Context.listed, deletion, deleting]

/-- What is left of an ascending list without its first items. -/
theorem filter_not_mem_take {l : List String} (h : l.Pairwise (· < ·)) (n : Nat) :
    l.filter (· ∉ l.take n) = l.drop n := by
  have hnodup : (l.take n ++ l.drop n).Nodup := by
    rw [List.take_append_drop]
    exact h.imp fun hlt => hlt.ne
  obtain ⟨-, -, hdisjoint⟩ := List.nodup_append.mp hnodup
  have hfront : (l.take n).filter (· ∉ l.take n) = [] :=
    List.filter_eq_nil_iff.mpr fun key hkey => by simpa using hkey
  have hrest : (l.drop n).filter (· ∉ l.take n) = l.drop n :=
    List.filter_eq_self.mpr fun key hkey =>
      decide_eq_true fun htake => hdisjoint key htake key hkey rfl
  calc l.filter (· ∉ l.take n)
      = (l.take n ++ l.drop n).filter (· ∉ l.take n) := by rw [List.take_append_drop]
    _ = l.drop n := by rw [List.filter_append, hfront, hrest, List.nil_append]

/-- **A deletion removes exactly the subtree of its path.**  The keys of the subtree are named in
order, each in one request of at most a thousand keys; everything else is left as it is.  Nothing
is found exactly when the subtree is empty.  Where the request for a batch fails before it takes
effect, the batches before it are deleted, no further request is sent, and another deletion removes
what is left. -/
theorem delete_removes_subtree (v : Volume) (path : String)
    (hopen : c.service.IsCalmFor .openListing) (hlist : c.service.IsCalmFor .listObjects) :
    ∃ keys : List String, keys.Pairwise (· < ·) ∧
      (∀ key, key ∈ keys ↔ (∃ o, c.store.objects.find? key = some o) ∧
        (key = v.key path ∨ Text.startsWith key (below (v.key path)) = true)) ∧
      (Client.batches keys).flatten = keys ∧
      (∀ batch ∈ Client.batches keys, 0 < batch.length ∧ batch.length ≤ 1000) ∧
      (c.service.IsCalmFor .deleteObjects → ∃ result c', (v.delete path).execute c = (result, c') ∧
        ((result = .error (.pathNotFound path) ∧ c'.store = c.store) ↔ keys = []) ∧
        (keys ≠ [] → result = .ok () ∧ c'.store = c.store.without keys) ∧
        c'.trace = c.trace ++ v.deletion path (Client.batches keys)) ∧
      ∀ j f, 1000 * j < keys.length → c.service.FailsAfter .deleteObjects j f →
        ∃ c', (v.delete path).execute c = (.error (.storage (.failed .deleteObjects f)), c') ∧
          c'.store = c.store.without (keys.take (1000 * j)) ∧
          c'.trace = c.trace ++ v.deletion path ((Client.batches keys).take (j + 1)) ∧
          ∀ d, d.service.IsCalm → d.store = c'.store →
            ∃ d', (v.delete path).execute d = (.ok (), d') ∧ d'.store = c.store.without keys := by
  refine ⟨v.subtree c.store path, v.subtree_ascending c.store path, fun key => mem_subtree,
    Client.flatten_batches _, fun batch hbatch => Client.length_of_mem_batches hbatch, ?_, ?_⟩
  · intro hcalm
    obtain ⟨c', hrun, hstore, htrace, -⟩ := v.delete_returns path hopen hlist hcalm
    refine ⟨_, c', hrun, ?_, ?_, htrace⟩
    · by_cases hempty : v.subtree c.store path = []
      · simp [hempty, hstore, Store.without_nil]
      · simp [hempty]
    · intro hne
      exact ⟨if_neg hne, hstore⟩
  · intro j f hj hplan
    obtain ⟨c', hrun, hstore, htrace⟩ := v.delete_fails path hopen hlist hj hplan
    refine ⟨c', hrun, hstore, htrace, ?_⟩
    intro d hcalm hd
    have hleft : v.subtree d.store path = (v.subtree c.store path).drop (1000 * j) := by
      rw [hd, hstore, subtree_without]
      exact filter_not_mem_take (v.subtree_ascending c.store path) _
    have hne : v.subtree d.store path ≠ [] := by
      rw [hleft]
      exact mt List.drop_eq_nil_iff.mp (by omega)
    obtain ⟨d', hagain, hstore', -⟩ := v.delete_returns path (hcalm.calmFor _) (hcalm.calmFor _)
      (hcalm.calmFor _)
    refine ⟨d', by rw [hagain, if_neg hne], ?_⟩
    rw [hstore', hleft, hd, hstore]
    exact (Store.without_append _ _ _).trans (congrArg _ (List.take_append_drop _ _))

namespace Sample

/-- A path with something below it, and a neighbour. -/
def family : Store :=
  (((Store.empty 0).putObject "root/foobar" ⟨#[1]⟩).putObject "root/foo/a" ⟨#[2]⟩).putObject
    "root/foo" ⟨#[3]⟩

/-- The first request that deletes objects fails. -/
def undeletable : Context (Disturbed Store) where
  service := ⟨family, [(.deleteObjects, [some ⟨false, .fails (.unreachable "down")⟩])]⟩
  pool := context.pool

theorem family_foo : family.objects.find? "root/foo" = some ⟨⟨#[3]⟩, 0⟩ :=
  Keyed.find?_insert_self _ _ _

end Sample

/-- The deletion fails, and another one removes what is at the path but not its neighbour. -/
theorem deletion_is_repeated : ∃ c' d',
    (Sample.volume.delete "/foo").execute Sample.undeletable =
      (.error (.storage (.failed .deleteObjects (.unreachable "down"))), c') ∧
    (Sample.volume.delete "/foo").execute
      { Sample.undeletable with service := Disturbed.calm c'.store } = (.ok (), d') ∧
    d'.store.objects.find? "root/foo" = none ∧
    d'.store.objects.find? "root/foobar" = Sample.family.objects.find? "root/foobar" := by
  have hopen : Sample.undeletable.service.IsCalmFor .openListing := nofun
  have hlist : Sample.undeletable.service.IsCalmFor .listObjects := nofun
  have hplan : Sample.undeletable.service.FailsAfter .deleteObjects 0 (.unreachable "down") :=
    ⟨nofun, rfl⟩
  obtain ⟨keys, -, hmem, -, -, -, hfails⟩ :=
    Sample.volume.delete_removes_subtree "/foo" hopen hlist
  have hkey : Sample.volume.key "/foo" = "root/foo" := by decide
  have hfoo : "root/foo" ∈ keys := (hmem _).mpr ⟨⟨_, Sample.family_foo⟩, .inl hkey.symm⟩
  have hneighbour : "root/foobar" ∉ keys := by
    intro h
    have hwithin := ((hmem _).mp h).2
    revert hwithin
    decide
  obtain ⟨c', hrun, -, -, hagain⟩ := hfails 0 _ (List.length_pos_of_mem hfoo) hplan
  obtain ⟨d', hrun', hstore⟩ := hagain { Sample.undeletable with
    service := Disturbed.calm c'.store } (Disturbed.calm_isCalm _) rfl
  refine ⟨c', d', hrun, hrun', ?_, ?_⟩
  · rw [hstore]
    exact (Keyed.find?_without _ _ _).trans (if_pos hfoo)
  · rw [hstore]
    exact (Keyed.find?_without _ _ _).trans (if_neg hneighbour)

end Volume

end ResumableStorage
