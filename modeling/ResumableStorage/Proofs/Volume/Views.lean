/-
  ResumableStorage/Proofs/Volume/Views.lean
  =========================================
  **The views of a path agree** — what is read at a path as a whole, what is read from an
  offset on, what is told of it, and whether there is something to delete.  Each of them
  asks the store in its own way and reads its refusals in its own way; as functions of
  the store they come to the same.
-/
import ResumableStorage.Proofs.Client.Reading
import ResumableStorage.Proofs.Volume.Deleting

namespace ResumableStorage

/-! ## 1. Streams -/

namespace Stream

/-- However a stream is read, what is read up to its end is all that was left of it. -/
theorem readEach_to_end (s : Stream) (hfailure : s.failure = none)
    (hposition : s.position ≤ s.content.size) (ns : List Int) :
    ∃ chunks, s.readEach (ns ++ [-1]) = .ok chunks ∧
      Bytes.concat chunks = s.content.extract s.position s.content.size := by
  induction ns generalizing s with
  | nil =>
    refine ⟨[s.content.extract s.position s.content.size], ?_, ?_⟩
    · simp [readEach, read, hfailure, bind, Except.bind, pure, Except.pure]
    · simp [Bytes.concat]
  | cons n rest ih =>
    let stop := if n < 0 then s.content.size else min s.content.size (s.position + n.toNat)
    have hstop : s.position ≤ stop ∧ stop ≤ s.content.size := by
      simp only [stop]
      split <;> omega
    have hread : s.read n =
        .ok (s.content.extract s.position stop, { s with position := stop }) := by
      simp only [read, hfailure]
      rfl
    obtain ⟨chunks, hrest, hconcat⟩ := ih { s with position := stop } hfailure hstop.2
    refine ⟨s.content.extract s.position stop :: chunks, ?_, ?_⟩
    · simp only [List.cons_append, readEach, hread, hrest, bind, Except.bind]
      rfl
    · rw [← List.singleton_append, Bytes.concat_append, hconcat]
      simp [Bytes.concat, ByteArray.extract_append_extract, hstop.1, hstop.2]

theorem drain_sees (s : Store) (content : Bytes) :
    (drain (.stream content none)).Sees s (.ok content) :=
  fun _ hcalm hstore => ⟨_, Writer.drain_stream content, hcalm, hstore⟩

end Stream

/-! ## 2. What is seen at a path -/

theorem Run.Sees.result {α : Type} {x : Run (Disturbed Store) α} {s : Store}
    {result : Except Error α} (h : x.Sees s result) {c : Context (Disturbed Store)}
    (hcalm : c.service.IsCalm) (hstore : c.store = s) : (x.execute c).1 = result := by
  obtain ⟨c', hrun, -, -⟩ := h c hcalm hstore
  rw [hrun]

namespace Volume

open Run

variable {v : Volume} {path : String} {s : Store} {o : StoredObject}
  {c c' : Context (Disturbed Store)}

theorem content_sees (ho : s.objects.find? (v.key path) = some o) :
    (v.content path).Sees s (.ok o.content) :=
  ((Client.getObject_sees ho v.bucket.name).notFoundAs path).bind (Stream.drain_sees s o.content)

theorem content_sees_none (ho : s.objects.find? (v.key path) = none) :
    (v.content path).Sees s (.error (.pathNotFound path)) :=
  ((Client.getObject_sees_none ho v.bucket.name).notFoundAs path).bind_error

theorem reader_sees (ho : s.objects.find? (v.key path) = some o) (n : Nat) :
    (v.reader path n).Sees s (.ok (if o.content.size ≤ n then .nothing
      else { content := o.content.extract n o.content.size })) := by
  have hrange := (Client.getRange_sees ho v.bucket.name n).attempt
  rw [reader, if_neg (Int.not_lt.mpr (Int.natCast_nonneg n))]
  by_cases hend : o.content.size ≤ n
  · rw [if_pos hend] at hrange ⊢
    exact hrange.bind (sees_pure _)
  · rw [if_neg hend] at hrange ⊢
    exact hrange.bind (sees_decoded _)

theorem reader_sees_none (ho : s.objects.find? (v.key path) = none) (n : Nat) :
    (v.reader path n).Sees s (.error (.pathNotFound path)) := by
  rw [reader, if_neg (Int.not_lt.mpr (Int.natCast_nonneg n))]
  exact (Client.getRange_sees_none ho v.bucket.name n none).attempt.bind (sees_throw _)

/-- The object at a path; there is none at the path of a directory only. -/
def objectAt? (v : Volume) (s : Store) (path : String) : Option StoredObject :=
  if isDirectoryKey (v.key path) then none else s.objects.find? (v.key path)

/-- What a store holds at a path. -/
def infoAt (v : Volume) (s : Store) (path : String) : Except Error PathInfo :=
  match v.objectAt? s path with
  | some o => .ok ⟨path, o.content.size, .time o.modified, false⟩
  | none =>
    if (s.below (v.frontOf path)).isEmpty then .error (.pathNotFound path)
    else .ok ⟨path, 0, .null, true⟩

theorem statObject_sees (v : Volume) (s : Store) (path : String) :
    (v.statObject path).Sees s (.ok ((v.objectAt? s path).map fun o =>
      ⟨path, o.content.size, .time o.modified, false⟩)) := by
  unfold statObject objectAt?
  dsimp only
  split
  · exact sees_pure _
  · rcases ho : s.objects.find? (v.key path) with _ | o
    · exact (Client.headObject_sees_none ho v.bucket.name).attempt.bind (sees_pure _)
    · exact (Client.headObject_sees ho v.bucket.name).attempt.bind (sees_pure _)

theorem stat_sees (v : Volume) (s : Store) (path : String) :
    (v.stat path).Sees s (v.infoAt s path) := by
  rw [stat, infoAt]
  rcases hobject : v.objectAt? s path with _ | o
  · have hnone := v.statObject_sees s path
    rw [hobject] at hnone
    have hlisting := Client.listObjects_sees s v.bucket.name (v.frontOf path) none (some 1)
    refine hnone.bind (hlisting.bind ?_)
    have hfirst := s.listingOf_first v.bucket.name (v.frontOf path)
    by_cases hempty : (s.below (v.frontOf path)).isEmpty
    · rw [if_pos hempty]
      exact (if_pos (hfirst.trans hempty)).symm ▸ (sees_throw _).bind_error
    · rw [if_neg hempty]
      exact (if_neg (hfirst ▸ hempty)).symm ▸ sees_pure _
  · have hsome := v.statObject_sees s path
    rw [hobject] at hsome
    exact hsome.bind (sees_pure _)

/-! ## 3. The views agree -/

theorem infoAt_eq_error_iff : v.infoAt s path = .error (.pathNotFound path) ↔
    v.objectAt? s path = none ∧ s.below (v.frontOf path) = [] := by
  unfold infoAt
  rcases v.objectAt? s path with _ | o
  · by_cases hempty : s.below (v.frontOf path) = [] <;> simp [hempty]
  · simp

/-- Nothing is told of a path exactly when there is nothing to delete. -/
theorem infoAt_eq_error_iff_subtree :
    v.infoAt s path = .error (.pathNotFound path) ↔ v.subtree s path = [] := by
  rw [infoAt_eq_error_iff, List.eq_nil_iff_forall_not_mem, List.eq_nil_iff_forall_not_mem]
  constructor
  · rintro ⟨hobject, hbelow⟩ key hkey
    obtain ⟨⟨o, ho⟩, rfl | hfront⟩ := mem_subtree.mp hkey
    · rw [objectAt?] at hobject
      split at hobject
      · rename_i hdirectory
        refine hbelow (v.key path, o) (Store.mem_below.mpr ⟨ho, ?_⟩)
        rw [frontOf, below, if_pos hdirectory]
        exact Text.startsWith_self _
      · rw [ho] at hobject
        cases hobject
    · exact hbelow (key, o) (Store.mem_below.mpr ⟨ho, hfront⟩)
  · intro hnone
    refine ⟨?_, ?_⟩
    · rcases hobject : v.objectAt? s path with _ | o
      · rfl
      · rw [objectAt?] at hobject
        split at hobject
        · cases hobject
        · exact absurd (mem_subtree.mpr ⟨⟨o, hobject⟩, .inl rfl⟩) (hnone _)
    · rintro ⟨key, o⟩ hkey
      obtain ⟨ho, hfront⟩ := Store.mem_below.mp hkey
      exact hnone key (mem_subtree.mpr ⟨⟨o, ho⟩, .inr hfront⟩)

theorem objectAt?_eq (hkey : isDirectoryKey (v.key path) = false) (s : Store) :
    v.objectAt? s path = s.objects.find? (v.key path) := by
  rw [objectAt?, hkey]
  rfl

theorem frontOf_eq (hkey : isDirectoryKey (v.key path) = false) :
    v.frontOf path = v.key path ++ "/" := by
  rw [frontOf, below, hkey]
  rfl

/-- Without an object a path is that of a directory exactly when a key goes on behind it and a
slash; else nothing is told of it. -/
theorem infoAt_cases (hobject : v.objectAt? s path = none) :
    (v.infoAt s path = .ok ⟨path, 0, .null, true⟩ ∧
        ∃ key o, s.objects.find? key = some o ∧ Text.startsWith key (v.frontOf path) = true) ∨
      v.infoAt s path = .error (.pathNotFound path) ∧
        ¬ ∃ key o, s.objects.find? key = some o ∧ Text.startsWith key (v.frontOf path) = true := by
  rw [← Store.below_ne_nil_iff]
  by_cases hempty : s.below (v.frontOf path) = [] <;> simp [infoAt, hobject, hempty]

/-- From an offset on, the rest of an object is read, however its stream is read. -/
theorem reader_rest (hcalm : c.service.IsCalm) (ho : c.store.objects.find? (v.key path) = some o)
    (offset : Nat) : ∃ stream, ((v.reader path offset).execute c).1 = .ok stream ∧
      ∀ ns, ∃ chunks, stream.readEach (ns ++ [-1]) = .ok chunks ∧
        Bytes.concat chunks = o.content.extract offset o.content.size := by
  refine ⟨_, (reader_sees ho offset).result hcalm rfl, ?_⟩
  intro ns
  by_cases hend : o.content.size ≤ offset
  · rw [if_pos hend]
    obtain ⟨chunks, hread, hconcat⟩ := Stream.nothing.readEach_to_end rfl le_rfl ns
    have hrest : o.content.extract offset o.content.size = ByteArray.empty :=
      ByteArray.extract_eq_empty_iff.mpr ((Nat.min_le_left _ _).trans hend)
    rw [hrest]
    exact ⟨chunks, hread, hconcat⟩
  · rw [if_neg hend]
    obtain ⟨chunks, hread, hconcat⟩ := Stream.readEach_to_end
      { content := o.content.extract offset o.content.size } rfl (Nat.zero_le _) ns
    exact ⟨chunks, hread, hconcat.trans ByteArray.extract_zero_size⟩

/-- An object at a path is read as a whole, and told of with its size. -/
theorem views_of_object (hcalm : c.service.IsCalm) (hkey : isDirectoryKey (v.key path) = false)
    (ho : c.store.objects.find? (v.key path) = some o) :
    ((v.content path).execute c).1 = .ok o.content ∧
      ((v.stat path).execute c).1 = .ok ⟨path, o.content.size, .time o.modified, false⟩ := by
  refine ⟨(content_sees ho).result hcalm rfl, ?_⟩
  rw [(v.stat_sees c.store path).result hcalm rfl, infoAt, objectAt?_eq hkey, ho]

/-- Without an object nothing is read, and what is told of a path is that it is a directory, or that
nothing is there. -/
theorem views_of_none (hcalm : c.service.IsCalm) (hkey : isDirectoryKey (v.key path) = false)
    (ho : c.store.objects.find? (v.key path) = none) :
    ((v.content path).execute c).1 = .error (.pathNotFound path) ∧
      (∀ offset : Nat, ((v.reader path offset).execute c).1 = .error (.pathNotFound path)) ∧
      (((v.stat path).execute c).1 = .ok ⟨path, 0, .null, true⟩ ∧
          (∃ key o, c.store.objects.find? key = some o ∧
            Text.startsWith key (v.key path ++ "/") = true) ∨
        ((v.stat path).execute c).1 = .error (.pathNotFound path) ∧
          ¬ ∃ key o, c.store.objects.find? key = some o ∧
            Text.startsWith key (v.key path ++ "/") = true) := by
  refine ⟨(content_sees_none ho).result hcalm rfl, fun offset =>
    (reader_sees_none ho offset).result hcalm rfl, ?_⟩
  rw [(v.stat_sees c.store path).result hcalm rfl, ← frontOf_eq hkey]
  exact infoAt_cases ((objectAt?_eq hkey c.store).trans ho)

/-- There is something to delete exactly when there is something to tell of. -/
theorem delete_eq_error_iff_stat (v : Volume) (path : String) (hcalm : c.service.IsCalm) :
    ((v.delete path).execute c).1 = .error (.pathNotFound path) ↔
      ((v.stat path).execute c).1 = .error (.pathNotFound path) := by
  obtain ⟨c', hrun, -⟩ := v.delete_returns path (hcalm.calmFor _) (hcalm.calmFor _)
    (hcalm.calmFor _)
  rw [hrun, (v.stat_sees c.store path).result hcalm rfl, infoAt_eq_error_iff_subtree]
  by_cases hempty : v.subtree c.store path = [] <;> simp [hempty]

/-- After a deletion there is nothing at its path. -/
theorem gone_after_delete (hcalm : c.service.IsCalm)
    (hdeleted : (v.delete path).execute c = (.ok (), c')) :
    ((v.stat path).execute c').1 = .error (.pathNotFound path) ∧
      ((v.content path).execute c').1 = .error (.pathNotFound path) := by
  obtain ⟨c₁, hrun, hstore, -, hcalm'⟩ := v.delete_returns path (hcalm.calmFor _)
    (hcalm.calmFor _) (hcalm.calmFor _)
  rw [hdeleted] at hrun
  obtain ⟨-, rfl⟩ := Prod.mk.inj hrun
  have hnone : v.subtree c'.store path = [] := by
    rw [hstore, subtree_without]
    simp
  have ho : c'.store.objects.find? (v.key path) = none := by
    rcases ho : c'.store.objects.find? (v.key path) with _ | o
    · rfl
    · have hmem := mem_subtree.mpr ⟨⟨o, ho⟩, .inl rfl⟩
      rw [hnone] at hmem
      cases hmem
  refine ⟨?_, (content_sees_none ho).result (hcalm' hcalm) rfl⟩
  rw [(v.stat_sees c'.store path).result (hcalm' hcalm) rfl]
  exact infoAt_eq_error_iff_subtree.mpr hnone

/-- **The views of a path agree.**  Where the key of the path is not that of a directory only, an
object there is read as a whole and told of with its size, and neither happens without the other;
from an offset on, its stream gives exactly the rest of it, however it is read.  Without an object
both ways of reading say that there is nothing at the path, and what is told of it is whether a key
goes on behind it and a slash.  At every path there is something to delete exactly when there is
something to tell of, and after a deletion there is nothing. -/
theorem views_agree (v : Volume) (path : String) (hcalm : c.service.IsCalm) :
    (isDirectoryKey (v.key path) = false →
      (∀ o, c.store.objects.find? (v.key path) = some o →
        ((v.content path).execute c).1 = .ok o.content) ∧
      (∀ n : Nat, (∃ data, ((v.content path).execute c).1 = .ok data ∧ data.size = n) ↔
        ∃ info, ((v.stat path).execute c).1 = .ok info ∧ info.isDirectory = false ∧
          info.size = n) ∧
      (∀ data, ((v.content path).execute c).1 = .ok data → ∀ offset : Nat,
        ∃ stream, ((v.reader path offset).execute c).1 = .ok stream ∧
          ∀ ns, ∃ chunks, stream.readEach (ns ++ [-1]) = .ok chunks ∧
            Bytes.concat chunks = data.extract offset data.size) ∧
      (c.store.objects.find? (v.key path) = none →
        ((v.content path).execute c).1 = .error (.pathNotFound path) ∧
        (∀ offset : Nat, ((v.reader path offset).execute c).1 = .error (.pathNotFound path)) ∧
        ((∃ info, ((v.stat path).execute c).1 = .ok info ∧ info.isDirectory = true) ↔
          ∃ key o, c.store.objects.find? key = some o ∧
            Text.startsWith key (v.key path ++ "/") = true) ∧
        ((¬ ∃ key o, c.store.objects.find? key = some o ∧
            Text.startsWith key (v.key path ++ "/") = true) →
          ((v.stat path).execute c).1 = .error (.pathNotFound path)))) ∧
    (((v.delete path).execute c).1 = .error (.pathNotFound path) ↔
      ((v.stat path).execute c).1 = .error (.pathNotFound path)) ∧
    ∀ c', (v.delete path).execute c = (.ok (), c') →
      ((v.stat path).execute c').1 = .error (.pathNotFound path) ∧
      ((v.content path).execute c').1 = .error (.pathNotFound path) := by
  refine ⟨?_, v.delete_eq_error_iff_stat path hcalm, fun c' => gone_after_delete hcalm⟩
  intro hkey
  rcases ho : c.store.objects.find? (v.key path) with _ | o
  · obtain ⟨hcontent, hreader, hstat⟩ := views_of_none hcalm hkey ho
    rw [hcontent]
    refine ⟨nofun, ?_, nofun, fun _ => ⟨rfl, hreader, ?_, ?_⟩⟩
    · intro n
      rcases hstat with ⟨hstat, -⟩ | ⟨hstat, -⟩ <;> simp [hstat]
    · rcases hstat with ⟨hstat, hbelow⟩ | ⟨hstat, hbelow⟩
      · exact iff_of_true ⟨_, hstat, rfl⟩ hbelow
      · exact iff_of_false (by simp [hstat]) hbelow
    · intro hnone
      rcases hstat with ⟨-, hbelow⟩ | ⟨hstat, -⟩
      · exact absurd hbelow hnone
      · exact hstat
  · obtain ⟨hcontent, hstat⟩ := views_of_object hcalm hkey ho
    rw [hcontent, hstat]
    refine ⟨?_, ?_, ?_, nofun⟩
    · rintro _ ⟨⟩
      rfl
    · intro n
      simp
    · rintro _ ⟨⟩
      exact reader_rest hcalm ho

/-- An object of one byte, its size, and the nothing that is left at its end. -/
theorem family_views :
    let c := { Sample.undeletable with service := Disturbed.calm Sample.family }
    c.service.IsCalm ∧ isDirectoryKey (Sample.volume.key "/foo") = false ∧
    ((Sample.volume.content "/foo").execute c).1 = .ok ⟨#[3]⟩ ∧
    (∃ info, ((Sample.volume.stat "/foo").execute c).1 = .ok info ∧ info.isDirectory = false ∧
      info.size = 1) ∧
    ∃ stream chunks, ((Sample.volume.reader "/foo" 1).execute c).1 = .ok stream ∧
      stream.readEach [-1] = .ok chunks ∧ Bytes.concat chunks = ByteArray.empty := by
  intro c
  have hcalm : c.service.IsCalm := Disturbed.calm_isCalm _
  have hkey : isDirectoryKey (Sample.volume.key "/foo") = false := by decide
  have hfoo : Sample.volume.key "/foo" = "root/foo" := by decide
  obtain ⟨hviews, -, -⟩ := Sample.volume.views_agree "/foo" hcalm
  obtain ⟨hobject, hsize, hread, -⟩ := hviews hkey
  have hcontent : ((Sample.volume.content "/foo").execute c).1 = .ok ⟨#[3]⟩ :=
    hobject _ (hfoo ▸ Sample.family_foo)
  obtain ⟨stream, hstream, hchunks⟩ := hread _ hcontent 1
  obtain ⟨chunks, hchunk, hconcat⟩ := hchunks []
  exact ⟨hcalm, hkey, hcontent, (hsize 1).mp ⟨_, hcontent, rfl⟩, stream, chunks, hstream, hchunk,
    hconcat.trans rfl⟩

end Volume

end ResumableStorage
