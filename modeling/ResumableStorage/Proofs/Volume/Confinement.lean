/-
  ResumableStorage/Proofs/Volume/Confinement.lean
  ===============================================
  **A volume stays below its root** — the keys of a volume are those that begin with its
  root.  Nothing else is changed by any sequence of commands, and nothing else is seen:
  two stores that hold the same below the root answer every sequence of commands in the
  same way, however large the pages of their listings are and whether or not they heed
  the front that a listing asks for.
-/
import ResumableStorage.Proofs.Volume.Desk

namespace ResumableStorage

namespace Volume

open Run

/-- The keys that begin with the root. -/
def region (v : Volume) : Region := fun key => Text.startsWith key v.root

variable {v : Volume} {sharp : Prop} {pairs : List (String × String)} {path : String}

/-! ## 1. What is asked for -/

theorem region_key (v : Volume) (path : String) : v.region (v.key path) = true :=
  v.root_prefix_key path

/-- What begins with the key of a path is below the root. -/
theorem region_of_startsWith_key {key : String} (h : Text.startsWith key (v.key path) = true) :
    v.region key = true :=
  Text.startsWith_trans h (v.root_prefix_key path)

theorem region_of_startsWith_front {key : String}
    (h : Text.startsWith key (v.frontOf path) = true) : v.region key = true :=
  region_of_startsWith_key (Text.startsWith_trans h (key_prefix_below (v.key path)))

theorem content_agree (v : Volume) (path : String) :
    Agree v.region sharp pairs .equal (v.content path) (v.content path) := by
  apply ((Client.getObject_agree (v.region_key path) v.bucket.name).notFoundAs path).bind_equal
  intro body
  exact Stream.drain_agree body

theorem reader_agree (v : Volume) (path : String) (offset : Int) :
    Agree v.region sharp pairs .equal (v.reader path offset) (v.reader path offset) := by
  unfold reader
  dsimp only
  split
  · exact agree_throw _
  · apply (Client.getRange_agree (v.region_key path) v.bucket.name offset none).attempt_equal.bind_equal
    rintro (e | body)
    · cases e with
      | storage e =>
        dsimp only
        split
        · exact agree_pure fun _ _ => rfl
        · exact agree_throw _
      | _ => exact agree_throw _
    · exact agree_decoded _

theorem statObject_agree (v : Volume) (path : String) :
    Agree v.region sharp pairs .equal (v.statObject path) (v.statObject path) := by
  unfold statObject
  dsimp only
  split
  · exact agree_pure fun _ _ => rfl
  · apply (Client.headObject_agree (v.region_key path) v.bucket.name).attempt_equal.bind_equal
    rintro (e | head)
    · dsimp only
      split
      · exact agree_pure fun _ _ => rfl
      · exact agree_throw _
      · exact agree_throw _
    · exact agree_pure fun _ _ => rfl

theorem stat_agree (v : Volume) (path : String) :
    Agree v.region sharp pairs .equal (v.stat path) (v.stat path) := by
  apply (v.statObject_agree path).bind_equal
  rintro (_ | info)
  · apply (Client.listObjects_agree (fun _ => region_of_startsWith_front) v.bucket.name none
      (some 1)).bind
    rintro pairs' listing _ hsub ⟨rfl, -⟩
    dsimp only
    split
    · exact agree_throw _
    · exact agree_pure fun _ _ => rfl
  · exact agree_pure fun _ _ => rfl

theorem list_agree (v : Volume) (path : String) :
    Agree v.region sharp pairs .equal (v.list path) (v.list path) := by
  apply (Client.listObjects_agree (fun _ => region_of_startsWith_front) v.bucket.name (some "/")
    none).bind
  rintro pairs' listing _ hsub ⟨rfl, -⟩
  exact agree_pure fun _ _ => rfl

theorem move_agree (v : Volume) (source dest : String) :
    Agree v.region sharp pairs .equal (v.move source dest) (v.move source dest) := by
  apply ((Client.copyObject_agree (v.region_key source) (v.region_key dest)
    v.bucket.name).notFoundAs source).bind_equal
  intro _
  exact Client.deleteObject_agree (v.region_key source) v.bucket.name

theorem delete_agree (v : Volume) (path : String) :
    Agree v.region sharp pairs .equal (v.delete path) (v.delete path) := by
  apply (Client.listObjects_agree (fun _ => region_of_startsWith_key) v.bucket.name none none).bind
  rintro pairs' listing _ hsub ⟨rfl, hbelow⟩
  dsimp only
  split
  · exact agree_throw _
  · apply Agree.bind_equal (Client.deleteObjects_agree ?_ v.bucket.name)
    · intro _
      exact agree_report _ _
    · intro key hkey
      obtain ⟨hmem, -⟩ := List.mem_filter.mp hkey
      obtain ⟨o, ho, rfl⟩ := List.mem_map.mp hmem
      exact region_of_startsWith_key (hbelow o ho)

theorem staleUploads_agree (v : Volume) (hsharp : sharp) (now : Instant) (path : String)
    (age : Option Age) : Agree v.region sharp pairs (Bucket.Known v.region)
      (v.staleUploads now path age) (v.staleUploads now path age) := by
  unfold staleUploads
  dsimp only
  split
  · exact agree_throw _
  · apply v.bucket.uploadsWhere_agree hsharp fun _ => region_of_startsWith_key
    intro u hu
    simp [isStale, hu]

theorem abortUploads_agree (v : Volume) (hsharp : sharp) (now : Instant) (path : String)
    (age : Option Age) (dryRun : Bool) : Agree v.region sharp pairs .equal
      (v.abortUploads now path age dryRun) (v.abortUploads now path age dryRun) := by
  apply (v.staleUploads_agree hsharp now path age).bind
  rintro pairs' stale _ hsub ⟨rfl, hknown⟩
  dsimp only
  split
  · apply Agree.bind_equal (agree_forM ?_)
    · intro _
      exact agree_pure fun _ _ => rfl
    · intro u hu
      obtain ⟨hkey, hpair⟩ := hknown u hu
      have hdecodes := Client.abortUpload_decodes (σ := Disturbed Store)
        ⟨u.uploadId, v.bucket.name, u.key⟩
      apply (hdecodes.agree hdecodes (.abortUpload hkey hpair v.bucket.name)).bind_equal
      intro _
      exact agree_report _ _
  · exact agree_pure fun _ _ => rfl

/-! ## 2. Commands -/

variable {desk desk' : Desk (Disturbed Store)}

/-- A command is answered in the same way at twin desks, and changes nothing but what is below the
root. -/
theorem perform_goes (h : desk.Twin v.region True desk') (command : Command)
    (hfresh : ∀ path, command = .writer path (.start false) → v.key path ≠ "") :
    Desk.Goes v.region True desk desk' (v.perform desk command) (v.perform desk' command) := by
  cases command with
  | content path =>
    apply h.run
    apply (v.content_agree path).bind_equal
    intro content
    exact agree_pure fun _ _ => rfl
  | putContent path content =>
    apply h.run
    apply (Client.putObject_agree (v.region_key path) v.bucket.name content _).bind_equal
    intro _
    exact agree_pure fun _ _ => rfl
  | reader path offset =>
    apply h.run
    apply (v.reader_agree path offset).bind_equal
    intro stream
    exact agree_pure fun _ _ => rfl
  | writer path step =>
    apply step_goes h (v.region_key path) step (fun _ => .inl trivial)
    intro hstep
    exact hfresh path (by rw [hstep])
  | stat path =>
    apply h.run
    apply (v.stat_agree path).bind_equal
    intro info
    exact agree_pure fun _ _ => rfl
  | list path =>
    apply h.run
    apply (v.list_agree path).bind_equal
    intro names
    exact agree_pure fun _ _ => rfl
  | move source dest =>
    apply h.run
    apply (v.move_agree source dest).bind_equal
    intro _
    exact agree_pure fun _ _ => rfl
  | delete path =>
    apply h.run
    apply (v.delete_agree path).bind_equal
    intro _
    exact agree_pure fun _ _ => rfl
  | abortUploads now path age dryRun =>
    apply h.run
    apply (v.abortUploads_agree trivial now path age dryRun).bind_equal
    intro uploads
    exact agree_pure fun _ _ => rfl

/-- Identifiers do not differ, so the answers are the same altogether. -/
theorem answer_eq {p p' : Except Error Answer × Desk (Disturbed Store)}
    (hgoes : Desk.Goes v.region True desk desk' p p') : p.1 = p'.1 := by
  obtain ⟨hanswers, htogether, htwin⟩ := hgoes
  generalize p.1 = result at hanswers ⊢
  generalize p'.1 = result' at hanswers ⊢
  cases hanswers with
  | returned hab => rw [hab.eq_of_sharp htwin.contexts trivial]
  | failed e => rfl

theorem performAll_together (h : desk.Twin v.region True desk') (commands : List Command)
    (hfresh : ∀ path, .writer path (.start false) ∈ commands → v.key path ≠ "") :
    (v.performAll desk commands).1 = (v.performAll desk' commands).1 ∧
      Context.Together v.region True desk.context desk'.context
        (v.performAll desk commands).2.context (v.performAll desk' commands).2.context := by
  induction commands generalizing desk desk' with
  | nil => exact ⟨rfl, h.contexts.together⟩
  | cons command rest ih =>
    have hgoes := perform_goes h command fun path hpath =>
      hfresh path (by rw [hpath]; exact List.mem_cons_self)
    obtain ⟨hanswers, htogether⟩ := ih hgoes.twin fun path hpath =>
      hfresh path (List.mem_cons_of_mem _ hpath)
    refine ⟨?_, hgoes.together.trans htogether⟩
    simp only [performAll]
    rw [answer_eq hgoes, hanswers]

/-! ## 3. Confinement -/

/-- **Confinement.**  Any sequence of commands changes only objects and uploads whose keys begin
with the root, and a store that holds the same below the root, with the same clock and the same
next identifier, answers all of it in the same way. -/
theorem confined_to_root (v : Volume) {c : Context (Disturbed Store)} (hcalm : c.service.IsCalm)
    (hregular : c.store.Regular) (commands : List Command)
    (hfresh : ∀ path, .writer path (.start false) ∈ commands → v.key path ≠ "") :
    c.store.Confined v.region (v.performAll c.desk commands).2.context.store ∧
      ∀ d : Context (Disturbed Store), c.Alike v.region True d →
        (v.performAll d.desk commands).1 = (v.performAll c.desk commands).1 := by
  have hself : c.Alike v.region True c :=
    ⟨hregular.alike_self v.region True, hcalm, hcalm, rfl⟩
  constructor
  · obtain ⟨-, htogether⟩ := performAll_together hself.desk_twin commands hfresh
    exact htogether.stores.left
  · intro d hcd
    obtain ⟨hanswers, -⟩ := performAll_together hcd.desk_twin commands hfresh
    exact hanswers.symm

/-! ## 4. Two tenants of a bucket -/

namespace Tenants

def volume : Volume where
  bucket := ⟨"bucket", 1000⟩
  policy := Writer.Sample.policy
  root := normalizeRoot "/r"

/-- An upload below the root, and one of another tenant. -/
def store (other : String) : Store :=
  ((Store.empty 0).startUpload other).startUpload "r/a"

def context (s : Store) : Context (Disturbed Store) where
  service := ⟨s, []⟩
  pool := ⟨Writer.Sample.policy.chunk, Writer.Sample.policy.chunk_pos, none, [], #[]⟩

/-- The store of one tenant with other habits, and an object of the other tenant. -/
def other : Store :=
  { (store "z").putObject "s/b" ByteArray.empty with uploadPageSize := 1, honourFront := true }

theorem store_regular {key : String} (hkey : key ≠ "") : (store key).Regular := by
  have hempty : (Store.empty 0).Regular :=
    ⟨Store.empty_idsInOrder 0, by simp [Store.empty], by decide⟩
  exact (hempty.addUpload hkey _ _).addUpload (by decide) _ _

theorem context_isCalm (s : Store) : (context s).service.IsCalm := by
  intro q hq
  cases hq

theorem alike : (context (store "q")).Alike volume.region True (context other) := by
  have hregular : (store "z").Regular := store_regular (by decide)
  have hsame : (store "q").uploadsIn volume.region = other.uploadsIn volume.region := by
    with_unfolding_all rfl
  refine ⟨⟨store_regular (by decide), ⟨hregular.ids, hregular.keys, by decide⟩, rfl, rfl, ?_, ?_, ?_⟩,
    context_isCalm _, context_isCalm _, rfl⟩
  · intro key hkey
    have hne : key ≠ "s/b" := by
      rintro rfl
      revert hkey
      decide +kernel
    exact (Keyed.find?_insert_of_ne _ _ hne).symm
  · change List.Forall₂ _ ((store "q").uploadsIn volume.region) (other.uploadsIn volume.region)
    rw [← hsame]
    apply List.forall₂_same.mpr
    intro u _
    exact ⟨rfl, rfl, rfl, rfl⟩
  · exact fun _ => ⟨rfl, hsame⟩

def commands : List Command :=
  [.writer "/a" (.start true), .writer "/a" (.call 0 (.write ⟨#[97]⟩)),
    .writer "/a" (.call 0 .commit), .writer "b" (.start false), .list "/",
    .move "a" "//c", .abortUploads 0 "" none false, .delete ""]

end Tenants

theorem tenant_confined :
    (Tenants.context (Tenants.store "q")).service.IsCalm ∧ (Tenants.store "q").Regular ∧
      (∀ path, .writer path (.start false) ∈ Tenants.commands → Tenants.volume.key path ≠ "") ∧
      (Tenants.store "q").Confined Tenants.volume.region
        (Tenants.volume.performAll (Tenants.context (Tenants.store "q")).desk
          Tenants.commands).2.context.store ∧
      (Tenants.volume.performAll (Tenants.context Tenants.other).desk Tenants.commands).1 =
        (Tenants.volume.performAll (Tenants.context (Tenants.store "q")).desk
          Tenants.commands).1 := by
  have hcalm := Tenants.context_isCalm (Tenants.store "q")
  have hregular : (Tenants.store "q").Regular := Tenants.store_regular (by decide)
  have hfresh : ∀ path, .writer path (.start false) ∈ Tenants.commands →
      Tenants.volume.key path ≠ "" := by
    intro path hpath
    have hb : path = "b" := by simpa [Tenants.commands] using hpath
    subst hb
    decide +kernel
  obtain ⟨hconfined, hanswers⟩ :=
    confined_to_root Tenants.volume hcalm hregular Tenants.commands hfresh
  exact ⟨hcalm, hregular, hfresh, hconfined, hanswers _ Tenants.alike⟩

end Volume

end ResumableStorage
