/-
  ResumableStorage/Proofs/Volume/Walking.lean
  ===========================================
  **Walks** — who lists a directory, asks what each entry is, and goes on in those that
  are directories, comes to every object below it.  A listing gives the objects of one
  level and one entry for each directory there, and the path of a directory leads back to
  the front of the keys below it, so that the walk follows the partition of the keys at
  their slashes.
-/
import ResumableStorage.Proofs.Volume.Confinement
import ResumableStorage.Proofs.Volume.Views

namespace ResumableStorage

/-! ## 1. Segments -/

namespace Text

/-- Segments that are not empty, joined by slashes. -/
inductive Segmented : List Char → Prop where
  | one {segment : List Char} (hne : segment ≠ []) (hslash : '/' ∉ segment) : Segmented segment
  | more {segment rest : List Char} (hne : segment ≠ []) (hslash : '/' ∉ segment)
      (hrest : Segmented rest) : Segmented (segment ++ '/' :: rest)

namespace Segmented

variable {cs front behind : List Char}

theorem ne_nil (h : Segmented cs) : cs ≠ [] := by
  cases h with
  | one hne => exact hne
  | more => simp

theorem append (h : Segmented front) (h' : Segmented behind) :
    Segmented (front ++ '/' :: behind) := by
  induction h with
  | one hne hslash => exact .more hne hslash h'
  | more hne hslash _ ih =>
    rw [List.append_assoc, List.cons_append]
    exact .more hne hslash ih

/-- Cut at a slash, segments are left on both sides. -/
theorem of_append (h : Segmented (front ++ '/' :: behind)) :
    Segmented front ∧ Segmented behind := by
  generalize hcs : front ++ '/' :: behind = cs at h
  induction h generalizing front with
  | one hne hslash =>
    subst hcs
    exact absurd (by simp) hslash
  | @more segment rest hne hslash hrest ih =>
    rcases List.append_eq_append_iff.mp hcs with ⟨more, rfl, hmore⟩ | ⟨more, rfl, hmore⟩
    · rcases more with _ | ⟨d, more⟩
      · obtain rfl := (List.cons.inj hmore).2
        rw [List.append_nil] at hne hslash
        exact ⟨.one hne hslash, hrest⟩
      · obtain rfl := (List.cons.inj hmore).1
        exact absurd (by simp) hslash
    · rcases more with _ | ⟨d, more⟩
      · obtain rfl := (List.cons.inj hmore).2
        rw [List.append_nil]
        exact ⟨.one hne hslash, hrest⟩
      · obtain ⟨rfl, rfl⟩ := List.cons.inj hmore
        obtain ⟨hfront, hbehind⟩ := ih rfl
        exact ⟨.more hne hslash hfront, hbehind⟩

/-- The first character is no slash. -/
theorem exists_cons (h : Segmented cs) : ∃ c rest, cs = c :: rest ∧ c ≠ '/' := by
  rcases cs with _ | ⟨c, rest⟩
  · exact absurd rfl h.ne_nil
  · refine ⟨c, rest, rfl, ?_⟩
    rintro rfl
    have hcut : Segmented ([] ++ '/' :: rest) := h
    exact hcut.of_append.1.ne_nil rfl

/-- The last character is no slash. -/
theorem exists_concat (h : Segmented cs) : ∃ rest c, cs = rest ++ [c] ∧ c ≠ '/' := by
  rcases List.eq_nil_or_concat' cs with rfl | ⟨rest, c, rfl⟩
  · exact absurd rfl h.ne_nil
  · refine ⟨rest, c, rfl, ?_⟩
    rintro rfl
    exact h.of_append.2.ne_nil rfl

end Segmented

variable {rest : String}

theorem stripFront_slash (h : Segmented rest.toList) : stripFront ("/" ++ rest) '/' = rest := by
  obtain ⟨c, cs, hcs, hc⟩ := h.exists_cons
  rw [stripFront, ← String.toList_inj]
  simp [hcs, hc]

theorem stripEnd_slash (h : Segmented rest.toList) (front : String) :
    stripEnd (front ++ rest ++ "/") '/' = front ++ rest := by
  obtain ⟨cs, c, hcs, hc⟩ := h.exists_concat
  rw [stripEnd, ← String.toList_inj]
  simp [hcs, hc]

end Text

/-! ## 2. Paths of keys -/

namespace Volume

variable {v : Volume} {rest : String}

theorem pathOf_append (v : Volume) (rest : String) : v.pathOf (v.root ++ rest) = "/" ++ rest := by
  rw [pathOf, Text.dropFront, String.toList_append, ← String.length_toList, List.drop_left,
    String.ofList_toList]

/-- A path leads back to its key. -/
theorem key_pathOf (h : Text.Segmented rest.toList) :
    v.key (v.pathOf (v.root ++ rest)) = v.root ++ rest := by
  rw [pathOf_append, key, Text.stripFront_slash h]

theorem isDirectoryKey_segmented (h : Text.Segmented rest.toList) (front : String) :
    isDirectoryKey (front ++ rest) = false := by
  obtain ⟨cs, c, hcs, hc⟩ := h.exists_concat
  have hne : front ++ rest ≠ "" := by
    rw [Ne, ← String.toList_inj]
    simp [hcs]
  have hlast : Text.endsWithChar (front ++ rest) '/' = false := by
    rw [Text.endsWithChar, String.toList_append, hcs, ← List.append_assoc, List.getLast?_concat]
    simpa using hc
  simp [isDirectoryKey, hne, hlast]

theorem frontOf_pathOf (h : Text.Segmented rest.toList) :
    v.frontOf (v.pathOf (v.root ++ rest)) = v.root ++ rest ++ "/" := by
  rw [frontOf_eq (by rw [key_pathOf h, isDirectoryKey_segmented h]), key_pathOf h]

/-! ## 3. Tidy volumes -/

/-- Below its root a volume holds keys of segments only, and no object is stored where others have
a directory. -/
structure Tidy (v : Volume) (s : Store) : Prop where
  segmented : ∀ rest, v.root ++ rest ∈ s.objects.keys → Text.Segmented rest.toList
  separate : ∀ rest more, v.root ++ rest ∈ s.objects.keys →
    v.root ++ rest ++ "/" ++ more ∉ s.objects.keys

variable {path front t : String} {s : Store} {e : String × StoredObject} {o : StoredObject}

theorem frontOf_startsWith_root (v : Volume) (path : String) :
    Text.startsWith (v.frontOf path) v.root = true :=
  Text.startsWith_trans (key_prefix_below _) (v.root_prefix_key path)

/-- The path of a directory, as a listing names it. -/
def directoryOf (v : Volume) (t : String) : String :=
  v.pathOf (Text.stripEnd t '/')

namespace Tidy

variable (h : v.Tidy s)

include h

/-- A stored key below a front is the root and segments. -/
theorem of_below (hfront : Text.startsWith front v.root = true) (he : e ∈ s.below front) :
    ∃ rest, e.1 = v.root ++ rest ∧ Text.Segmented rest.toList ∧
      v.root ++ rest ∈ s.objects.keys := by
  obtain ⟨ho, hstarts⟩ := Store.mem_below.mp he
  obtain ⟨rest, hrest⟩ := Text.startsWith_iff.mp (Text.startsWith_trans hstarts hfront)
  have hkey : v.root ++ rest ∈ s.objects.keys := Keyed.mem_keys.mpr ⟨e.2, hrest ▸ ho⟩
  exact ⟨rest, hrest, h.segmented rest hkey, hkey⟩

theorem key_pathOf_below (hfront : Text.startsWith front v.root = true) (he : e ∈ s.below front) :
    v.key (v.pathOf e.1) = e.1 := by
  obtain ⟨rest, hrest, hsegmented, -⟩ := h.of_below hfront he
  rw [hrest, key_pathOf hsegmented]

/-- At the path of a stored key there is its object. -/
theorem infoAt_below (hfront : Text.startsWith front v.root = true) (he : e ∈ s.below front) :
    v.infoAt s (v.pathOf e.1) =
      .ok ⟨v.pathOf e.1, e.2.content.size, .time e.2.modified, false⟩ := by
  obtain ⟨rest, hrest, hsegmented, -⟩ := h.of_below hfront he
  have hkey := h.key_pathOf_below hfront he
  have hdirectory : isDirectoryKey (v.key (v.pathOf e.1)) = false := by
    rw [hkey, hrest, isDirectoryKey_segmented hsegmented]
  have ho : v.objectAt? s (v.pathOf e.1) = some e.2 := by
    rw [objectAt?_eq hdirectory, hkey]
    exact (Store.mem_below.mp he).1
  rw [infoAt, ho]

/-- A branch of a listing is the root, segments and a slash, and some stored key goes on behind. -/
theorem of_branch (hfront : Text.startsWith front v.root = true) (ht : t ∈ s.branches front) :
    ∃ rest, t = v.root ++ rest ++ "/" ∧ Text.Segmented rest.toList ∧
      front.length < t.length ∧ ∃ e ∈ s.below front, e ∈ s.below t ∧
        ∃ more, e.1 = v.root ++ rest ++ "/" ++ more := by
  obtain ⟨e, he, hcollapsed⟩ := Store.mem_branches.mp ht
  obtain ⟨segment, -, rfl, hstarts⟩ :=
    (Store.frontAt?_eq_some_iff (Store.mem_below.mp he).2).mp hcollapsed
  obtain ⟨rest, hrest, hsegmented, -⟩ := h.of_below hfront he
  obtain ⟨inner, rfl⟩ := Text.startsWith_iff.mp hfront
  obtain ⟨more, hmore⟩ := Text.startsWith_iff.mp hstarts
  have hlists : rest.toList = (inner ++ segment).toList ++ '/' :: more.toList := by
    have hkeys := congrArg String.toList (hrest.symm.trans hmore)
    simpa [List.append_assoc] using hkeys
  refine ⟨inner ++ segment, by simp only [String.append_assoc], ?_, ?_, e, he,
    (Store.mem_below_branch ht).mpr ⟨he, hcollapsed⟩, more, ?_⟩
  · rw [hlists] at hsegmented
    exact hsegmented.of_append.1
  · have hslash : "/".length = 1 := rfl
    simp only [String.length_append, hslash]
    omega
  · rw [hmore]
    simp only [String.append_assoc]

/-- The path of a branch leads back to the front of what lies below it. -/
theorem frontOf_directoryOf (hfront : Text.startsWith front v.root = true)
    (ht : t ∈ s.branches front) : v.frontOf (v.directoryOf t) = t := by
  obtain ⟨rest, rfl, hsegmented, -⟩ := h.of_branch hfront ht
  rw [directoryOf, Text.stripEnd_slash hsegmented, frontOf_pathOf hsegmented]

/-- At the path of a branch there is a directory. -/
theorem infoAt_directoryOf (hfront : Text.startsWith front v.root = true)
    (ht : t ∈ s.branches front) :
    v.infoAt s (v.directoryOf t) = .ok ⟨v.directoryOf t, 0, .null, true⟩ := by
  have hback := h.frontOf_directoryOf hfront ht
  obtain ⟨rest, rfl, hsegmented, -, e, he, hbelow, more, hmore⟩ := h.of_branch hfront ht
  have hpath : v.directoryOf (v.root ++ rest ++ "/") = v.pathOf (v.root ++ rest) := by
    rw [directoryOf, Text.stripEnd_slash hsegmented]
  have hkey : v.key (v.directoryOf (v.root ++ rest ++ "/")) = v.root ++ rest := by
    rw [hpath, key_pathOf hsegmented]
  have hobject : v.objectAt? s (v.directoryOf (v.root ++ rest ++ "/")) = none := by
    rw [objectAt?_eq (by rw [hkey, isDirectoryKey_segmented hsegmented]), hkey]
    rcases ho : s.objects.find? (v.root ++ rest) with _ | o
    · rfl
    · refine absurd ?_ (h.separate rest more (Keyed.mem_keys.mpr ⟨o, ho⟩))
      rw [← hmore]
      exact Keyed.mem_keys.mpr ⟨e.2, (Store.mem_below.mp he).1⟩
  have hne : (s.below (v.root ++ rest ++ "/")).isEmpty = false :=
    List.isEmpty_eq_false_iff.mpr (List.ne_nil_of_mem hbelow)
  rw [infoAt, hobject]
  simp [hback, hne]

end Tidy

/-! ## 4. Walks -/

def filesAt (v : Volume) (s : Store) (path : String) : List String :=
  (s.leaves (v.frontOf path)).map fun e => v.pathOf e.1

def directoriesAt (v : Volume) (s : Store) (path : String) : List String :=
  (s.branches (v.frontOf path)).map v.directoryOf

/-- A listing names the files, then the directories. -/
theorem list_sees (v : Volume) (s : Store) (path : String) :
    (v.list path).Sees s (.ok (v.filesAt s path ++ v.directoriesAt s path)) := by
  have hlisting := Client.listObjects_sees s v.bucket.name (v.frontOf path) (some "/") none
  obtain ⟨hleaves, hbranches⟩ := s.listingOf_slash v.bucket.name (v.frontOf path)
  have hfiles := congrArg (List.map v.pathOf) hleaves
  rw [List.map_map, List.map_map] at hfiles
  have hnames : v.filesAt s path ++ v.directoriesAt s path = _ :=
    congrArg₂ (· ++ ·) hfiles.symm (congrArg (List.map v.directoryOf) hbranches.symm)
  rw [hnames]
  exact hlisting.bind (Run.sees_pure _)

section

variable {σ : Type} [Service σ]

/-- What an entry of a listing adds to a walk: itself, or what is come to in its directory. -/
def visit (v : Volume) (walkOn : String → Run σ (List String)) (name : String) :
    Run σ (List String) := do
  if (← v.stat name).isDirectory then walkOn name else return [name]

/-- The paths of the objects that are come to from a path.  Walks that go deeper than `depth` are
given up. -/
def walk (v : Volume) : Nat → String → Run σ (List String)
  | 0, _ => throw .endlessListing
  | depth + 1, path => do
    let names ← v.list path
    let visited ← names.mapM (v.visit (v.walk depth))
    return visited.flatten

end

theorem visit_sees_file {walkOn : String → Run (Disturbed Store) (List String)} {name : String}
    {info : PathInfo} (hinfo : v.infoAt s name = .ok info) (hfile : info.isDirectory = false) :
    (v.visit walkOn name).Sees s (.ok [name]) := by
  have hstat := v.stat_sees s name
  rw [hinfo] at hstat
  refine hstat.bind ?_
  rw [hfile]
  exact Run.sees_pure _

theorem visit_sees_directory {walkOn : String → Run (Disturbed Store) (List String)}
    {name : String} {info : PathInfo} {paths : List String} (hinfo : v.infoAt s name = .ok info)
    (hdirectory : info.isDirectory = true) (hwalk : (walkOn name).Sees s (.ok paths)) :
    (v.visit walkOn name).Sees s (.ok paths) := by
  have hstat := v.stat_sees s name
  rw [hinfo] at hstat
  refine hstat.bind ?_
  rw [hdirectory]
  exact hwalk

namespace Tidy

variable (h : v.Tidy s)

include h

theorem paths_nodup (hfront : Text.startsWith front v.root = true) :
    ((s.below front).map fun e => v.pathOf e.1).Nodup := by
  have hkeys : ((s.below front).map Prod.fst).Nodup := by
    rw [Store.keys_below]
    exact (s.objects.keys_ascending.imp fun hlt => hlt.ne).filter _
  refine List.Nodup.map_on ?_ (s.below_nodup front)
  intro e he e' he' hpaths
  have hsame := congrArg v.key hpaths
  rw [h.key_pathOf_below hfront he, h.key_pathOf_below hfront he'] at hsame
  exact List.inj_on_of_nodup_map hkeys he he' hsame

/-- A walk sees the files of its listing, then what is come to in each directory. -/
theorem walk_step {depth : Nat} {visited : String → List String}
    (hbranch : ∀ t ∈ s.branches (v.frontOf path),
      (v.walk depth (v.directoryOf t)).Sees s (.ok (visited t))) :
    (v.walk (depth + 1) path).Sees s
      (.ok (v.filesAt s path ++ (s.branches (v.frontOf path)).flatMap visited)) := by
  have hroot := v.frontOf_startsWith_root path
  have hfiles : List.Forall₂ (fun name paths => (v.visit (v.walk depth) name).Sees s (.ok paths))
      (v.filesAt s path) ((s.leaves (v.frontOf path)).map fun e => [v.pathOf e.1]) := by
    rw [filesAt, List.forall₂_map_left_iff, List.forall₂_map_right_iff, List.forall₂_same]
    intro e he
    exact visit_sees_file (h.infoAt_below hroot (List.mem_of_mem_filter he)) rfl
  have hdirectories : List.Forall₂
      (fun name paths => (v.visit (v.walk depth) name).Sees s (.ok paths))
      (v.directoriesAt s path) ((s.branches (v.frontOf path)).map visited) := by
    rw [directoriesAt, List.forall₂_map_left_iff, List.forall₂_map_right_iff, List.forall₂_same]
    intro t ht
    exact visit_sees_directory (h.infoAt_directoryOf hroot ht) rfl (hbranch t ht)
  have hpaths : v.filesAt s path ++ (s.branches (v.frontOf path)).flatMap visited =
      ((s.leaves (v.frontOf path)).map (fun e => [v.pathOf e.1]) ++
        (s.branches (v.frontOf path)).map visited).flatten := by
    rw [filesAt, List.flatten_append, ← List.flatMap_def, ← List.flatMap_def, List.map_eq_flatMap]
  rw [hpaths, walk]
  exact (v.list_sees s path).bind
    ((Run.Sees.mapM (List.rel_append hfiles hdirectories)).bind (Run.sees_pure _))

/-- What is come to from a path is come to by itself or below one of the branches. -/
theorem walk_extends {n : Nat}
    (hbranch : ∀ t ∈ s.branches (v.frontOf path), ∃ paths : List String,
      (∀ depth, n ≤ depth → (v.walk depth (v.directoryOf t)).Sees s (.ok paths)) ∧
        paths.Perm ((s.below t).map fun e => v.pathOf e.1)) :
    ∃ visited : List String, (∀ depth, n < depth → (v.walk depth path).Sees s (.ok visited)) ∧
      visited.Perm ((s.below (v.frontOf path)).map fun e => v.pathOf e.1) := by
  choose! paths hrun hperm using hbranch
  refine ⟨v.filesAt s path ++ (s.branches (v.frontOf path)).flatMap paths, ?_, ?_⟩
  · intro depth hdepth
    obtain ⟨depth, rfl⟩ := Nat.exists_eq_add_one_of_ne_zero (Nat.ne_zero_of_lt hdepth)
    exact h.walk_step fun t ht => hrun t ht depth (Nat.le_of_lt_succ hdepth)
  · have hbelow := (s.below_perm (v.frontOf path)).map fun e => v.pathOf e.1
    rw [List.map_append, List.map_flatMap] at hbelow
    exact ((List.Perm.flatMap_left _ hperm).append_left _).trans hbelow.symm

/-- **Every walk that is deep enough sees the same paths**, those of the objects below its start. -/
theorem walk_sees (n : Nat) (path : String)
    (hdepth : ∀ e ∈ s.below (v.frontOf path), e.1.length ≤ (v.frontOf path).length + n) :
    ∃ visited : List String, (∀ depth, n < depth → (v.walk depth path).Sees s (.ok visited)) ∧
      visited.Perm ((s.below (v.frontOf path)).map fun e => v.pathOf e.1) := by
  induction n generalizing path with
  | zero =>
    refine h.walk_extends fun t ht => ?_
    obtain ⟨-, -, -, hlonger, e, he, hbelow, -⟩ :=
      h.of_branch (v.frontOf_startsWith_root path) ht
    have hshorter := Text.length_le_of_startsWith (Store.mem_below.mp hbelow).2
    exact absurd (hdepth e he) (by omega)
  | succ n ih =>
    refine h.walk_extends fun t ht => ?_
    have hroot := v.frontOf_startsWith_root path
    obtain ⟨-, -, -, hlonger, -⟩ := h.of_branch hroot ht
    have hfront := h.frontOf_directoryOf hroot ht
    obtain ⟨paths, hrun, hperm⟩ := ih (v.directoryOf t) (by
      rw [hfront]
      intro e he
      have := hdepth e ((Store.mem_below_branch ht).mp he).1
      omega)
    rw [hfront] at hperm
    exact ⟨paths, fun depth hle => hrun depth hle, hperm⟩

/-- In every listing the files come first, then the directories, and nothing is named twice. -/
theorem list_in_order (path : String) : ∃ files directories : List String,
    (v.list path).Sees s (.ok (files ++ directories)) ∧ (files ++ directories).Nodup ∧
      (∀ file ∈ files, ∃ info, (v.stat file).Sees s (.ok info) ∧ info.isDirectory = false) ∧
      ∀ directory ∈ directories, ∃ info, (v.stat directory).Sees s (.ok info) ∧
        info.isDirectory = true := by
  have hroot := v.frontOf_startsWith_root path
  have hfile : ∀ e ∈ s.leaves (v.frontOf path), v.infoAt s (v.pathOf e.1) =
      .ok ⟨v.pathOf e.1, e.2.content.size, .time e.2.modified, false⟩ :=
    fun e he => h.infoAt_below hroot (List.mem_of_mem_filter he)
  refine ⟨v.filesAt s path, v.directoriesAt s path, v.list_sees s path, ?_, ?_, ?_⟩
  · refine List.nodup_append.mpr ⟨?_, ?_, ?_⟩
    · exact (h.paths_nodup hroot).sublist (List.filter_sublist.map _)
    · refine List.Nodup.map_on ?_ (s.branches_nodup _)
      intro t ht u hu hsame
      rw [← h.frontOf_directoryOf hroot ht, hsame, h.frontOf_directoryOf hroot hu]
    · -- what is at a path is a file or a directory, not both
      rintro name hleaf _ hbranch rfl
      obtain ⟨e, he, rfl⟩ := List.mem_map.mp hleaf
      obtain ⟨t, ht, hsame⟩ := List.mem_map.mp hbranch
      have hdirectory := h.infoAt_directoryOf hroot ht
      rw [hsame, hfile e he] at hdirectory
      simp at hdirectory
  · intro file hmem
    obtain ⟨e, he, rfl⟩ := List.mem_map.mp hmem
    exact ⟨_, hfile e he ▸ v.stat_sees s _, rfl⟩
  · intro directory hmem
    obtain ⟨t, ht, rfl⟩ := List.mem_map.mp hmem
    exact ⟨_, h.infoAt_directoryOf hroot ht ▸ v.stat_sees s _, rfl⟩

/-- **A walk comes to every object once.**  Below the root the keys are segments joined by slashes,
and no object is stored where others have a directory.  From any path a walk ends; it visits the
paths of the objects that are stored below, each of them once, and what is read at each path is the
content of its object.  In every listing the files come before the directories, and nothing is named
twice. -/
theorem walk_visits_every_object (path : String) :
    (∃ (visited : List String) (bound : Nat),
      (∀ depth, bound ≤ depth → (v.walk depth path).Sees s (.ok visited)) ∧ visited.Nodup ∧
      visited.Perm ((s.below (v.frontOf path)).map fun e => v.pathOf e.1)) ∧
    (∀ key o, s.objects.find? key = some o → Text.startsWith key (v.frontOf path) = true →
      (v.content (v.pathOf key)).Sees s (.ok o.content)) ∧
    ∀ path, ∃ files directories : List String,
      (v.list path).Sees s (.ok (files ++ directories)) ∧ (files ++ directories).Nodup ∧
      (∀ file ∈ files, ∃ info, (v.stat file).Sees s (.ok info) ∧ info.isDirectory = false) ∧
      ∀ directory ∈ directories, ∃ info, (v.stat directory).Sees s (.ok info) ∧
        info.isDirectory = true := by
  have hroot := v.frontOf_startsWith_root path
  refine ⟨?_, ?_, h.list_in_order⟩
  · let lengths := (s.below (v.frontOf path)).map fun e => e.1.length
    have hlengths : ∀ e ∈ s.below (v.frontOf path), e.1.length ≤ lengths.sum :=
      fun e he => List.le_sum_of_mem (List.mem_map.mpr ⟨e, he, rfl⟩)
    obtain ⟨visited, hrun, hperm⟩ := h.walk_sees lengths.sum path fun e he =>
      (hlengths e he).trans (Nat.le_add_left _ _)
    exact ⟨visited, lengths.sum + 1, fun depth hdepth => hrun depth hdepth,
      hperm.nodup_iff.mpr (h.paths_nodup hroot), hperm⟩
  · intro key o ho hkey
    apply content_sees
    rw [h.key_pathOf_below hroot (e := (key, o)) (Store.mem_below.mpr ⟨ho, hkey⟩)]
    exact ho

end Tidy

namespace Sample

/-- Two objects below the root, one of them in a directory, and one outside. -/
def tree : Store :=
  (((Store.empty 0).putObject "other" ⟨#[1]⟩).putObject "root/a/x" ⟨#[2]⟩).putObject
    "root/b" ⟨#[3]⟩

theorem tree_keys {rest : String} (h : volume.root ++ rest ∈ tree.objects.keys) :
    rest = "a/x" ∨ rest = "b" := by
  have hkeys : tree.objects.keys = ["other", "root/" ++ "a/x", "root/" ++ "b"] := by decide
  have hroot : volume.root = "root/" := rfl
  rw [hkeys, hroot] at h
  rcases List.mem_cons.mp h with hother | h
  · have hlists := congrArg String.toList hother
    simp at hlists
  · simpa only [List.mem_cons, List.not_mem_nil, or_false, String.append_right_inj] using h

theorem tree_tidy : volume.Tidy tree where
  segmented rest hrest := by
    rcases tree_keys hrest with rfl | rfl
    · have hsegment : ∀ c : Char, c ≠ '/' → Text.Segmented [c] :=
        fun c hc => .one (List.cons_ne_nil c []) (by simpa using hc.symm)
      exact (hsegment 'a' (by decide)).append (hsegment 'x' (by decide))
    · exact .one (by decide) (by decide)
  separate rest more hrest hmore := by
    rw [String.append_assoc, String.append_assoc] at hmore
    rcases tree_keys hrest with rfl | rfl <;> rcases tree_keys hmore with h | h <;>
      simp [← String.toList_inj] at h

end Sample

/-- From the front, the object in the directory is come to once, and the one outside never. -/
theorem tree_walked : ∃ visited bound,
    (∀ depth, bound ≤ depth → (Sample.volume.walk depth "/").Sees Sample.tree (.ok visited)) ∧
      visited.Nodup ∧ visited.Perm ["/a/x", "/b"] := by
  obtain ⟨⟨visited, bound, hrun, hnodup, hperm⟩, -⟩ :=
    Sample.tree_tidy.walk_visits_every_object "/"
  have hbelow : ((Sample.tree.below (Sample.volume.frontOf "/")).map fun e =>
      Sample.volume.pathOf e.1) = ["/a/x", "/b"] := by decide
  exact ⟨visited, bound, hrun, hnodup, hbelow ▸ hperm⟩

end Volume

end ResumableStorage
