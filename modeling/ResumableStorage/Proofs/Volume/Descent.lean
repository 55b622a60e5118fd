/-
  ResumableStorage/Proofs/Volume/Descent.lean
  ===========================================
  **Where listings lead** — a listing names one entry for each directory below the listed
  path.  The slashes at the end of a directory's front are stripped before it is named, so
  an entry descends as long as its front goes on by a segment; where the keys have two
  slashes in a row the entry leads back to the path, or to one above it, and is listed
  there again.
-/
import ResumableStorage.Proofs.Volume.Walking

namespace ResumableStorage

/-! ## 1. Slashes at the ends of a text -/

namespace Text

def slashes (n : Nat) : String :=
  String.ofList (List.replicate n '/')

/-- A text that is not empty and has no slash at either end. -/
structure Trimmed (name : String) : Prop where
  first : ∃ c rest, name.toList = c :: rest ∧ c ≠ '/'
  last : ∃ rest c, name.toList = rest ++ [c] ∧ c ≠ '/'

variable {s name : String}

theorem slashes_one : slashes 1 = "/" := by decide

theorem slashes_succ (n : Nat) : slashes (n + 1) = "/" ++ slashes n := by
  rw [slashes, slashes, ← String.toList_inj]
  simp [List.replicate_succ]

theorem slashes_succ' (n : Nat) : slashes (n + 1) = slashes n ++ "/" := by
  rw [slashes, slashes, ← String.toList_inj]
  simp [List.replicate_succ']

theorem stripFront_head (s : String) : ∀ rest, (stripFront s '/').toList ≠ '/' :: rest := by
  intro rest hslash
  rw [stripFront, String.toList_ofList] at hslash
  have hhead := List.head?_dropWhile_not (· == '/') s.toList
  rw [hslash] at hhead
  simp at hhead

/-- Behind a slash a text stays as it is, unless it begins with another one. -/
theorem stripFront_behind (h : ∀ rest, name.toList ≠ '/' :: rest) :
    stripFront ("/" ++ name) '/' = name := by
  rw [stripFront, ← String.toList_inj]
  rcases hname : name.toList with _ | ⟨c, rest⟩
  · simp [hname]
  · have hc : c ≠ '/' := fun hc => h rest (hc ▸ hname)
    simp [hname, hc]

/-- What is stripped off the end of a text are slashes. -/
theorem exists_slashes (s : String) : ∃ n, s = stripEnd s '/' ++ slashes n := by
  let front := s.toList.reverse.dropWhile (· == '/')
  let behind := s.toList.reverse.takeWhile (· == '/')
  have hslash : ∀ c ∈ behind, c = '/' :=
    fun c hc => by simpa using List.mem_takeWhile_imp (p := (· == '/')) hc
  have hbehind : behind.reverse = List.replicate behind.length '/' := by
    rw [List.eq_replicate_of_mem hslash, List.reverse_replicate, List.length_replicate]
  refine ⟨behind.length, String.toList_inj.mp ?_⟩
  calc s.toList = (behind ++ front).reverse := by
        rw [List.takeWhile_append_dropWhile, List.reverse_reverse]
    _ = front.reverse ++ List.replicate behind.length '/' := by
        rw [List.reverse_append, hbehind]
    _ = (stripEnd s '/' ++ slashes behind.length).toList := by
        rw [stripEnd, slashes, String.toList_append, String.toList_ofList, String.toList_ofList]

theorem stripEnd_last (s : String) : ∀ front, (stripEnd s '/').toList ≠ front ++ ['/'] := by
  intro front hslash
  rw [stripEnd, String.toList_ofList] at hslash
  have hhead := List.head?_dropWhile_not (· == '/') s.toList.reverse
  rw [← List.reverse_reverse (List.dropWhile _ _), hslash] at hhead
  simp at hhead

namespace Trimmed

variable (h : Trimmed name)

include h

theorem first_ne (rest : List Char) : name.toList ≠ '/' :: rest := by
  obtain ⟨c, cs, hcs, hc⟩ := h.first
  rw [hcs]
  exact fun heq => hc (List.cons.inj heq).1

/-- Before some slashes a trimmed text is left. -/
theorem stripEnd_slashes (front : String) (n : Nat) :
    stripEnd (front ++ name ++ slashes n) '/' = front ++ name := by
  obtain ⟨cs, c, hcs, hc⟩ := h.last
  have hdrop : ∀ rest : List Char,
      (List.replicate n '/' ++ c :: rest).dropWhile (· == '/') = c :: rest := by
    intro rest
    rw [List.dropWhile_append_of_pos fun d hd => by rw [List.eq_of_mem_replicate hd]; rfl,
      List.dropWhile_cons_of_neg (by simpa using hc)]
  rw [stripEnd, slashes, ← String.toList_inj]
  simp [hcs, hdrop]

end Trimmed

/-- Without the slashes at its front a text is a trimmed one and slashes, or nothing is left. -/
theorem exists_trimmed (s : String) : stripFront s '/' = "" ∨
    ∃ name n, Trimmed name ∧ stripFront s '/' = name ++ slashes n := by
  obtain ⟨n, hn⟩ := exists_slashes (stripFront s '/')
  have hfirst := stripFront_head s
  generalize stripFront s '/' = t at hn hfirst ⊢
  have hlists := congrArg String.toList hn
  rw [String.toList_append, slashes, String.toList_ofList] at hlists
  rcases hstem : (stripEnd t '/').toList with _ | ⟨c, rest⟩
  · left
    rw [hstem, List.nil_append] at hlists
    cases n with
    | zero => exact String.toList_inj.mp hlists
    | succ n =>
      rw [List.replicate_succ] at hlists
      exact absurd hlists (hfirst _)
  · right
    refine ⟨stripEnd t '/', n, ⟨?_, ?_⟩, hn⟩
    · refine ⟨c, rest, hstem, ?_⟩
      rintro rfl
      rw [hstem] at hlists
      exact hfirst _ hlists
    · rcases List.eq_nil_or_concat' (stripEnd t '/').toList with hnil | ⟨front, d, hlast⟩
      · rw [hstem] at hnil
        cases hnil
      · refine ⟨front, d, hlast, ?_⟩
        rintro rfl
        exact stripEnd_last t front hlast

end Text

/-! ## 2. Fronts and entries -/

namespace Volume

variable {v : Volume} {path entry name front t directory : String} {s : Store}

/-- The root that a directory is given is that of no object. -/
theorem isDirectoryKey_normalizeRoot (directory : String) :
    isDirectoryKey (normalizeRoot directory) = true := by
  rw [normalizeRoot]
  split
  · rfl
  · have hlast : Text.endsWithChar (Text.strip directory '/' ++ "/") '/' = true := by
      simp [Text.endsWithChar]
    simp [isDirectoryKey, hlast]

theorem isDirectoryKey_slashes (front : String) (n : Nat) :
    isDirectoryKey (front ++ Text.slashes (n + 1)) = true := by
  have hlast : Text.endsWithChar (front ++ Text.slashes (n + 1)) '/' = true := by
    rw [Text.slashes_succ']
    simp [Text.endsWithChar]
  simp [isDirectoryKey, hlast]

theorem isDirectoryKey_trimmed (h : Text.Trimmed name) (front : String) :
    isDirectoryKey (front ++ name) = false := by
  obtain ⟨cs, c, hcs, hc⟩ := h.last
  have hne : front ++ name ≠ "" := by
    rw [Ne, ← String.toList_inj]
    simp [hcs]
  have hlast : Text.endsWithChar (front ++ name) '/' = false := by
    rw [Text.endsWithChar, String.toList_append, hcs, ← List.append_assoc, List.getLast?_concat]
    simpa using hc
  simp [isDirectoryKey, hne, hlast]

/-- A path leads back to its key when no slash follows the root. -/
theorem key_pathOf_of_first (h : ∀ rest, name.toList ≠ '/' :: rest) :
    v.key (v.pathOf (v.root ++ name)) = v.root ++ name := by
  rw [pathOf_append, key, Text.stripFront_behind h]

/-- The front of a path is the root, or a trimmed name behind it and slashes. -/
theorem frontOf_cases (hroot : v.root = normalizeRoot directory) (path : String) :
    v.frontOf path = v.root ∨
      ∃ name n, Text.Trimmed name ∧ v.frontOf path = v.root ++ name ++ Text.slashes (n + 1) := by
  rcases Text.exists_trimmed path with hnone | ⟨name, n, hname, hpath⟩
  · left
    rw [frontOf, below, key, hnone, String.append_empty, hroot,
      if_pos (isDirectoryKey_normalizeRoot directory)]
  · have hkey : v.key path = v.root ++ name ++ Text.slashes n := by
      rw [key, hpath, String.append_assoc]
    cases n with
    | zero =>
      have hplain : v.key path = v.root ++ name := by
        rw [hkey, Text.slashes, List.replicate_zero, String.ofList_nil, String.append_empty]
      refine .inr ⟨name, 0, hname, ?_⟩
      rw [frontOf_eq (hplain ▸ isDirectoryKey_trimmed hname v.root), hplain, Text.slashes_one]
    | succ n =>
      refine .inr ⟨name, n, hname, ?_⟩
      rw [frontOf, below, hkey, if_pos (isDirectoryKey_slashes _ n)]

/-- The path names something strictly below another: its key goes on behind the front of that. -/
def Descends (v : Volume) (path entry : String) : Prop :=
  ∃ rest, rest ≠ "" ∧ v.key entry = v.frontOf path ++ rest

/-- What descends has a longer front. -/
theorem Descends.frontOf_eq (h : v.Descends path entry) :
    ∃ rest, rest ≠ "" ∧ v.frontOf entry = v.frontOf path ++ rest := by
  obtain ⟨rest, hne, hkey⟩ := h
  obtain ⟨more, hmore⟩ := Text.startsWith_iff.mp (key_prefix_below (v.key entry))
  refine ⟨rest ++ more, ?_, ?_⟩
  · intro hnil
    exact hne (String.append_eq_empty_iff.mp hnil).1
  · rw [frontOf, hmore, hkey, String.append_assoc]

theorem Descends.trans {mid : String} (h : v.Descends path mid) (h' : v.Descends mid entry) :
    v.Descends path entry := by
  obtain ⟨rest, hne, hfront⟩ := h.frontOf_eq
  obtain ⟨more, -, hkey⟩ := h'
  refine ⟨rest ++ more, ?_, ?_⟩
  · intro hnil
    exact hne (String.append_eq_empty_iff.mp hnil).1
  · rw [hkey, hfront, String.append_assoc]

/-- What descends is neither the path nor above it. -/
theorem Descends.not_above (h : v.Descends path entry) :
    ¬ Text.startsWith (v.frontOf path) (v.frontOf entry) = true := by
  obtain ⟨rest, hne, hfront⟩ := h.frontOf_eq
  intro habove
  have hlength := Text.length_le_of_startsWith habove
  rw [hfront, String.length_append] at hlength
  have hzero : rest.length = 0 := by omega
  exact hne (String.length_eq_zero_iff.mp hzero)

/-! ## 3. Stores that were filled path by path -/

/-- Every object is stored at the key of some path. -/
def Named (v : Volume) (s : Store) : Prop :=
  ∀ key ∈ s.objects.keys, ∃ path, key = v.key path

theorem Named.putObject (h : v.Named s) (path : String) (content : Bytes) :
    v.Named (s.putObject (v.key path) content) := by
  intro key hkey
  by_cases hsame : key = v.key path
  · exact ⟨path, hsame⟩
  · obtain ⟨o, ho⟩ := Keyed.mem_keys.mp hkey
    rw [Store.putObject, Keyed.find?_insert_of_ne _ _ hsame] at ho
    exact h key (Keyed.mem_keys.mpr ⟨o, ho⟩)

/-- Putting a content at a path keeps it so, whatever comes of the request. -/
theorem Named.putContent {c : Context (Disturbed Store)} (h : v.Named c.store) (path : String)
    (content : Bytes) : v.Named ((v.putContent path content).execute c).2.store := by
  have hquiet : (v.putContent path content : Run (Disturbed Store) Unit).Quiet
      (.putObject v.bucket.name (v.key path) content (Client.nonEmpty opaqueContent) = ·) :=
    (Run.decodes_send.quiet rfl).discard
  refine hquiet.keeps (P := fun d => v.Named d.service) ?_ h
  rintro r d rfl hd
  have hanswers := Disturbed.answer_answers d
    (.putObject v.bucket.name (v.key path) content (Client.nonEmpty opaqueContent))
  generalize (Service.answer _ d).1 = answer at hanswers
  generalize (Service.answer _ d).2.service = s' at hanswers ⊢
  cases hanswers with
  | granted _ heffect =>
    cases heffect
    exact hd.putObject path content
  | refused => exact hd
  | before => exact hd
  | after _ _ heffect =>
    cases heffect
    exact hd.putObject path content

/-- What there is once contents were put at paths one after the other, whatever came of each. -/
def putAll {σ : Type} [Service σ] (v : Volume) (puts : List (String × Bytes)) (c : Context σ) :
    Context σ :=
  puts.foldl (fun c put => ((v.putContent put.1 put.2).execute c).2) c

theorem Named.putAll {c : Context (Disturbed Store)} (h : v.Named c.store)
    (puts : List (String × Bytes)) : v.Named (v.putAll puts c).store := by
  induction puts generalizing c with
  | nil => exact h
  | cons put rest ih => exact ih (h.putContent put.1 put.2)

/-- In a store that was filled path by path no slash follows the root. -/
theorem Named.first (h : v.Named s) {key rest : String} (hkey : key ∈ s.objects.keys)
    (hrest : key = v.root ++ rest) : ∀ cs, rest.toList ≠ '/' :: cs := by
  obtain ⟨path, hpath⟩ := h key hkey
  rw [hrest, Volume.key, String.append_right_inj] at hpath
  rw [hpath]
  exact Text.stripFront_head path

/-! ## 4. Where listings lead -/

/-- Right behind the front of the path some key goes on with another slash. -/
def Doubled (v : Volume) (s : Store) (path : String) : Prop :=
  ∃ key ∈ s.objects.keys, Text.startsWith key (v.frontOf path ++ "/") = true

/-- The listing of the first path names the second one as a directory. -/
def Lists (v : Volume) (s : Store) (path entry : String) : Prop :=
  entry ∈ v.directoriesAt s path

theorem mem_branches_iff {segment : String} (hsegment : '/' ∉ segment.toList) :
    front ++ segment ++ "/" ∈ s.branches front ↔
      ∃ key ∈ s.objects.keys, Text.startsWith key (front ++ segment ++ "/") = true := by
  rw [Store.mem_branches]
  constructor
  · rintro ⟨e, he, hcollapsed⟩
    obtain ⟨ho, hfront⟩ := Store.mem_below.mp he
    obtain ⟨-, -, -, hstarts⟩ := (Store.frontAt?_eq_some_iff hfront).mp hcollapsed
    exact ⟨e.1, Keyed.mem_keys.mpr ⟨e.2, ho⟩, hstarts⟩
  · rintro ⟨key, hkey, hstarts⟩
    obtain ⟨o, ho⟩ := Keyed.mem_keys.mp hkey
    have hfront : Text.startsWith key front = true := Text.startsWith_trans hstarts
      (Text.startsWith_iff.mpr ⟨segment ++ "/", String.append_assoc ..⟩)
    exact ⟨(key, o), Store.mem_below.mpr ⟨ho, hfront⟩,
      (Store.frontAt?_eq_some_iff hfront).mpr ⟨segment, hsegment, rfl, hstarts⟩⟩

section

variable (hroot : v.root = normalizeRoot directory) (hnamed : v.Named s)

include hnamed

/-- The directory of a front that goes on by a segment descends. -/
theorem descends_of_segment {segment : String} (hne : segment ≠ "")
    (hsegment : '/' ∉ segment.toList)
    (hkey : ∃ key ∈ s.objects.keys,
      Text.startsWith key (v.frontOf path ++ segment ++ "/") = true) :
    v.Descends path (v.directoryOf (v.frontOf path ++ segment ++ "/")) := by
  have hlist : segment.toList ≠ [] := fun hnil => hne (String.toList_inj.mp hnil)
  obtain ⟨inner, hinner⟩ := Text.startsWith_iff.mp (v.frontOf_startsWith_root path)
  obtain ⟨key, hmem, hstarts⟩ := hkey
  obtain ⟨more, hmore⟩ := Text.startsWith_iff.mp hstarts
  have hfirst : ∀ cs, (inner ++ segment).toList ≠ '/' :: cs := by
    intro cs hslash
    have hrest : key = v.root ++ (inner ++ segment ++ "/" ++ more) := by
      rw [hmore, hinner]
      simp only [String.append_assoc]
    refine hnamed.first hmem hrest (cs ++ '/' :: more.toList) ?_
    rw [String.toList_append, String.toList_append, hslash]
    simp
  refine ⟨segment, hne, ?_⟩
  rw [directoryOf, Text.stripEnd_slash (.one hlist hsegment), hinner, String.append_assoc,
    key_pathOf_of_first hfirst]

/-- An entry descends, or the slashes behind the front of the path are doubled and it leads back. -/
theorem lists_cases (h : v.Lists s path entry) :
    v.Descends path entry ∨ v.Doubled s path ∧ entry = v.directoryOf (v.frontOf path ++ "/") := by
  obtain ⟨t, ht, rfl⟩ := List.mem_map.mp h
  obtain ⟨e, he, hcollapsed⟩ := Store.mem_branches.mp ht
  obtain ⟨segment, hsegment, rfl, hstarts⟩ :=
    (Store.frontAt?_eq_some_iff (Store.mem_below.mp he).2).mp hcollapsed
  have hkey : e.1 ∈ s.objects.keys := Keyed.mem_keys.mpr ⟨e.2, (Store.mem_below.mp he).1⟩
  by_cases hne : segment = ""
  · right
    rw [hne, String.append_empty] at hstarts ⊢
    exact ⟨⟨e.1, hkey, hstarts⟩, rfl⟩
  · exact .inl (descends_of_segment hnamed hne hsegment ⟨e.1, hkey, hstarts⟩)

include hroot

/-- Where slashes are doubled the entry leads back: to the path or above it, and to itself. -/
theorem leads_back_of_doubled (h : v.Doubled s path) :
    let entry := v.directoryOf (v.frontOf path ++ "/")
    ¬ v.Descends path entry ∧ Text.startsWith (v.frontOf path) (v.frontOf entry) = true ∧
      v.Lists s entry entry := by
  obtain ⟨key, hmem, hstarts⟩ := h
  obtain ⟨more, hmore⟩ := Text.startsWith_iff.mp hstarts
  rcases frontOf_cases hroot path with hfront | ⟨name, n, hname, hfront⟩
  · -- directly below the root no key begins with a slash
    have hrest : key = v.root ++ ("/" ++ more) := by rw [hmore, hfront, String.append_assoc]
    refine absurd ?_ (hnamed.first hmem hrest more.toList)
    simp
  · have hentry : v.directoryOf (v.frontOf path ++ "/") = v.pathOf (v.root ++ name) := by
      rw [directoryOf, hfront, String.append_assoc, ← Text.slashes_succ', hname.stripEnd_slashes]
    have hkey : v.key (v.pathOf (v.root ++ name)) = v.root ++ name :=
      key_pathOf_of_first hname.first_ne
    have hback : v.frontOf (v.pathOf (v.root ++ name)) = v.root ++ name ++ "/" := by
      rw [frontOf_eq (by rw [hkey, isDirectoryKey_trimmed hname]), hkey]
    have habove : v.frontOf path = v.root ++ name ++ "/" ++ Text.slashes n := by
      rw [hfront, Text.slashes_succ]
      simp only [String.append_assoc]
    dsimp only
    rw [hentry]
    have hstartsBack : Text.startsWith (v.frontOf path)
        (v.frontOf (v.pathOf (v.root ++ name))) = true := by
      rw [hback]
      exact Text.startsWith_iff.mpr ⟨_, habove⟩
    refine ⟨fun hdescends => hdescends.not_above hstartsBack, hstartsBack, ?_⟩
    refine List.mem_map.mpr ⟨v.root ++ name ++ "/" ++ "" ++ "/", ?_, ?_⟩
    · rw [hback]
      refine (mem_branches_iff (by simp)).mpr ⟨key, hmem, ?_⟩
      refine Text.startsWith_iff.mpr ⟨Text.slashes n ++ more, ?_⟩
      have hmove : Text.slashes n ++ "/" = "/" ++ Text.slashes n := by
        rw [← Text.slashes_succ', Text.slashes_succ]
      rw [hmore, habove, String.append_empty, @String.append_assoc (v.root ++ name ++ "/"), hmove]
      simp only [String.append_assoc]
    · have htwo : v.root ++ name ++ "/" ++ "" ++ "/" = v.root ++ name ++ Text.slashes 2 := by
        rw [Text.slashes_succ', Text.slashes_one, String.append_empty,
          @String.append_assoc _ "/"]
      rw [directoryOf, htwo, hname.stripEnd_slashes]

/-- A listing descends unless slashes are doubled there. -/
theorem descends_iff_not_doubled :
    (∀ entry, v.Lists s path entry → v.Descends path entry) ↔ ¬ v.Doubled s path := by
  constructor
  · intro hall hdoubled
    obtain ⟨key, hmem, hstarts⟩ := hdoubled
    have hlisted : v.Lists s path (v.directoryOf (v.frontOf path ++ "/")) := by
      refine List.mem_map.mpr ⟨v.frontOf path ++ "" ++ "/", (mem_branches_iff (by simp)).mpr ?_, ?_⟩
      · exact ⟨key, hmem, by rwa [String.append_empty]⟩
      · rw [String.append_empty]
    exact (leads_back_of_doubled hroot hnamed ⟨key, hmem, hstarts⟩).1 (hall _ hlisted)
  · intro hsingle entry hlisted
    rcases lists_cases hnamed hlisted with hdescends | ⟨hdoubled, -⟩
    · exact hdescends
    · exact absurd hdoubled hsingle

/-- A recursive listing descends with every step, and from each path to all that is come to from
there, exactly when it comes to no path where slashes are doubled. -/
theorem walks_descend_iff :
    (∀ mid entry, Relation.ReflTransGen (v.Lists s) path mid →
        Relation.TransGen (v.Lists s) mid entry → v.Descends mid entry) ↔
      ∀ mid, Relation.ReflTransGen (v.Lists s) path mid → ¬ v.Doubled s mid := by
  constructor
  · intro hall mid hmid
    exact (descends_iff_not_doubled hroot hnamed).mp fun entry hlisted =>
      hall mid entry hmid (.single hlisted)
  · intro hsingle mid entry hmid hentry
    have hstep : ∀ mid' entry', Relation.ReflTransGen (v.Lists s) path mid' →
        v.Lists s mid' entry' → v.Descends mid' entry' := fun mid' entry' hmid' =>
      (descends_iff_not_doubled hroot hnamed).mpr (hsingle mid' hmid') entry'
    induction hentry with
    | single hlisted => exact hstep mid _ hmid hlisted
    | tail hwalk hlisted ih => exact ih.trans (hstep _ _ (hmid.trans hwalk.to_reflTransGen) hlisted)

/-- What an entry of a listing is, in one of two ways. -/
theorem entry_cases (h : v.Lists s path entry) :
    (v.Descends path entry ∧ ¬ Text.startsWith (v.frontOf path) (v.frontOf entry) = true) ∨
      (¬ v.Descends path entry ∧ Text.startsWith (v.frontOf path) (v.frontOf entry) = true ∧
        v.Lists s entry entry) := by
  rcases lists_cases hnamed h with hdescends | ⟨hdoubled, rfl⟩
  · exact .inl ⟨hdescends, hdescends.not_above⟩
  · exact .inr (leads_back_of_doubled hroot hnamed hdoubled)

end

/-- **Listings descend but where slashes are doubled.**  Contents are put at any paths, whatever
comes of the requests, into a store without objects.  A listing of any path then names files, and
directories each of which either lies strictly below the path, or is the path or one above it and is
named by its own listing again.  All of them lie strictly below exactly when no key goes on with a
second slash behind the front of the path; and a recursive listing descends with every step, and
never comes back to where it has been, exactly when that is so at every path that it comes to. -/
theorem listings_descend (hroot : v.root = normalizeRoot directory)
    {c : Context (Disturbed Store)} (hempty : c.store.objects.keys = [])
    (puts : List (String × Bytes)) (path : String) :
    let s := (v.putAll puts c).store
    (v.list path).Sees s (.ok (v.filesAt s path ++ v.directoriesAt s path)) ∧
    (∀ entry ∈ v.directoriesAt s path,
      (v.Descends path entry ∧ ¬ Text.startsWith (v.frontOf path) (v.frontOf entry) = true) ∨
        (¬ v.Descends path entry ∧ Text.startsWith (v.frontOf path) (v.frontOf entry) = true ∧
          entry ∈ v.directoriesAt s entry)) ∧
    ((∀ entry ∈ v.directoriesAt s path, v.Descends path entry) ↔ ¬ v.Doubled s path) ∧
    ((∀ mid entry, Relation.ReflTransGen (v.Lists s) path mid →
        Relation.TransGen (v.Lists s) mid entry → v.Descends mid entry) ↔
      ∀ mid, Relation.ReflTransGen (v.Lists s) path mid → ¬ v.Doubled s mid) := by
  have hnamed : v.Named (v.putAll puts c).store := by
    refine Named.putAll ?_ puts
    intro key hkey
    rw [hempty] at hkey
    cases hkey
  exact ⟨v.list_sees _ path, fun entry hentry => entry_cases hroot hnamed hentry,
    descends_iff_not_doubled hroot hnamed, walks_descend_iff hroot hnamed⟩

namespace Sample

/-- A store without objects, behind a plan. -/
def vacant (queues : List (RequestKind × List (Option Disturbance))) :
    Context (Disturbed Store) where
  service := ⟨Store.empty 0, queues⟩
  pool := context.pool

/-- Contents at a tidy path and at one with two slashes in a row. -/
def puts : List (String × Bytes) :=
  [("/b/c", ⟨#[1]⟩), ("/a//b", ⟨#[2]⟩)]

theorem filled_keys :
    (volume.putAll puts (vacant [])).store.objects.keys = ["root/a//b", "root/b/c"] := by
  decide +kernel

end Sample

/-- The two directories below the root are named by paths strictly below it. -/
theorem root_listing_descends :
    Sample.volume.root = normalizeRoot "root" ∧ (Sample.vacant []).store.objects.keys = [] ∧
      (Sample.volume.list "/").Sees (Sample.volume.putAll Sample.puts (Sample.vacant [])).store
        (.ok ["/a", "/b"]) ∧
      ∀ entry ∈ ["/a", "/b"], Sample.volume.Descends "/" entry := by
  have hroot : Sample.volume.root = normalizeRoot "root" := by decide
  have hempty : (Sample.vacant []).store.objects.keys = [] := rfl
  obtain ⟨hlist, -, hdescends, -⟩ := Sample.volume.listings_descend hroot hempty Sample.puts "/"
  have hfiles : Sample.volume.filesAt
      (Sample.volume.putAll Sample.puts (Sample.vacant [])).store "/" = [] := by
    decide +kernel
  have hdirectories : Sample.volume.directoriesAt
      (Sample.volume.putAll Sample.puts (Sample.vacant [])).store "/" = ["/a", "/b"] := by
    decide +kernel
  have hsingle : ¬ Sample.volume.Doubled
      (Sample.volume.putAll Sample.puts (Sample.vacant [])).store "/" := by
    rw [Doubled, Sample.filled_keys]
    decide +kernel
  have hall := hdescends.mpr hsingle
  rw [hfiles, hdirectories] at hlist
  rw [hdirectories] at hall
  exact ⟨hroot, hempty, hlist, hall⟩

/-- The listing of a path below which slashes are doubled names the path itself as a directory. -/
theorem doubled_slash_leads_back :
    (Sample.vacant []).store.objects.keys = [] ∧
      (Sample.volume.list "/a").Sees (Sample.volume.putAll Sample.puts (Sample.vacant [])).store
        (.ok ["/a"]) ∧
      Sample.volume.Lists (Sample.volume.putAll Sample.puts (Sample.vacant [])).store "/a" "/a" ∧
      ¬ Sample.volume.Descends "/a" "/a" := by
  have hfiles : Sample.volume.filesAt
      (Sample.volume.putAll Sample.puts (Sample.vacant [])).store "/a" = [] := by
    decide +kernel
  have hdirectories : Sample.volume.directoriesAt
      (Sample.volume.putAll Sample.puts (Sample.vacant [])).store "/a" = ["/a"] := by
    decide +kernel
  have hlist := Sample.volume.list_sees
    (Sample.volume.putAll Sample.puts (Sample.vacant [])).store "/a"
  rw [hfiles, hdirectories] at hlist
  refine ⟨rfl, hlist, ?_, fun hdescends => hdescends.not_above (Text.startsWith_self _)⟩
  rw [Lists, hdirectories]
  exact List.mem_singleton_self _

end Volume

end ResumableStorage
