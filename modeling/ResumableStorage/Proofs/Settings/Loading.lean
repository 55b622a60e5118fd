/-
  ResumableStorage/Proofs/Settings/Loading.lean
  =============================================
  **Loading a settings file** — what a file adds to an environment, and what it leaves as it
  is.  Each line is looked at in the environment that the lines before it have made, so the
  first definition of a name counts, and a second load finds nothing to add.  A line that
  cannot be a variable ends the load; it does so again, as the lines before it are skipped.
-/
import ResumableStorage.Proofs.Settings.Definitions
import ResumableStorage.Settings.Source

namespace ResumableStorage

namespace EnvFile

variable {env : Environment} {name value : String} {lines front : List (List Char)}

/-! ## 1. One definition -/

/-- What a variable is after some lines: what it was, or else what they define. -/
def reached (env : Environment) (lines : List (List Char)) (name : String) : Option String :=
  (env.find? name).or ((lines.filterMap definition?).lookup name)

theorem reached_eq_some_iff : reached env lines name = some value ↔
    env.find? name = some value ∨ env.find? name = none ∧ FirstDefines lines name value := by
  rw [reached, Option.or_eq_some_iff, lookup_definitions_eq_some_iff]

theorem reached_eq_none_iff : reached env lines name = none ↔
    env.find? name = none ∧ ∀ line ∈ lines, ∀ v, ¬Defines line name v := by
  rw [reached, Option.or_eq_none_iff, lookup_definitions_eq_none_iff]

/-- The line defines a variable that is not there yet, neither before nor by an earlier line, and that
cannot be there: its name or its value holds a zero. -/
def Rejected (env : Environment) (front : List (List Char)) (line : List Char) : Prop :=
  ∃ name value, Defines line name value ∧ env.find? name = none ∧
    (∀ earlier ∈ front, ∀ v, ¬Defines earlier name v) ∧
    (Char.ofNat 0 ∈ name.toList ∨ Char.ofNat 0 ∈ value.toList)

theorem rejected_iff {line : List Char} : Rejected env front line ↔
    ∃ name value, definition? line = some (name, value) ∧ reached env front name = none ∧
      (Environment.hasZero name || Environment.hasZero value) = true := by
  simp only [Rejected, definition?_eq_some_iff, reached_eq_none_iff, and_assoc,
    Environment.hasZero, Bool.or_eq_true, List.contains_iff_mem]

theorem define_of_defines {line : List Char} (h : Defines line name value) :
    Environment.define env name value =
      if (Environment.hasZero name || Environment.hasZero value) = true then .error .zero
      else .ok (env.insert name value) := by
  rw [Environment.define]
  split
  · rfl
  · rw [if_neg (by simpa using h.equals_not_mem), if_neg h.named]

/-- One line: it is rejected, or the others go on in an environment in which everything is what it is
behind this line. -/
theorem add_line (env : Environment) (line : List Char) (rest : List (List Char)) :
    (Rejected env [] line ∧
      add env ((line :: rest).filterMap definition?) = (.error (.unsettable .zero), env)) ∨
    ¬Rejected env [] line ∧ ∃ env', add env ((line :: rest).filterMap definition?) =
        add env' (rest.filterMap definition?) ∧
      ∀ front name, reached env' front name = reached env (line :: front) name := by
  rw [rejected_iff]
  rcases hline : definition? line with _ | ⟨name, value⟩
  · right
    refine ⟨nofun, env, ?_, ?_⟩
    · rw [List.filterMap_cons_none hline]
    · intro front name
      rw [reached, reached, List.filterMap_cons_none hline]
  · rw [List.filterMap_cons_some hline, add]
    rcases hfound : env.find? name with _ | old
    · rw [Option.isSome_none, if_neg Bool.false_ne_true,
        define_of_defines (definition?_eq_some_iff.mp hline)]
      by_cases hzero : (Environment.hasZero name || Environment.hasZero value) = true
      · left
        rw [if_pos hzero]
        exact ⟨⟨name, value, rfl, by rw [reached, hfound]; rfl, hzero⟩, rfl⟩
      · right
        rw [if_neg hzero]
        refine ⟨?_, env.insert name value, rfl, ?_⟩
        · rintro ⟨_, _, ⟨⟩, -, hzero'⟩
          exact hzero hzero'
        · intro front other
          rw [reached, reached, List.filterMap_cons_some hline]
          by_cases hother : other = name
          · subst hother
            rw [Keyed.find?_insert_self, hfound, List.lookup_cons_self]
            rfl
          · rw [Keyed.find?_insert_of_ne _ _ hother, List.lookup_cons, beq_false_of_ne hother]
    · right
      refine ⟨?_, env, ?_, ?_⟩
      · rintro ⟨_, _, ⟨⟩, hnone, -⟩
        rw [reached_eq_none_iff, hfound] at hnone
        cases hnone.1
      · rw [Option.isSome_some, if_pos rfl]
      · intro front other
        rw [reached, reached, List.filterMap_cons_some hline]
        by_cases hother : other = name
        · subst hother
          rw [hfound]
          rfl
        · rw [List.lookup_cons, beq_false_of_ne hother]

/-! ## 2. All lines -/

/-- None of the lines is rejected.  What the environment held before it holds still, and of the names
that it did not hold it has those that the lines define, each with the first of its values. -/
structure Added (env : Environment) (lines : List (List Char)) (env' : Environment) : Prop where
  accepted : ∀ front line rest, lines = front ++ line :: rest → ¬Rejected env front line
  holds : ∀ name value, env'.find? name = some value ↔
    env.find? name = some value ∨ env.find? name = none ∧ FirstDefines lines name value

theorem holds_of_reached {env' : Environment}
    (h : ∀ name, env'.find? name = reached env lines name) (name value : String) :
    env'.find? name = some value ↔
      env.find? name = some value ∨ env.find? name = none ∧ FirstDefines lines name value := by
  rw [h, reached_eq_some_iff]

theorem Added.find?_eq {env' : Environment} (h : Added env lines env') (name : String) :
    env'.find? name = reached env lines name := by
  apply Option.ext
  intro value
  rw [h.holds, reached_eq_some_iff]

theorem added_nil (env : Environment) : Added env [] env := by
  refine ⟨fun front line rest h => absurd h (by simp), holds_of_reached fun name => ?_⟩
  rw [reached, List.filterMap_nil, List.lookup_nil, Option.or_none]

theorem Added.cons {env' env'' : Environment} {line : List Char} (hline : ¬Rejected env [] line)
    (hreached : ∀ front name, reached env' front name = reached env (line :: front) name)
    (h : Added env' lines env'') : Added env (line :: lines) env'' := by
  constructor
  · rintro (_ | ⟨first, front⟩) bad rest hsplit
    · cases hsplit
      exact hline
    · cases hsplit
      intro hbad
      apply h.accepted front bad rest rfl
      rw [rejected_iff] at hbad ⊢
      simp only [hreached]
      exact hbad
  · apply holds_of_reached
    intro name
    rw [h.find?_eq, hreached]

/-- The lines up to the first one that is rejected are added, or all of them when none is. -/
theorem add_lines (env : Environment) (lines : List (List Char)) :
    (∃ env', add env (lines.filterMap definition?) = (.ok (), env') ∧ Added env lines env') ∨
    ∃ front line rest env', lines = front ++ line :: rest ∧ Rejected env front line ∧
      add env (lines.filterMap definition?) = (.error (.unsettable .zero), env') ∧
        Added env front env' := by
  induction lines generalizing env with
  | nil => exact .inl ⟨env, rfl, added_nil env⟩
  | cons line lines ih =>
    rcases add_line env line lines with ⟨hrejected, hadd⟩ | ⟨haccepted, env', hadd, hreached⟩
    · exact .inr ⟨[], line, lines, env, rfl, hrejected, hadd, added_nil env⟩
    · rw [hadd]
      rcases ih env' with ⟨env'', hok, hadded⟩ | ⟨front, bad, rest, env'', rfl, hbad, herror, hadded⟩
      · exact .inl ⟨env'', hok, hadded.cons haccepted hreached⟩
      · refine .inr ⟨line :: front, bad, rest, env'', rfl, ?_, herror,
          hadded.cons haccepted hreached⟩
        rw [rejected_iff] at hbad ⊢
        simp only [← hreached]
        exact hbad

/-! ## 3. A second load -/

theorem define_eq_ok {env' : Environment} (h : Environment.define env name value = .ok env') :
    env' = env.insert name value := by
  unfold Environment.define at h
  split at h
  · cases h
  · split at h
    · cases h
    · split at h
      · cases h
      · exact (Except.ok.inj h).symm

theorem isSome_insert (env : Environment) (other : String) (value : String)
    (h : (env.find? name).isSome = true) : ((env.insert other value).find? name).isSome = true := by
  by_cases hname : name = other
  · rw [hname, Keyed.find?_insert_self]
    rfl
  · rwa [Keyed.find?_insert_of_ne _ _ hname]

/-- A variable that is there stays there. -/
theorem isSome_add (env : Environment) (ds : List (String × String))
    (h : (env.find? name).isSome = true) : ((add env ds).2.find? name).isSome = true := by
  induction ds generalizing env with
  | nil => exact h
  | cons d ds ih =>
    obtain ⟨other, value⟩ := d
    rw [add]
    split
    · exact ih env h
    · split
      · exact h
      · rename_i env' hdefine
        rw [define_eq_ok hdefine]
        exact ih _ (isSome_insert env other value h)

/-- What was added is there, and what could not be added cannot be added again. -/
theorem add_add (env : Environment) (ds : List (String × String)) :
    add (add env ds).2 ds = add env ds := by
  induction ds generalizing env with
  | nil => rfl
  | cons d ds ih =>
    obtain ⟨name, value⟩ := d
    have hgoes : ∀ env₁, (env₁.find? name).isSome = true →
        add (add env₁ ds).2 ((name, value) :: ds) = add env₁ ds := by
      intro env₁ hfound
      rw [add, if_pos (isSome_add env₁ ds hfound), ih env₁]
    by_cases hfound : (env.find? name).isSome = true
    · rw [show add env ((name, value) :: ds) = add env ds by rw [add, if_pos hfound]]
      exact hgoes env hfound
    · rcases hdefine : Environment.define env name value with e | env'
      · rw [show add env ((name, value) :: ds) = (.error (.unsettable e), env) by
          rw [add, if_neg hfound, hdefine]]
        rw [add, if_neg hfound, hdefine]
      · rw [show add env ((name, value) :: ds) = add env' ds by
          rw [add, if_neg hfound, hdefine]]
        apply hgoes
        rw [define_eq_ok hdefine, Keyed.find?_insert_self]
        rfl

theorem load_load (env : Environment) (file : Bytes) : load (load env file).2 file = load env file := by
  unfold load
  cases String.fromUTF8? file with
  | none => rfl
  | some text => exact add_add env (definitions text)

theorem load_toUTF8 (env : Environment) (text : String) : load env text.toUTF8 =
    add env ((Text.linesFrom [] text.toList).filterMap definition?) := by
  have hread : String.fromUTF8? text.toUTF8 = some text := dif_pos text.isValidUTF8
  rw [load, hread]
  rfl

end EnvFile

theorem SettingsSource.load_of_file (env : Environment) (file : Bytes) (kept : Option Settings) :
    load ⟨env, some file, kept⟩ = ((EnvFile.load env file).1 >>= fun _ =>
      Settings.ofEnvironment (EnvFile.load env file).2, ⟨(EnvFile.load env file).2, some file, kept⟩) :=
  rfl

/-- A file only adds to an environment.  Either all its lines are added, or those before the first one
that is rejected, which is the error then.  A second load leaves everything as it is and ends as the
first one did, and the settings come out the same. -/
theorem EnvFile.load_only_adds (env : Environment) (text : String) (kept : Option Settings) :
    let lines := Text.linesFrom [] text.toList
    let file := text.toUTF8
    let loaded := (load env file).2
    ((load env file).1 = .ok () ∧ Added env lines loaded ∨
      ∃ front line rest, lines = front ++ line :: rest ∧ Rejected env front line ∧
        (load env file).1 = .error (.unsettable .zero) ∧ Added env front loaded) ∧
    load loaded file = load env file ∧
    (SettingsSource.load ⟨env, some file, kept⟩).2 = ⟨loaded, some file, kept⟩ ∧
    SettingsSource.load ⟨loaded, some file, kept⟩ = SettingsSource.load ⟨env, some file, kept⟩ := by
  intro lines file loaded
  have hagain : load loaded file = load env file := load_load env file
  refine ⟨?_, hagain, rfl, ?_⟩
  · have hload : load env file = add env (lines.filterMap definition?) := load_toUTF8 env text
    rcases add_lines env lines with ⟨env', hok, hadded⟩ |
      ⟨front, line, rest, env', hsplit, hrejected, herror, hadded⟩
    · left
      simp only [loaded, hload, hok]
      exact ⟨trivial, hadded⟩
    · right
      refine ⟨front, line, rest, hsplit, hrejected, ?_⟩
      simp only [loaded, hload, herror]
      exact ⟨trivial, hadded⟩
  · rw [SettingsSource.load_of_file, SettingsSource.load_of_file, hagain]

end ResumableStorage
