/-
  ResumableStorage/Proofs/Settings/Numbers.lean
  =============================================
  **Numbers in the settings** — a variable that asks for a number is missing or blank, or
  holds a text.  The first two stand for the default, the third for the integer that it
  writes.  Any other text ends the load, so no settings come out of it.

  What is written as an integer is told by the grammar of `Proofs/Text/Numerals.lean`.
-/
import ResumableStorage.Proofs.Settings.Loading
import ResumableStorage.Proofs.Text.Numerals

namespace ResumableStorage

open Text (isBlank isNumeralBlank Spells Written)

/-- The settings that are numbers. -/
inductive NumberField where
  | chunkSize
  | presignExpires
  | listPageSize
  | poolMaxIdle

namespace NumberField

/-- The variable that the number is read from. -/
def name : NumberField → String
  | chunkSize => "STORAGE_CHUNK_SIZE_BYTES"
  | presignExpires => "STORAGE_PRESIGN_EXPIRES_SECONDS"
  | listPageSize => "STORAGE_LIST_PAGE_SIZE"
  | poolMaxIdle => "STORAGE_POOL_MAX_IDLE"

def value (s : Settings) : NumberField → Int
  | chunkSize => s.chunkSizeBytes
  | presignExpires => s.presignExpiresSeconds
  | listPageSize => s.listPageSize
  | poolMaxIdle => s.poolMaxIdle

/-- What the number is where nothing is said of it. -/
def default (field : NumberField) : Int := field.value {}

end NumberField

namespace Settings

variable {env : Environment} {s : Settings} {text : String} {w : Written}

/-! ## 1. One number -/

theorem trim_eq_nil (h : ∀ c ∈ text.toList, isBlank c = true) : Text.trim isBlank text.toList = [] := by
  rw [Text.trim, List.dropWhile_eq_nil_iff.mpr h, Text.trimEnd_nil]

/-- A text that is not blank is read without the blanks around it. -/
theorem readNumber_of_not_blank (h : ∃ c ∈ text.toList, isBlank c = false) (default : Int) :
    readNumber (some text) default =
      (Text.Numeral.read .marked (String.ofList (Text.trim isBlank text.toList))).mapError .numeral := by
  rw [readNumber]
  split
  · rename_i hnil
    obtain ⟨c, hc, hblank⟩ := h
    obtain ⟨front, behind, htext, hfront, hbehind⟩ := (Text.strips_trim isBlank text.toList).between
    rw [hnil, List.append_nil] at htext
    rw [htext] at hc
    rcases List.mem_append.mp hc with hc | hc
    · rw [hfront c hc] at hblank
      cases hblank
    · rw [hbehind c hc] at hblank
      cases hblank
  · rfl

/-- The blanks that the settings allow around a number hold those that numerals allow themselves. -/
theorem spells_trim_iff : Spells isNumeralBlank .marked (Text.trim isBlank text.toList) w ↔
    Spells isBlank .marked text.toList w := by
  rw [Text.spells_iff Text.isBlank_of_isNumeralBlank, Text.spells_iff fun _ h => h]
  have hbare := (Text.strips_trim isBlank text.toList).bare
  have hinner : ∀ c, isBlank c = false → isNumeralBlank c = false := by
    intro c hc
    rw [isNumeralBlank, hc, Bool.false_and]
  have hnumeral : Text.Bare isNumeralBlank (Text.trim isBlank text.toList) :=
    ⟨fun c hc => hinner c (hbare.first c hc), fun c hc => hinner c (hbare.last c hc)⟩
  rw [hnumeral.trim]

theorem exists_not_blank_of_spells (h : Spells isBlank .marked text.toList w) :
    ∃ c ∈ text.toList, isBlank c = false := by
  obtain ⟨front, inner, behind, htext, -, -, hinner⟩ := h
  obtain ⟨c, hc⟩ : ∃ c, c ∈ inner := by
    obtain ⟨sign, body, rfl, -, hbody⟩ := hinner
    obtain ⟨c, rest, -, rfl, -⟩ := hbody.exists_first
    exact ⟨c, List.mem_append_right _ List.mem_cons_self⟩
  refine ⟨c, ?_, hinner.isBlank_eq_false c hc⟩
  rw [htext]
  exact List.mem_append_left _ (List.mem_append_right _ hc)

theorem readNumber_of_blank (h : ∀ c ∈ text.toList, isBlank c = true) (default : Int) :
    readNumber (some text) default = .ok default := by
  rw [readNumber, trim_eq_nil h]

theorem readNumber_of_spells (h : Spells isBlank .marked text.toList w) (default : Int) :
    readNumber (some text) default =
      if w.TooLong then .error (.numeral (.tooLong w.digits.length)) else .ok w.value := by
  rw [readNumber_of_not_blank (exists_not_blank_of_spells h),
    Text.Numeral.read_of_spells (spells_trim_iff.mpr h)]
  split_ifs
  · rfl
  · rfl

theorem readNumber_of_not_spells (hsome : ∃ c ∈ text.toList, isBlank c = false)
    (h : ∀ w, ¬Spells isBlank .marked text.toList w) (default : Int) :
    ∃ e, readNumber (some text) default = .error (.numeral e) := by
  obtain ⟨e, he⟩ := Text.Numeral.read_of_not_spells fun w hw => h w (spells_trim_iff.mp hw)
  refine ⟨e, ?_⟩
  rw [readNumber_of_not_blank hsome, he]
  rfl

theorem readNumber_error {value : Option String} {default : Int} {e : Error}
    (h : readNumber value default = .error e) : ∃ e', e = .numeral e' := by
  unfold readNumber at h
  split at h
  · cases h
  · split at h
    · cases h
    · rw [Except.mapError.eq_def] at h
      split at h
      · exact ⟨_, (Except.error.inj h).symm⟩
      · cases h

/-! ## 2. All settings -/

/-- Settings that come out of an environment have the numbers that their variables say, and pass the
check. -/
structure ReadFrom (env : Environment) (s : Settings) : Prop where
  number : ∀ field : NumberField,
    readNumber (env.find? field.name) field.default = .ok (field.value s)
  checked : s.check = .ok s

theorem check_eq_ok {s s' : Settings} (h : s.check = .ok s') : s' = s := by
  unfold check at h
  split_ifs at h
  exact (Except.ok.inj h).symm

/-- The four numbers are read first, so an error of one of them is the error of the whole. -/
theorem ofEnvironment_cases (env : Environment) :
    (∃ (field : NumberField) (e : Error),
      readNumber (env.find? field.name) field.default = .error e ∧ ofEnvironment env = .error e) ∨
    ∃ s, (∀ field : NumberField,
        readNumber (env.find? field.name) field.default = .ok (field.value s)) ∧
      ofEnvironment env = s.check.mapError .settings := by
  rcases hchunk : readNumber (env.find? "STORAGE_CHUNK_SIZE_BYTES") ({} : Settings).chunkSizeBytes
    with e | chunk
  · refine .inl ⟨.chunkSize, e, hchunk, ?_⟩
    rw [ofEnvironment, hchunk]
    rfl
  rcases hpresign : readNumber (env.find? "STORAGE_PRESIGN_EXPIRES_SECONDS")
    ({} : Settings).presignExpiresSeconds with e | presign
  · refine .inl ⟨.presignExpires, e, hpresign, ?_⟩
    rw [ofEnvironment, hchunk, hpresign]
    rfl
  rcases hpage : readNumber (env.find? "STORAGE_LIST_PAGE_SIZE") ({} : Settings).listPageSize
    with e | page
  · refine .inl ⟨.listPageSize, e, hpage, ?_⟩
    rw [ofEnvironment, hchunk, hpresign, hpage]
    rfl
  rcases hidle : readNumber (env.find? "STORAGE_POOL_MAX_IDLE") ({} : Settings).poolMaxIdle
    with e | idle
  · refine .inl ⟨.poolMaxIdle, e, hidle, ?_⟩
    rw [ofEnvironment, hchunk, hpresign, hpage, hidle]
    rfl
  right
  refine ⟨_, ?_, by rw [ofEnvironment, hchunk, hpresign, hpage, hidle]; rfl⟩
  intro field
  cases field with
  | chunkSize => exact hchunk
  | presignExpires => exact hpresign
  | listPageSize => exact hpage
  | poolMaxIdle => exact hidle

theorem readFrom_of_ofEnvironment (h : ofEnvironment env = .ok s) : ReadFrom env s := by
  rcases ofEnvironment_cases env with ⟨field, e, -, herror⟩ | ⟨s', hnumbers, hread⟩
  · rw [herror] at h
    cases h
  · rw [hread] at h
    rcases hcheck : s'.check with e | checked
    · rw [hcheck] at h
      cases h
    · rw [hcheck] at h
      cases h
      obtain rfl := check_eq_ok hcheck
      exact ⟨hnumbers, hcheck⟩

/-! ## 3. Loaded settings -/

end Settings

namespace SettingsSource

variable {src : SettingsSource} {s : Settings}

/-- The file cannot be added to the environment. -/
def FileFails (src : SettingsSource) (e : Error) : Prop :=
  ∃ file, src.file = some file ∧ (EnvFile.load src.environment file).1 = .error e

/-- A load fails with the file, or reads the environment that the file leaves. -/
theorem load_cases (src : SettingsSource) : (∃ e, src.FileFails e ∧ src.load.1 = .error e) ∨
    src.load.1 = Settings.ofEnvironment src.load.2.environment := by
  obtain ⟨env, _ | file, kept⟩ := src
  · right
    rfl
  · rw [load_of_file]
    rcases hadded : (EnvFile.load env file).1 with e | added
    · exact .inl ⟨e, ⟨file, rfl, hadded⟩, rfl⟩
    · right
      rfl

theorem readFrom_of_load (h : src.load.1 = .ok s) : Settings.ReadFrom src.load.2.environment s := by
  rcases src.load_cases with ⟨e, -, herror⟩ | hread
  · rw [herror] at h
    cases h
  · rw [hread] at h
    exact Settings.readFrom_of_ofEnvironment h

/-- A text that is neither blank nor an integer leaves no settings. -/
theorem load_of_not_spells {field : NumberField} {text : String}
    (hset : src.load.2.environment.find? field.name = some text)
    (hsome : ∃ c ∈ text.toList, isBlank c = false)
    (h : ∀ w, ¬Spells isBlank .marked text.toList w) :
    (∃ e, src.load.1 = .error (.numeral e)) ∨ ∃ e, src.FileFails e ∧ src.load.1 = .error e := by
  rcases src.load_cases with hfile | hread
  · exact .inr hfile
  · left
    obtain ⟨e, hunread⟩ := Settings.readNumber_of_not_spells hsome h field.default
    rw [hread]
    rcases Settings.ofEnvironment_cases src.load.2.environment with
      ⟨field', e', hfirst, herror⟩ | ⟨s, hnumbers, -⟩
    · obtain ⟨e'', rfl⟩ := Settings.readNumber_error hfirst
      exact ⟨e'', herror⟩
    · rw [← hset, hnumbers field] at hunread
      cases hunread

end SettingsSource

/-- A number in the settings is the default where nothing is written, the integer that is written in
any of the four bases, and an error for every other text.  An integer can be written in each of the
bases.  A load takes each number from its variable so, and gives no settings where one of the texts is
not an integer.  A decimal of more digits than are read is the only integer that is refused. -/
theorem Settings.numbers_follow_grammar :
    (∀ default, readNumber none default = .ok default) ∧
    (∀ text default, (∀ c ∈ text.toList, isBlank c = true) →
      readNumber (some text) default = .ok default) ∧
    (∀ text default w, Spells isBlank .marked text.toList w → readNumber (some text) default =
      if w.TooLong then .error (.numeral (.tooLong w.digits.length)) else .ok w.value) ∧
    (∀ text i, Text.Numeral.read? .marked text = some i ↔
      ∃ w, Spells isNumeralBlank .marked text.toList w ∧ w.value = i) ∧
    (∀ text default, (∃ c ∈ text.toList, isBlank c = false) →
      (∀ w, ¬Spells isBlank .marked text.toList w) →
      ∃ e, readNumber (some text) default = .error (.numeral e)) ∧
    (∀ i : Int, ∀ base ∈ [2, 8, 10, 16], ∃ text : String, ∃ w,
      Spells isBlank .marked text.toList w ∧ w.base = base ∧ w.value = i) ∧
    (∀ src s, (SettingsSource.load src).1 = .ok s → ∀ field : NumberField,
      readNumber (src.load.2.environment.find? field.name) field.default = .ok (field.value s)) ∧
    ∀ (src : SettingsSource) (field : NumberField) text,
      src.load.2.environment.find? field.name = some text →
      (∃ c ∈ text.toList, isBlank c = false) → (∀ w, ¬Spells isBlank .marked text.toList w) →
      (∃ e, src.load.1 = .error (.numeral e)) ∨ ∃ e, src.FileFails e ∧ src.load.1 = .error e := by
  refine ⟨fun _ => rfl, ?_, ?_, ?_, ?_, ?_, ?_, ?_⟩
  · intro text default hblank
    exact readNumber_of_blank hblank default
  · intro text default w hw
    exact readNumber_of_spells hw default
  · intro text i
    rw [← Text.Numeral.read?_iff, String.ofList_toList]
  · intro text default hsome hnone
    exact readNumber_of_not_spells hsome hnone default
  · intro i base hbase
    obtain ⟨cs, w, hw⟩ := Text.exists_spells isBlank i hbase
    exact ⟨String.ofList cs, w, by rwa [String.toList_ofList]⟩
  · intro src s hload field
    exact (SettingsSource.readFrom_of_load hload).number field
  · intro src field text hset hsome hnone
    exact SettingsSource.load_of_not_spells hset hsome hnone

theorem Settings.numbers_follow_grammar_on_samples :
    readNumber (some " -0x_1F ") 7 = .ok (-31) ∧ readNumber (some " ") 7 = .ok 7 ∧
      ∃ e, readNumber (some "01") 7 = .error (.numeral e) := by
  obtain ⟨-, hblank, hread, hunbounded, hreject, -⟩ := numbers_follow_grammar
  refine ⟨?_, hblank " " 7 (by simp; decide), ?_⟩
  · have hwritten : Spells isBlank .marked " -0x_1F ".toList ⟨true, 16, [1, 15]⟩ := by
      refine ⟨[' '], ['-', '0', 'x', '_', '1', 'F'], [' '], by decide, by simp; decide,
        by simp; decide, ['-'], ['0', 'x', '_', '1', 'F'], rfl, by simp [Text.signs], ?_⟩
      exact .marked rfl (by decide) (by simp [Text.baseMarks])
        (.spaced (by decide) (.next (by decide) .done)) (List.cons_ne_nil _ _)
    rw [hread _ 7 _ hwritten, if_neg fun h => absurd h.1 (by decide)]
    rfl
  · apply hreject
    · exact ⟨'0', by simp, by decide⟩
    · intro w hw
      have htrim : Text.trim isBlank "01".toList = "01".toList := by decide
      have hinner := spells_trim_iff.mpr hw
      rw [htrim] at hinner
      have hvalue := (hunbounded "01" w.value).mpr ⟨w, hinner, rfl⟩
      have hnone : Text.Numeral.read? .marked "01" = none := by cbv
      rw [hnone] at hvalue
      cases hvalue

end ResumableStorage
