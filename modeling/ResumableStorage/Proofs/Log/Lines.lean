/-
  ResumableStorage/Proofs/Log/Lines.lean
  ======================================
  **What a log line says** — a line is read back as the record that it was written for: an
  exception comes before the extra fields, and these before level, logger and message.
  Names and texts from outside can neither end a line nor add a field to it.
-/
import ResumableStorage.Log.Template.Filling
import ResumableStorage.Proofs.Value.JsonText
import ResumableStorage.Proofs.Value.Limits

namespace ResumableStorage

/-! ## 1. Fields of a record -/

namespace Value

theorem Plain.set {fields : Fields} {v : Value} (h : (Value.object fields).Plain) (name : String)
    (hv : v.Plain) : (Value.object (fields.set name v)).Plain := by
  cases h with
  | object distinct each =>
    refine .object (Fields.nodup_set distinct name v) fun f hf => ?_
    rcases Fields.mem_set hf with hf | hf
    · exact each f hf
    · exact hf ▸ hv

theorem Plain.update {fields more : Fields} (h : (Value.object fields).Plain)
    (hmore : ∀ f ∈ more, f.2.Plain) : (Value.object (fields.update more)).Plain := by
  induction more generalizing fields with
  | nil => exact h
  | cons f more ih =>
    exact ih (h.set f.1 (hmore f List.mem_cons_self)) fun g hg => hmore g (List.mem_cons_of_mem f hg)

end Value

namespace LogRecord

/-- The fields that every record has. -/
def common (level : Level) (logger message : String) : Fields :=
  [("level", .text level.name), ("logger", .text logger), ("message", .text message)]

/-- The field in which a record reports an exception. -/
def reported (exception : Option String) : Fields :=
  (exception.map fun account => ("exc_info", Value.text account)).toList

/-- What a record has under a name: what it reports comes first and what all records have last. -/
def entry? (level : Level) (logger message : String) (extra : Fields)
    (exception : Option String) (name : String) : Option Value :=
  (Fields.find? (reported exception) name).or
    ((Fields.find? extra name).or (Fields.find? (common level logger message) name))

theorem fields_eq (r : LogRecord) : r.fields =
    ((common r.level r.logger r.message).update r.extra).update (reported r.exception) := by
  rw [fields]
  cases r.exception <;> rfl

theorem nodup_common (level : Level) (logger message : String) :
    ((common level logger message).map Prod.fst).Nodup := by
  show ["level", "logger", "message"].Nodup
  decide

theorem plain_common (level : Level) (logger message : String) :
    (Value.object (common level logger message)).Plain := by
  refine .object (nodup_common level logger message) fun f hf => ?_
  simp only [common, List.mem_cons, List.not_mem_nil, or_false] at hf
  rcases hf with rfl | rfl | rfl <;> exact .text _

theorem nodup_reported (exception : Option String) :
    ((reported exception).map Prod.fst).Nodup := by
  cases exception with
  | none => exact List.nodup_nil
  | some e => exact List.nodup_singleton "exc_info"

theorem plain_reported (exception : Option String) : ∀ f ∈ reported exception, f.2.Plain := by
  intro f hf
  obtain ⟨e, -, rfl⟩ := Option.map_eq_some_iff.mp (Option.mem_toList.mp hf)
  exact .text _

/-- Extra fields that JSON has a form for leave the record one. -/
theorem plain_fields {r : LogRecord} (h : (Value.object r.extra).Plain) :
    (Value.object r.fields).Plain := by
  cases h with
  | object _ each =>
    rw [fields_eq]
    exact ((plain_common _ _ _).update each).update (plain_reported _)

/-- Each name stands where it comes first. -/
theorem names_fields (r : LogRecord) : r.fields.map Prod.fst = (["level", "logger", "message"] ++
    (r.extra.map Prod.fst ++ (reported r.exception).map Prod.fst)).eraseDups := by
  have hall : r.fields =
      (common r.level r.logger r.message).update (r.extra ++ reported r.exception) := by
    rw [fields_eq, Fields.update, Fields.update, Fields.update, List.foldl_append]
  rw [hall, Fields.names_update (nodup_common _ _ _), List.map_append]
  rfl

theorem find?_fields {r : LogRecord} (h : (r.extra.map Prod.fst).Nodup) (name : String) :
    Fields.find? r.fields name =
      entry? r.level r.logger r.message r.extra r.exception name := by
  rw [fields_eq, Fields.find?_update (nodup_reported _), Fields.find?_update h]
  rfl

/-! ## 2. The line -/

/-- The line of a record whose message can be filled, whatever its level is called and whatever the
account of its exception is.  The line comes about unless an integer of the record has more digits, or
its fields have more levels, than the machine allows; one that sets no such bounds writes every record.

The line holds no control character and is read back as one object.  Its names are those of the
record, each where it comes first; under each of them it has what the record has there, whatever the
names and the texts of the extra fields are. -/
theorem line_says_record {m : Machine} {template message : String} {args : List Value}
    {extra : Option Fields} (level : Level) (logger : String) (exception : Option String)
    (hmessage : Template.message m template args = .ok message)
    (hextra : (Value.object (extra.getD [])).Plain) :
    ∃ r text,
      ofTemplate m level logger template args (extra.elim .null .object) exception = .ok r ∧
      r.line .unlimited = .ok text ∧
      (∀ m', (Value.object r.fields).Fits m' → r.line m' = .ok text) ∧
      (∀ m', ¬ (Value.object r.fields).Fits m' → ∃ e, r.line m' = .error e) ∧
      (∀ c ∈ text.toList, 0x20 ≤ c.toNat) ∧
      Json.read? text = some (.object r.fields) ∧
      r.fields.map Prod.fst = (["level", "logger", "message"] ++ ((extra.getD []).map Prod.fst ++
        (reported exception).map Prod.fst)).eraseDups ∧
      (r.fields.map Prod.fst).Nodup ∧
      ∀ name, Fields.find? r.fields name =
        entry? level logger message (extra.getD []) exception name := by
  have hrecord : ofTemplate m level logger template args (extra.elim .null .object) exception =
      .ok { level, logger, message, extra := extra.getD [], exception } := by
    unfold ofTemplate
    rw [hmessage]
    cases extra <;> rfl
  let r : LogRecord := { level, logger, message, extra := extra.getD [], exception }
  have hplain : (Value.object r.fields).Plain := plain_fields hextra
  have hprinted : ∀ c ∈ (Value.object r.fields).toJson.toList, 0x20 ≤ c.toNat := by
    rw [Value.toJson, String.toList_ofList]
    exact hplain.writeJson_printed
  have hfails : ∀ m', ¬ (Value.object r.fields).Fits m' → ∃ e, r.line m' = .error e := by
    intro m' hnot
    rcases Value.dump_of_not_fits hnot with ⟨limit, he, -⟩ | ⟨limit, he, -⟩
    · exact ⟨_, he⟩
    · exact ⟨_, he⟩
  have hnodup : (r.fields.map Prod.fst).Nodup := by
    cases hplain with
    | object distinct _ => exact distinct
  have hnames : (r.extra.map Prod.fst).Nodup := by
    cases hextra with
    | object distinct _ => exact distinct
  exact ⟨r, (Value.object r.fields).toJson, hrecord, Value.dump_of_fits (Value.fits_unlimited _),
    fun m' => Value.dump_of_fits, hfails, hprinted, hplain.read?_toJson, names_fields r, hnodup,
    find?_fields hnames⟩

/-- A level with a name of its own, a message with an end of line and a quotation mark in it, an extra
field in its place, one whose name looks like the end of a field, and one in the place of the
exception, whose account has three lines.  The fields have three levels. -/
theorem line_says_record_with_forged_names :
    let m : Machine := { digits := some 4300, depth := some 3 }
    let args := [Value.text "\"\n\x7b\\\x01é", .int (-2)]
    let items := [Value.null, .bool true, .int (-70), .text "\u2028"]
    let extra : Fields := [("message", .list items),
      ("a\": 1, \"b", .object [("level", .text "\t"), ("", .list [])]), ("exc_info", .int 0)]
    let account := "Traceback:\n  in f\n" ++ Exception.summary ⟨"KeyError", [.text "k\r"]⟩
    Template.message m "%s in %d%%" args = .ok "\"\n\x7b\\\x01é in -2%" ∧
      (Value.object extra).Plain ∧
      ∃ r text,
        ofTemplate m ⟨25, "Level 25"⟩ "storage" "%s in %d%%" args (.object extra) account = .ok r ∧
        r.line m = .ok text ∧ (∃ e, r.line { m with depth := some 2 } = .error e) ∧
        (∀ c ∈ text.toList, 0x20 ≤ c.toNat) ∧ Json.read? text = some (.object r.fields) ∧
        r.fields.map Prod.fst = ["level", "logger", "message", "a\": 1, \"b", "exc_info"] ∧
        Fields.find? r.fields "level" = some (.text "Level 25") ∧
        Fields.find? r.fields "message" = some (.list items) ∧
        Fields.find? r.fields "exc_info" = some (.text account) := by
  intro m args items extra account
  have hmessage : Template.message m "%s in %d%%" args = .ok "\"\n\x7b\\\x01é in -2%" := rfl
  have hitems : ∀ v ∈ items, v.Plain := by
    simp only [items, List.forall_mem_cons]
    exact ⟨.null, .bool true, .int _, .text _, by simp⟩
  have hinner : (Value.object [("level", .text "\t"), ("", .list [])]).Plain := by
    refine .object (by decide) ?_
    simp only [List.forall_mem_cons]
    exact ⟨.text _, .list (by simp), by simp⟩
  have hplain : (Value.object extra).Plain := by
    refine .object (by decide) ?_
    simp only [extra, List.forall_mem_cons]
    exact ⟨.list hitems, hinner, .int 0, by simp⟩
  obtain ⟨r, text, hrecord, -, hwritten, hfails, hprinted, hread, hnames, -, hfind⟩ :=
    @line_says_record m _ _ args (some extra) ⟨25, "Level 25"⟩ "storage" (some account) hmessage
      hplain
  have hr : r = ⟨⟨25, "Level 25"⟩, "storage", "\"\n\x7b\\\x01é in -2%", extra, some account⟩ := by
    have hmade : ofTemplate m ⟨25, "Level 25"⟩ "storage" "%s in %d%%" args (.object extra) account =
        .ok ⟨⟨25, "Level 25"⟩, "storage", "\"\n\x7b\\\x01é in -2%", extra, some account⟩ := by
      unfold ofTemplate
      rw [hmessage]
      rfl
    exact Except.ok.inj (hrecord.symm.trans hmade)
  have hdigits : (Value.object r.fields).mostDigits = 2 := by
    rw [hr]
    decide +kernel
  have hlevels : (Value.object r.fields).levels = 3 := by
    rw [hr]
    decide +kernel
  have hline : r.line m = .ok text := by
    apply hwritten m
    refine ⟨fun limit h => ?_, fun limit h => ?_⟩
    · cases h
      rw [hdigits]
      decide
    · cases h
      exact Nat.le_of_eq hlevels
  have hdeep : ∃ e, r.line { m with depth := some 2 } = .error e := by
    apply hfails
    intro hfits
    have hle := hfits.depth 2 rfl
    omega
  refine ⟨hmessage, hplain, r, text, hrecord, hline, hdeep, hprinted, hread, ?_, ?_, ?_, ?_⟩
  · rw [hnames]
    decide
  · rw [hfind]
    rfl
  · rw [hfind]
    rfl
  · rw [hfind]
    rfl

end LogRecord

end ResumableStorage
