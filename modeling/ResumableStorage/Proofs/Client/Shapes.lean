/-
  ResumableStorage/Proofs/Client/Shapes.lean
  ==========================================
  **Answers that can be decoded** — what an answer has to look like.  A shape tells which
  fields an answer has, which it may leave out, and of what kind they are; an answer of
  any other shape cannot be decoded.  So the shapes say for every answer, however odd,
  whether the client can use it.

  A shape is a test that can be computed.  It does not mention how an answer is decoded;
  that it is the right one is proved for each decoder.
-/
import ResumableStorage.Proofs.Client.Lookups

namespace ResumableStorage

/-! ## 1. Results that pass a test -/

namespace Except

variable {ε α β : Type} {x : Except ε α} {p : α → Bool} {b : Bool}

/-- The result is a value that passes the test. -/
def holds (x : Except ε α) (p : α → Bool) : Bool :=
  match x with
  | .ok a => p a
  | .error _ => false

theorem isOk_pure (a : α) : (pure a : Except ε α).isOk = true := rfl

theorem isOk_bind {f : α → Except ε β} : (x >>= f).isOk = holds x fun a => (f a).isOk := by
  cases x <;> rfl

theorem holds_pure {a : α} : holds (pure a : Except ε α) p = p a := rfl

theorem holds_bind {f : α → Except ε β} {q : β → Bool} :
    holds (x >>= f) q = holds x fun a => holds (f a) q := by
  cases x <;> rfl

theorem holds_const : (holds x fun _ => b) = (x.isOk && b) := by
  cases x <;> rfl

theorem holds_and : (holds x fun a => p a && b) = (holds x p && b) := by
  cases x <;> rfl

theorem isOk_mapM {f : α → Except ε β} {l : List α} :
    (l.mapM f).isOk = l.all fun a => (f a).isOk := by
  induction l with
  | nil => rfl
  | cons a rest ih =>
    have hrest : ∀ b, (rest.mapM f >>= fun bs => pure (b :: bs)).isOk = (rest.mapM f).isOk := by
      intro b
      rw [isOk_bind]
      cases rest.mapM f <;> rfl
    rw [List.mapM_cons, List.all_cons, ← ih, isOk_bind, ← holds_const]
    simp only [hrest]

end Except

/-! ## 2. Shapes of values -/

namespace Value

def isMapping : Value → Bool
  | object _ => true
  | _ => false

def isNull : Value → Bool
  | null => true
  | _ => false

def isHandle : Value → Bool
  | handle => true
  | _ => false

/-- The value can be read as an integer. -/
def isNumber (v : Value) : Bool :=
  v.toInt.isOk

/-- The value is an object with this field, and the field passes the test. -/
def has (v : Value) (name : String) (p : Value → Bool) : Bool :=
  match v with
  | object fields => (Fields.find? fields name).any p
  | _ => false

/-- The value is an object, and the field passes the test if it is there. -/
def mayHave (v : Value) (name : String) (p : Value → Bool) : Bool :=
  match v with
  | object fields => (Fields.find? fields name).all p
  | _ => false

def hasField (v : Value) (name : String) : Bool :=
  v.has name fun _ => true

/-- The value has items, and all of them pass the test. -/
def isSequence (v : Value) (p : Value → Bool) : Bool :=
  match v.items with
  | .ok vs => vs.all p
  | .error _ => false

/-- A value that counts as given passes the test. -/
def ifGiven (v : Value) (p : Value → Bool) : Bool :=
  !v.isGiven || p v

variable {v : Value} {name : String} {p : Value → Bool}

theorem holds_field : Except.holds (v.field name) p = v.has name p := by
  cases v
  case object fields =>
    simp only [field, has]
    cases Fields.find? fields name <;> rfl
  all_goals rfl

/-- A field that is left out has to pass as its default. -/
theorem holds_fieldD {default : Value} (h : p default = true) :
    Except.holds (v.fieldD name default) p = v.mayHave name p := by
  cases v
  case object fields =>
    simp only [fieldD, field?_object, mayHave]
    cases Fields.find? fields name
    · exact h
    · rfl
  all_goals rfl

theorem isOk_field : (v.field name).isOk = v.hasField name := by
  cases v
  case object fields =>
    simp only [field, hasField, has]
    cases Fields.find? fields name <;> rfl
  all_goals rfl

theorem isOk_fieldD {default : Value} : (v.fieldD name default).isOk = v.isMapping := by
  cases v <;> rfl

theorem isMapping_and_mayHave : (v.isMapping && v.mayHave name p) = v.mayHave name p := by
  cases v <;> rfl

theorem hasField_and_isMapping : (v.hasField name && v.isMapping) = v.hasField name := by
  cases v
  case object fields => exact Bool.and_true _
  all_goals rfl

theorem mayHave_and_isMapping : (v.mayHave name p && v.isMapping) = v.mayHave name p := by
  rw [Bool.and_comm, isMapping_and_mayHave]

theorem isMapping_of_mayHave (h : v.mayHave name p = true) : v.isMapping = true := by
  rw [← isMapping_and_mayHave, Bool.and_eq_true] at h
  exact h.1

variable {q : Value → Bool}

theorem mayHave_mono (hpq : ∀ w, p w = true → q w = true) (h : v.mayHave name p = true) :
    v.mayHave name q = true := by
  cases v
  case object fields =>
    simp only [mayHave, Option.all_eq_true] at h ⊢
    exact fun w hw => hpq w (h w hw)
  all_goals cases h

theorem mayHave_of_has (hpq : ∀ w, p w = true → q w = true) (h : v.has name p = true) :
    v.mayHave name q = true := by
  cases v
  case object fields =>
    simp only [has, mayHave, Option.any_eq_true, Option.all_eq_true] at h ⊢
    obtain ⟨w, hw, hp⟩ := h
    intro u hu
    obtain rfl : w = u := Option.some_inj.mp (hw.symm.trans hu)
    exact hpq w hp
  all_goals cases h

theorem ifGiven_mono (hpq : ∀ w, p w = true → q w = true) (h : v.ifGiven p = true) :
    v.ifGiven q = true := by
  rw [ifGiven, Bool.or_eq_true] at h ⊢
  exact h.imp_right (hpq v)

/-- All items of a value are decoded when each of them is. -/
theorem holds_items_mapM {α : Type} {f : Value → Except Malformed α} :
    (Except.holds v.items fun vs => (vs.mapM f).isOk) = v.isSequence fun w => (f w).isOk := by
  simp only [Except.isOk_mapM, isSequence]
  cases v.items <;> rfl

theorem isOk_mapM_given? : (v.given?.mapM toInt).isOk = v.ifGiven isNumber := by
  rw [given?, ifGiven]
  split
  case isTrue h =>
    rw [h]
    change (v.toInt >>= fun n => pure (some n)).isOk = v.toInt.isOk
    rw [Except.isOk_bind]
    cases v.toInt <;> rfl
  case isFalse h =>
    rw [Bool.not_eq_true] at h
    rw [h]
    rfl

end Value

/-! ## 3. Shapes of answers -/

/-- An entry of a listing of parts. -/
def Part.isEntry (v : Value) : Bool :=
  v.has "PartNumber" Value.isNumber && v.mayHave "Size" Value.isNumber

theorem Part.isOk_decode (v : Value) : (decode v).isOk = isEntry v := by
  have hnumber : (Except.holds (v.field "PartNumber") fun w => w.toInt.isOk) =
      v.has "PartNumber" Value.isNumber := Value.holds_field
  have hsize : (Except.holds (v.fieldD "Size" (.int 0)) fun w => w.toInt.isOk) =
      v.mayHave "Size" Value.isNumber := Value.holds_fieldD rfl
  simp only [decode, Except.isOk_bind, Except.isOk_pure, Except.holds_const, Bool.and_true,
    Value.isOk_fieldD, Except.holds_and, hnumber, hsize, Value.isMapping_and_mayHave]
  rfl

def PartPage.isPage (v : Value) : Bool :=
  v.mayHave "Parts" (·.isSequence Part.isEntry) &&
    v.mayHave "NextPartNumberMarker" (·.ifGiven Value.isNumber)

theorem PartPage.isOk_decode (v : Value) : (decode v).isOk = isPage v := by
  have hparts : (Except.holds (v.fieldD "Parts" (.list [])) fun w => w.isSequence Part.isEntry) =
      v.mayHave "Parts" (·.isSequence Part.isEntry) := Value.holds_fieldD rfl
  have hmarker : (Except.holds (v.fieldD "NextPartNumberMarker" .null) fun w =>
      w.ifGiven Value.isNumber) = v.mayHave "NextPartNumberMarker" (·.ifGiven Value.isNumber) :=
    Value.holds_fieldD rfl
  simp only [decode, Except.isOk_bind, Except.isOk_pure, Except.holds_const, Bool.and_true,
    Value.isOk_fieldD, Value.isOk_mapM_given?, Bool.and_comm v.isMapping, Except.holds_and,
    Value.holds_items_mapM, Part.isOk_decode, hparts, hmarker, Value.mayHave_and_isMapping]
  rfl

/-- An entry of a listing of uploads. -/
def InFlight.isEntry (v : Value) : Bool :=
  v.hasField "Key" && v.hasField "UploadId"

theorem InFlight.isOk_decode (v : Value) : (decode v).isOk = isEntry v := by
  simp only [decode, Except.isOk_bind, Except.isOk_pure, Except.holds_const, Bool.and_true,
    Value.isOk_field, Value.isOk_fieldD, Value.hasField_and_isMapping]
  rfl

def UploadPage.isPage (v : Value) : Bool :=
  v.mayHave "Uploads" (·.isSequence InFlight.isEntry)

theorem UploadPage.isOk_decode (v : Value) : (decode v).isOk = isPage v := by
  have huploads : (Except.holds (v.fieldD "Uploads" (.list [])) fun w =>
      w.isSequence InFlight.isEntry) = v.mayHave "Uploads" (·.isSequence InFlight.isEntry) :=
    Value.holds_fieldD rfl
  simp only [decode, Except.isOk_bind, Except.isOk_pure, Except.holds_const, Bool.and_true,
    Value.isOk_fieldD, Except.holds_and, Value.holds_items_mapM, InFlight.isOk_decode, huploads,
    Bool.and_self, Value.mayHave_and_isMapping]
  rfl

/-- A size that is not told may be left out, or null. -/
def ObjectHead.isHead (v : Value) : Bool :=
  v.mayHave "ContentLength" fun w => w.isNull || w.isNumber

theorem ObjectHead.isOk_decode (v : Value) : (decode v).isOk = isHead v := by
  have hlength : (Except.holds (v.fieldD "ContentLength" .null) fun w => w.isNull || w.isNumber) =
      v.mayHave "ContentLength" fun w => w.isNull || w.isNumber := Value.holds_fieldD rfl
  have hrest : (decode v).isOk = Except.holds (v.fieldD "ContentLength" .null) fun w =>
      (w.isNull || w.isNumber) && v.isMapping := by
    rw [decode, Except.isOk_bind]
    congr 1
    funext w
    cases w <;> simp only [Except.isOk_bind, Except.isOk_pure, Except.holds_const, Bool.and_true,
      Bool.true_and, Value.isOk_fieldD, Bool.and_self, Value.isNull, Value.isNumber, Bool.true_or,
      Bool.false_or]
  rw [hrest, Except.holds_and, hlength, Value.mayHave_and_isMapping]
  rfl

namespace ObjectListing

def isEntry (v : Value) : Bool :=
  v.hasField "Key" && v.mayHave "Size" Value.isNumber

def isPage (v : Value) : Bool :=
  v.mayHave "Contents" (·.isSequence isEntry) &&
    v.mayHave "CommonPrefixes" (·.isSequence (·.hasField "Prefix"))

theorem isOk_decodeObject (v : Value) : (decodeObject v).isOk = isEntry v := by
  have hsize : (Except.holds (v.fieldD "Size" (.int 0)) fun w => w.toInt.isOk) =
      v.mayHave "Size" Value.isNumber := Value.holds_fieldD rfl
  simp only [decodeObject, Except.isOk_bind, Except.isOk_pure, Except.holds_const, Bool.and_true,
    Value.isOk_field, Value.isOk_fieldD, Except.holds_and, hsize, Value.mayHave_and_isMapping]
  rfl

theorem isOk_decodePage (v : Value) : (decodePage v).isOk = isPage v := by
  have hobjects : (Except.holds (v.fieldD "Contents" (.list [])) fun w => w.isSequence isEntry) =
      v.mayHave "Contents" (·.isSequence isEntry) := Value.holds_fieldD rfl
  have hfronts : (Except.holds (v.fieldD "CommonPrefixes" (.list [])) fun w =>
      w.isSequence (·.hasField "Prefix")) =
        v.mayHave "CommonPrefixes" (·.isSequence (·.hasField "Prefix")) := Value.holds_fieldD rfl
  simp only [decodePage, Except.isOk_bind, Except.isOk_pure, Except.holds_const, Bool.and_true,
    Value.isOk_field, Except.holds_and, Value.holds_items_mapM, isOk_decodeObject, hobjects,
    hfronts]
  rfl

end ObjectListing

namespace Client

/-- What an answer to a copy has to be: its result is an object when it is given at all. -/
def isCopy (v : Value) : Bool :=
  v.mayHave "CopyPartResult" (·.ifGiven Value.isMapping)

theorem isOk_copyTag (v : Value) : (copyTag v).isOk = isCopy v := by
  have hresult : (Except.holds (v.fieldD "CopyPartResult" .null) fun w =>
      w.ifGiven Value.isMapping) = isCopy v := Value.holds_fieldD rfl
  rw [copyTag, Except.isOk_bind, ← hresult]
  congr 1
  funext w
  rw [Value.ifGiven]
  split
  case isTrue h => rw [Value.isOk_fieldD, h, Bool.not_true, Bool.false_or]
  case isFalse h => simp only [Except.isOk_pure, h, Bool.not_false, Bool.true_or]

/-- The tag of a copy passes a test that null passes when it does so wherever it is told. -/
theorem holds_copyTag {p : Value → Bool} (hnull : p .null = true) (v : Value) :
    Except.holds (copyTag v) p = v.mayHave "CopyPartResult" (·.ifGiven (·.mayHave "ETag" p)) := by
  have hresult : (Except.holds (v.fieldD "CopyPartResult" .null) fun w =>
      w.ifGiven (·.mayHave "ETag" p)) =
        v.mayHave "CopyPartResult" (·.ifGiven (·.mayHave "ETag" p)) := Value.holds_fieldD rfl
  rw [copyTag, Except.holds_bind, ← hresult]
  congr 1
  funext w
  rw [Value.ifGiven]
  split
  case isTrue h => rw [Value.holds_fieldD hnull, h, Bool.not_true, Bool.false_or]
  case isFalse h => simp only [Except.holds_pure, hnull, h, Bool.not_false, Bool.true_or]

/-- A list that begins with an object: the keys that were not deleted. -/
def isKeyErrors : Value → Bool
  | .list (first :: _) => first.isMapping
  | _ => false

/-- What an answer to a deletion has to be: the keys that were not deleted are told by a list. -/
def isDeletion (v : Value) : Bool :=
  v.mayHave "Errors" (·.ifGiven isKeyErrors)

/-- The answer to a deletion tells of keys that were not deleted. -/
def leavesKeys (v : Value) : Bool :=
  v.has "Errors" isKeyErrors

theorem isGiven_of_isKeyErrors {w : Value} (h : isKeyErrors w = true) : w.isGiven = true := by
  rcases w with _ | _ | _ | _ | _ | _ | _ | (_ | ⟨first, rest⟩)
  case list.cons => rfl
  all_goals cases h

/-- What is made of the keys that an answer to a deletion tells of. -/
theorem undeleted?_of_errors {v w : Value} (h : v.fieldD "Errors" .null = .ok w) :
    (w.isGiven = false ∧ undeleted? v = .ok none) ∨
    (isKeyErrors w = true ∧ ∃ e, undeleted? v = .ok (some e) ∧ e.family = .backend) ∨
    (w.isGiven = true ∧ isKeyErrors w = false ∧ ∃ m, undeleted? v = .error m) := by
  rcases hgiven : w.isGiven
  · refine .inl ⟨rfl, ?_⟩
    simp only [undeleted?, h, bind, Except.bind, hgiven, Bool.not_false, if_true]
    rfl
  · refine .inr ?_
    rcases w with _ | _ | _ | _ | _ | _ | _ | (_ | ⟨first, rest⟩)
    case list.cons =>
      rcases first
      case object fields => exact .inl ⟨rfl, _, by rw [undeleted?, h]; rfl, rfl⟩
      all_goals exact .inr ⟨rfl, rfl, _, by rw [undeleted?, h]; rfl⟩
    all_goals
      refine .inr ⟨rfl, rfl, ?_⟩
      simp only [undeleted?, h, bind, Except.bind, hgiven, Bool.not_true, Bool.false_eq_true,
        if_false]
      exact ⟨_, rfl⟩

/-- An answer to a deletion tells of no key, or of keys that were not deleted, or it cannot be
decoded. -/
theorem undeleted?_cases (v : Value) :
    (isDeletion v = true ∧ leavesKeys v = false ∧ undeleted? v = .ok none) ∨
    (isDeletion v = true ∧ leavesKeys v = true ∧
      ∃ e, undeleted? v = .ok (some e) ∧ e.family = .backend) ∨
    (isDeletion v = false ∧ ∃ m, undeleted? v = .error m) := by
  cases v
  case object fields =>
    simp only [isDeletion, leavesKeys, Value.mayHave, Value.has]
    rcases hfield : Fields.find? fields "Errors" with _ | w
    · refine .inl ⟨rfl, rfl, ?_⟩
      simp only [undeleted?, Value.fieldD, Value.field?_object, hfield]
      rfl
    · have hw : (Value.object fields).fieldD "Errors" .null = .ok w := by
        simp only [Value.fieldD, Value.field?_object, hfield]
        rfl
      rcases undeleted?_of_errors hw with ⟨hgiven, hnone⟩ | ⟨herrors, hsome⟩ |
        ⟨hgiven, herrors, hmalformed⟩
      · have herrors : isKeyErrors w = false :=
          Bool.eq_false_iff.mpr fun h => by simp [isGiven_of_isKeyErrors h] at hgiven
        exact .inl ⟨by simp [Value.ifGiven, hgiven], by simp [herrors], hnone⟩
      · exact .inr (.inl ⟨by simp [Value.ifGiven, herrors], by simp [herrors], hsome⟩)
      · exact .inr (.inr ⟨by simp [Value.ifGiven, hgiven, herrors], hmalformed⟩)
  all_goals exact .inr (.inr ⟨rfl, _, rfl⟩)

end Client

end ResumableStorage
