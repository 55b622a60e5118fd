/-
  ResumableStorage/Proofs/Client/Reading.lean
  ===========================================
  **What is read from a store** — a run that only reads comes to a result that the store
  determines, and leaves the store as it is.  What a composed run sees follows from what
  its steps see, so that the views of an object can be compared as functions of a store.
-/
import ResumableStorage.Proofs.Client.Decoding
import ResumableStorage.Proofs.Store.Objects
import ResumableStorage.Proofs.Text.Cutting

namespace ResumableStorage

variable {α β : Type}

/-! ## 1. Runs that read -/

namespace Run

/-- On a service over this store of which nothing is disturbed the run has this result, and
nothing of the store is changed. -/
def Sees (x : Run (Disturbed Store) α) (s : Store) (result : Except Error α) : Prop :=
  ∀ c : Context (Disturbed Store), c.service.IsCalm → c.store = s →
    ∃ c', x.execute c = (result, c') ∧ c'.service.IsCalm ∧ c'.store = s

variable {x : Run (Disturbed Store) α} {f : α → Run (Disturbed Store) β} {s : Store} {a : α}
  {e : Error} {result : Except Error α} {result' : Except Error β}

theorem sees_pure (a : α) : (pure a : Run (Disturbed Store) α).Sees s (.ok a) :=
  fun c hcalm hstore => ⟨c, rfl, hcalm, hstore⟩

theorem sees_throw (e : Error) : (throw e : Run (Disturbed Store) α).Sees s (.error e) :=
  fun c hcalm hstore => ⟨c, rfl, hcalm, hstore⟩

theorem sees_decoded (y : Except Malformed α) :
    (decoded y : Run (Disturbed Store) α).Sees s (y.mapError .malformed) :=
  fun c hcalm hstore => ⟨c, execute_decoded y c, hcalm, hstore⟩

theorem Sees.bind (hx : x.Sees s (.ok a)) (hf : (f a).Sees s result') :
    (x >>= f).Sees s result' := by
  intro c hcalm hstore
  obtain ⟨c₁, hrun, hcalm₁, hstore₁⟩ := hx c hcalm hstore
  obtain ⟨c', hrest, hcalm', hstore'⟩ := hf c₁ hcalm₁ hstore₁
  exact ⟨c', by simp only [execute_bind, hrun, hrest], hcalm', hstore'⟩

theorem Sees.bind_error (hx : x.Sees s (.error e)) : (x >>= f).Sees s (.error e) := by
  intro c hcalm hstore
  obtain ⟨c', hrun, hcalm', hstore'⟩ := hx c hcalm hstore
  exact ⟨c', by simp only [execute_bind, hrun], hcalm', hstore'⟩

theorem Sees.attempt (hx : x.Sees s result) : (attempt x).Sees s (.ok result) := by
  intro c hcalm hstore
  obtain ⟨c', hrun, hcalm', hstore'⟩ := hx c hcalm hstore
  exact ⟨c', by rw [execute_attempt, hrun], hcalm', hstore'⟩

theorem Sees.notFoundAs (hx : x.Sees s result) (path : String) :
    (notFoundAs path x).Sees s (result.mapError (·.named path)) := by
  intro c hcalm hstore
  obtain ⟨c', hrun, hcalm', hstore'⟩ := hx c hcalm hstore
  refine ⟨c', ?_, hcalm', hstore'⟩
  rw [Run.notFoundAs, execute_tryCatch, hrun]
  cases result <;> rfl

/-- Runs that see one value each, one after the other. -/
theorem Sees.mapM {l : List α} {values : List β}
    (h : List.Forall₂ (fun a b => (f a).Sees s (.ok b)) l values) :
    (l.mapM f).Sees s (.ok values) := by
  induction h with
  | nil => exact sees_pure []
  | cons hf _ ih =>
    rw [List.mapM_cons]
    exact hf.bind (ih.bind (sees_pure _))

variable {action : Action} {r : Request} {decode : Value → Except Error α} {v : Value}
  {failure : Failure}

theorem Decodes.sees_granted (h : x.Decodes action r decode) (heffect : s.effect r = .ok (v, s)) :
    x.Sees s (decode v) := by
  rintro c hcalm rfl
  obtain ⟨hrun, hstore⟩ := h.granted (hcalm.next_eq_none _) heffect
  exact ⟨_, hrun, hcalm.answer r, hstore⟩

theorem Decodes.sees_refused (h : x.Decodes action r decode)
    (heffect : s.effect r = .error failure) :
    x.Sees s (.error (.storage (.failed action failure))) := by
  rintro c hcalm rfl
  obtain ⟨hrun, hstore⟩ := h.refused (hcalm.next_eq_none _) heffect
  exact ⟨_, hrun, hcalm.answer r, hstore⟩

end Run

/-! ## 2. Requests that read -/

namespace Client

open Run

variable {s : Store} {key : String} {o : StoredObject}

theorem getObject_sees (ho : s.objects.find? key = some o) (bucket : String) :
    (getObject bucket key).Sees s (.ok (.stream o.content none)) :=
  (getObject_decodes bucket key).sees_granted (Store.effect_getObject ho rfl bucket)

theorem getObject_sees_none (ho : s.objects.find? key = none) (bucket : String) :
    (getObject bucket key).Sees s
      (.error (.storage (.failed .getObject (Store.missing "GetObject" "NoSuchKey")))) :=
  (getObject_decodes bucket key).sees_refused (Store.effect_getObject_missing ho bucket none)

theorem headObject_sees (ho : s.objects.find? key = some o) (bucket : String) :
    (headObject bucket key).Sees s (.ok ⟨o.content.size, .text (Store.tag o.content),
      .text "binary/octet-stream", .time o.modified⟩) :=
  (headObject_decodes bucket key).sees_granted (Store.effect_headObject ho bucket)

theorem headObject_sees_none (ho : s.objects.find? key = none) (bucket : String) :
    (headObject bucket key).Sees s
      (.error (.storage (.failed .headObject (Store.missing "HeadObject" "404")))) :=
  (headObject_decodes bucket key).sees_refused (Store.effect_headObject_missing ho bucket)

theorem listObjects_sees (s : Store) (bucket front : String) (delimiter : Option String)
    (maxItems : Option Int) : (listObjects bucket front delimiter maxItems).Sees s
      (.ok (Store.listingOf (s.entries
        ⟨bucket, front, nonEmpty delimiter, maxItems.filter (· ≠ 0)⟩))) := by
  rintro c hcalm rfl
  exact ⟨_, listObjects_execute (hcalm.calmFor _) (hcalm.calmFor _) bucket front delimiter maxItems,
    Context.isCalm_listed hcalm _, Context.listed_store c _⟩

/-! ## 3. Reading from an offset on -/

theorem getRange_decodes {σ : Type} [Service σ] (bucket key : String) (first : Int)
    (last : Option Int) : (getRange bucket key first last : Run σ Value).Decodes .getRange
      (.getObject bucket key (rangeText first last)) fun v =>
        (v.field "Body").mapError .malformed :=
  Run.decodes_send_bind fun _ c => Run.execute_decoded _ c

end Client

namespace Store

theorem toList_rangeText (n : Nat) :
    (Client.rangeText n none).toList = "bytes=".toList ++ (Nat.toDigits 10 n ++ ['-']) := by
  have hdigits : (toString (n : Int)).toList = Nat.toDigits 10 n := String.toList_ofList
  simp only [Client.rangeText, String.toList_append, hdigits, List.append_assoc]
  rfl

/-- A store reads the range that a client asks for. -/
theorem readRange?_rangeText (n : Nat) :
    readRange? (Client.rangeText n none) = some (n, none) := by
  have hdigit : ∀ c ∈ Nat.toDigits 10 n, c.isDigit = true :=
    fun c hc => Nat.isDigit_of_mem_toDigits (by decide) (by decide) hc
  have hdash : '-' ∉ Nat.toDigits 10 n := fun h => absurd (hdigit _ h) (by decide)
  have hfront : Text.startsWith (Client.rangeText n none) "bytes=" = true := by
    rw [Text.startsWith, toList_rangeText]
    exact List.isPrefixOf_iff_prefix.mpr (List.prefix_append _ _)
  have hcut : Text.cutAt '-' ((Client.rangeText n none).toList.drop "bytes=".length) =
      (Nat.toDigits 10 n, some []) := by
    rw [toList_rangeText, ← String.length_toList, List.drop_left]
    exact Text.cutAt_append hdash []
  have hall : (!(Nat.toDigits 10 n).isEmpty && (Nat.toDigits 10 n).all Char.isDigit) = true := by
    rw [List.all_eq_true.mpr hdigit]
    simp
  have hvalue : (Nat.toDigits 10 n).foldl (fun n c => n * 10 + (c.toNat - '0'.toNat)) 0 = n := by
    have hround := Nat.ofDigitChars_toDigits (b := 10) (n := n) (by decide) (by decide)
    simpa only [Nat.ofDigitChars, Nat.mul_comm] using hround
  simp only [readRange?, hfront, Bool.not_true, Bool.false_eq_true, if_false, hcut, hall, if_true,
    hvalue, Option.map_some]

/-- From an offset on, a store gives the rest of an object, and nothing at its end or behind. -/
theorem slice?_rangeText (content : Bytes) (n : Nat) :
    slice? content (some (Client.rangeText n none)) =
      if content.size ≤ n then none else some (content.extract n content.size) := by
  simp only [slice?, Option.bind_some, readRange?_rangeText]

end Store

namespace Client

open Run

variable {s : Store} {key : String} {o : StoredObject}

theorem getRange_sees (ho : s.objects.find? key = some o) (bucket : String) (n : Nat) :
    (getRange bucket key n none).Sees s (if o.content.size ≤ n then
        .error (.storage (.failed .getRange
          (.refused (Refusal.standard "GetObject" "InvalidRange" 416))))
      else .ok (.stream (o.content.extract n o.content.size) none)) := by
  by_cases hend : o.content.size ≤ n
  · rw [if_pos hend]
    have hslice : Store.slice? o.content (some (rangeText n none)) = none := by
      rw [Store.slice?_rangeText, if_pos hend]
    exact (getRange_decodes bucket key n none).sees_refused
      (Store.effect_getObject_past_end ho hslice bucket)
  · rw [if_neg hend]
    have hslice : Store.slice? o.content (some (rangeText n none)) =
        some (o.content.extract n o.content.size) := by
      rw [Store.slice?_rangeText, if_neg hend]
    exact (getRange_decodes bucket key n none).sees_granted
      (Store.effect_getObject ho hslice bucket)

theorem getRange_sees_none (ho : s.objects.find? key = none) (bucket : String) (first : Int)
    (last : Option Int) : (getRange bucket key first last).Sees s
      (.error (.storage (.failed .getRange (Store.missing "GetObject" "NoSuchKey")))) :=
  (getRange_decodes bucket key first last).sees_refused (Store.effect_getObject_missing ho bucket _)

end Client

end ResumableStorage
