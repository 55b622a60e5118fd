/-
  ResumableStorage/Proofs/Client/RangedCopies.lean
  ================================================
  **One meaning of byte ranges** — a range is written by whoever asks for it, read by the
  client to tell how long a copied part is, and read by the store to select the bytes.
  All three agree: the bytes from the first bound to the last, both included.  A text whose
  bounds are not integers is turned down before the store hears of it.
-/
import ResumableStorage.Proofs.Client.Ranges
import ResumableStorage.Proofs.Text.Numerals
import ResumableStorage.Proofs.Volume.Views

namespace ResumableStorage

/-! ## 1. Decimals of any length -/

namespace Text

variable {c : Char} {cs : List Char}

theorem standsFor_of_isDigit (h : c.isDigit = true) : StandsFor 10 c (c.toNat - '0'.toNat) := by
  obtain ⟨hlow, hhigh⟩ := Char.isDigit_iff_toNat.mp h
  have hzero : '0'.toNat = 48 := rfl
  have hnine : '9'.toNat = 57 := rfl
  refine ⟨by omega, .inl ?_⟩
  rw [decimalDigit?_of_lt (by omega)]
  omega

theorem digitRun_of_isDigit (h : ∀ c ∈ cs, c.isDigit = true) :
    DigitRun 10 cs (cs.map fun c => c.toNat - '0'.toNat) := by
  induction cs with
  | nil => exact .done
  | cons c cs ih =>
    exact .next (standsFor_of_isDigit (h c List.mem_cons_self))
      (ih fun d hd => h d (List.mem_cons_of_mem _ hd))

/-- A run of ASCII digits is a decimal without a sign, with as many digits as characters. -/
theorem spells_of_isDigit (hne : cs ≠ []) (h : ∀ c ∈ cs, c.isDigit = true) (p : Char → Bool) :
    Spells p .decimal cs ⟨false, 10, cs.map fun c => c.toNat - '0'.toNat⟩ := by
  obtain ⟨c, rest, rfl⟩ := List.exists_cons_of_ne_nil hne
  refine ⟨[], c :: rest, [], by simp, by simp, by simp, [], c :: rest, rfl, by simp [signs], ?_⟩
  exact .plain (standsFor_of_isDigit (h c List.mem_cons_self))
    (digitRun_of_isDigit fun d hd => h d (List.mem_cons_of_mem _ hd))
    fun hmarked => absurd hmarked (by decide)

theorem isDecimal_toDigits {n : Nat} (h : (Nat.toDigits 10 n).length ≤ Numeral.maxDigits) :
    IsDecimal (Nat.toDigits 10 n) :=
  ⟨Nat.toDigits_ne_nil, fun _ hc => Nat.isDigit_of_mem_toDigits (by decide) (by decide) hc, h⟩

/-- A number that has too many digits is not read. -/
theorem Numeral.read_toDigits_of_long {n : Nat}
    (h : Numeral.maxDigits < (Nat.toDigits 10 n).length) :
    Numeral.read .decimal (String.ofList (Nat.toDigits 10 n)) =
      .error (.tooLong (Nat.toDigits 10 n).length) := by
  have hdigits : ∀ c ∈ Nat.toDigits 10 n, c.isDigit = true :=
    fun _ hc => Nat.isDigit_of_mem_toDigits (by decide) (by decide) hc
  have hspells := spells_of_isDigit Nat.toDigits_ne_nil hdigits isNumeralBlank
  have hlength : ((Nat.toDigits 10 n).map fun c : Char => c.toNat - '0'.toNat).length =
      (Nat.toDigits 10 n).length := List.length_map _
  rw [Numeral.read_of_spells hspells, if_pos ⟨rfl, by rwa [hlength]⟩, hlength]

theorem length_toDigits_le {m n : Nat} (h : m ≤ n) :
    (Nat.toDigits 10 m).length ≤ (Nat.toDigits 10 n).length := by
  have hn : n < 10 ^ (Nat.toDigits 10 n).length :=
    (Nat.length_toDigits_le_iff (by decide) Nat.length_toDigits_pos).mp le_rfl
  exact (Nat.length_toDigits_le_iff (by decide) Nat.length_toDigits_pos).mpr (h.trans_lt hn)

end Text

/-! ## 2. The bounds of a range text -/

namespace Client

variable {first last : List Char} {range : String}

/-- The bounds of a range text: what stands behind its first equals sign, or all of it when it has
none, cut at the first dash.  Without a dash there is no last bound, which is an empty one. -/
def BoundsOf (range first last : List Char) : Prop :=
  ∃ inner, ((∃ unit, '=' ∉ unit ∧ range = unit ++ '=' :: inner) ∨ '=' ∉ range ∧ inner = range) ∧
    ('-' ∉ first ∧ inner = first ++ '-' :: last ∨ '-' ∉ inner ∧ first = inner ∧ last = [])

theorem exists_boundsOf (range : List Char) : ∃ first last, BoundsOf range first last := by
  obtain ⟨inner, hinner⟩ : ∃ inner, (∃ unit, '=' ∉ unit ∧ range = unit ++ '=' :: inner) ∨
      '=' ∉ range ∧ inner = range := by
    by_cases hequals : '=' ∈ range
    · obtain ⟨unit, inner, hsplit, hunit⟩ := List.eq_append_cons_of_mem hequals
      exact ⟨inner, .inl ⟨unit, hunit, hsplit⟩⟩
    · exact ⟨range, .inr ⟨hequals, rfl⟩⟩
  by_cases hdash : '-' ∈ inner
  · obtain ⟨first, last, hsplit, hfirst⟩ := List.eq_append_cons_of_mem hdash
    exact ⟨first, last, inner, hinner, .inl ⟨hfirst, hsplit⟩⟩
  · exact ⟨inner, [], inner, hinner, .inr ⟨hdash, rfl, rfl⟩⟩

/-- The bounds are found by cutting twice. -/
theorem BoundsOf.cut {range : List Char} (h : BoundsOf range first last) : ∃ inner last?,
    (Text.cutAt '=' range = (inner, none) ∨ ∃ unit, Text.cutAt '=' range = (unit, some inner)) ∧
      Text.cutAt '-' inner = (first, last?) ∧ last?.getD [] = last := by
  obtain ⟨inner, hinner, hbounds⟩ := h
  have hequals : Text.cutAt '=' range = (inner, none) ∨
      ∃ unit, Text.cutAt '=' range = (unit, some inner) := by
    rcases hinner with ⟨unit, hunit, rfl⟩ | ⟨hno, rfl⟩
    · exact .inr ⟨unit, Text.cutAt_append hunit _⟩
    · exact .inl (Text.cutAt_of_not_mem hno)
  rcases hbounds with ⟨hfirst, rfl⟩ | ⟨hno, rfl, rfl⟩
  · exact ⟨_, _, hequals, Text.cutAt_append hfirst _, rfl⟩
  · exact ⟨_, _, hequals, Text.cutAt_of_not_mem hno, rfl⟩

theorem rangeLength_of_boundsOf (h : BoundsOf range.toList first last) :
    rangeLength range = (do
      let last ← Text.Numeral.read .decimal (String.ofList last)
      let first ← Text.Numeral.read .decimal (String.ofList first)
      return last - first + 1) := by
  obtain ⟨inner, last?, hequals, hdash, rfl⟩ := h.cut
  rcases hequals with hequals | ⟨unit, hequals⟩
  · simp only [rangeLength, hequals, hdash]
  · simp only [rangeLength, hequals, hdash]

/-- A bound that is written as an integer. -/
def IsBound (cs : List Char) : Prop := ∃ w, Text.Spells Text.isNumeralBlank .decimal cs w

/-- A range whose bounds are not both integers has no length. -/
theorem rangeLength_of_not_isBound (h : BoundsOf range.toList first last)
    (hno : ¬(IsBound first ∧ IsBound last)) : ∃ e, rangeLength range = .error e := by
  rw [rangeLength_of_boundsOf h]
  rcases hlast : Text.Numeral.read .decimal (String.ofList last) with e | n
  · exact ⟨e, rfl⟩
  · have hfirst : ∀ w, ¬Text.Spells Text.isNumeralBlank .decimal first w := by
      intro w hw
      apply hno
      refine ⟨⟨w, hw⟩, ?_⟩
      by_contra hnone
      obtain ⟨e, he⟩ := Text.Numeral.read_of_not_spells fun w hw => hnone ⟨w, hw⟩
      rw [he] at hlast
      cases hlast
    obtain ⟨e, he⟩ := Text.Numeral.read_of_not_spells hfirst
    refine ⟨e, ?_⟩
    rw [he]
    rfl

theorem boundsOf_rangeText (a b : Nat) : BoundsOf (rangeText a (some (b : Int))).toList
    (Nat.toDigits 10 a) (Nat.toDigits 10 b) := by
  have hdash : '-' ∉ Nat.toDigits 10 a := by
    intro hmem
    exact absurd (Nat.isDigit_of_mem_toDigits (by decide) (by decide) hmem) (by decide)
  refine ⟨_, .inl ⟨"bytes".toList, by decide, ?_⟩, .inl ⟨hdash, rfl⟩⟩
  rw [rangeText_eq, String.toList_ofList]
  rfl

/-- The length of a range is told unless its last bound has too many digits. -/
theorem rangeLength_of_le {a b : Nat} (h : a ≤ b) : rangeLength (rangeText a (some (b : Int))) =
    if (Nat.toDigits 10 b).length ≤ Text.Numeral.maxDigits then .ok (b - a + 1)
    else .error (.tooLong (Nat.toDigits 10 b).length) := by
  split_ifs with hshort
  · exact rangeLength_rangeText (Text.isDecimal_toDigits ((Text.length_toDigits_le h).trans hshort))
      (Text.isDecimal_toDigits hshort)
  · rw [rangeLength_of_boundsOf (boundsOf_rangeText a b),
      Text.Numeral.read_toDigits_of_long (Nat.lt_of_not_le hshort)]
    rfl

end Client

/-! ## 3. The bytes of a range -/

namespace Store

variable {content : Bytes} {a b : Nat}

/-- A store reads both bounds of the range that a client asks for. -/
theorem readRange?_of_le (h : a ≤ b) :
    readRange? (Client.rangeText a (some (b : Int))) = some (a, some b) := by
  have hdigit : ∀ n, ∀ c ∈ Nat.toDigits 10 n, c.isDigit = true :=
    fun n c hc => Nat.isDigit_of_mem_toDigits (by decide) (by decide) hc
  have hdash : '-' ∉ Nat.toDigits 10 a := fun h => absurd (hdigit a _ h) (by decide)
  have hfront : Text.startsWith (Client.rangeText a (some (b : Int))) "bytes=" = true := by
    rw [Client.rangeText_eq]
    exact Text.startsWith_iff.mpr ⟨_, String.ofList_append⟩
  have hcut : Text.cutAt '-' ((Client.rangeText a (some (b : Int))).toList.drop "bytes=".length) =
      (Nat.toDigits 10 a, some (Nat.toDigits 10 b)) := by
    rw [Client.rangeText_eq, String.toList_ofList, ← String.length_toList, List.drop_left]
    exact Text.cutAt_append hdash _
  have hall : ∀ n, (!(Nat.toDigits 10 n).isEmpty && (Nat.toDigits 10 n).all Char.isDigit) = true := by
    intro n
    rw [List.all_eq_true.mpr (hdigit n)]
    simp
  have hvalue : ∀ n, (Nat.toDigits 10 n).foldl (fun n c => n * 10 + (c.toNat - '0'.toNat)) 0 = n := by
    intro n
    have hround := Nat.ofDigitChars_toDigits (b := 10) (n := n) (by decide) (by decide)
    simpa only [Nat.ofDigitChars, Nat.mul_comm] using hround
  obtain ⟨c, cs, hlast⟩ := List.exists_cons_of_ne_nil (Nat.toDigits_ne_nil (n := b) (b := 10))
  simp only [readRange?, hfront, Bool.not_true, Bool.false_eq_true, if_false, hcut]
  rw [hlast]
  simp only [← hlast, hall, hvalue, if_true, if_neg (Nat.not_lt.mpr h)]

theorem slice?_of_le (h : a ≤ b) (hsize : b < content.size) :
    slice? content (some (Client.rangeText a (some (b : Int)))) = some (content.extract a (b + 1)) := by
  have hstart : ¬content.size ≤ a := by omega
  have hstop : min (b + 1) content.size = b + 1 := by omega
  simp only [slice?, Option.bind_some, readRange?_of_le h, if_neg hstart, hstop]

theorem sliceOrEmpty_of_le (h : a ≤ b) (hsize : b < content.size) :
    sliceOrEmpty content (some (Client.rangeText a (some (b : Int)))) = content.extract a (b + 1) := by
  rw [sliceOrEmpty, slice?_of_le h hsize, Option.getD_some]

end Store

/-! ## 4. Copies -/

namespace Run

variable {α β : Type}

/-- On a service over the store `s` of which nothing is disturbed the run has this result, and leaves
the store `s'`. -/
def Makes (x : Run (Disturbed Store) α) (s : Store) (result : Except Error α) (s' : Store) : Prop :=
  ∀ c : Context (Disturbed Store), c.service.IsCalm → c.store = s →
    ∃ c', x.execute c = (result, c') ∧ c'.service.IsCalm ∧ c'.store = s'

variable {x : Run (Disturbed Store) α} {f : α → Run (Disturbed Store) β} {s s' : Store} {a : α}
  {result : Except Error β} {action : Action} {r : Request} {decode : Value → Except Error α}
  {v : Value}

theorem Sees.bind_makes (hx : x.Sees s (.ok a)) (hf : (f a).Makes s result s') :
    (x >>= f).Makes s result s' := by
  intro c hcalm hstore
  obtain ⟨c₁, hrun, hcalm₁, hstore₁⟩ := hx c hcalm hstore
  obtain ⟨c', hrest, hcalm', hstore'⟩ := hf c₁ hcalm₁ hstore₁
  exact ⟨c', by simp only [execute_bind, hrun, hrest], hcalm', hstore'⟩

theorem Decodes.makes (h : x.Decodes action r decode) (heffect : s.effect r = .ok (v, s')) :
    x.Makes s (decode v) s' := by
  rintro c hcalm rfl
  obtain ⟨hrun, hstore⟩ := h.granted (hcalm.next_eq_none _) heffect
  exact ⟨_, hrun, hcalm.answer r, hstore⟩

end Run

namespace Client

open Run

variable {σ : Type} [Service σ] {session : Session} {number size : Int} {source range : String}

theorem copyPart_of_length (hne : range ≠ "") (h : rangeLength range = .ok size) :
    (copyPart session number source (some range) : Run σ Part).Decodes .copyPart
      (.copyPart session.bucket session.key session.uploadId number source (some range))
      (Part.ofCopy number size) := by
  have hrange : nonEmpty (some range) = some range := Option.filter_eq_some_iff.mpr ⟨rfl, by simpa⟩
  simp only [copyPart, hrange, h, pure_bind]
  exact copied_decodes session number source (some range) size

/-- Nothing is asked of any service when the length of a range cannot be told. -/
theorem copyPart_of_error {e : Text.NumeralError} (hne : range ≠ "")
    (h : rangeLength range = .error e) (c : Context σ) :
    (copyPart session number source (some range) : Run σ Part).execute c = (.error (.numeral e), c) := by
  have hrange : nonEmpty (some range) = some range := Option.filter_eq_some_iff.mpr ⟨rfl, by simpa⟩
  simp only [copyPart, hrange, h]
  rfl

variable {s : Store} {u : StoredUpload} {o : StoredObject}

/-- The part that a copy makes holds the bytes that the store selects, with the size that the client
told beforehand. -/
theorem copied_makes {x : Run (Disturbed Store) Part} {range : Option String}
    (h : x.Decodes .copyPart
      (.copyPart session.bucket session.key session.uploadId number source range)
      (Part.ofCopy number size))
    (hu : s.upload? session.key session.uploadId = some u) (ho : s.objects.find? source = some o) :
    x.Makes s (.ok ⟨number, Store.tag (Store.sliceOrEmpty o.content range), size⟩)
      (s.insertPart session.uploadId number (Store.sliceOrEmpty o.content range)) := by
  have hgiven : (Value.object
      [("ETag", .text (Store.tag (Store.sliceOrEmpty o.content range)))]).isGiven = true := rfl
  have hdecode : Part.ofCopy number size (.object [("CopyPartResult",
      .object [("ETag", .text (Store.tag (Store.sliceOrEmpty o.content range)))])]) =
      .ok ⟨number, Store.tag (Store.sliceOrEmpty o.content range), size⟩ := by
    simp [Part.ofCopy, copyTag, Fields.find?, hgiven, Store.tag_isGiven, Except.mapError, bind,
      Except.bind]
    rfl
  rw [← hdecode]
  exact h.makes (Store.effect_copyPart hu ho session.bucket number range)

theorem copyPart_makes_range (hu : s.upload? session.key session.uploadId = some u)
    (ho : s.objects.find? source = some o) {a b : Nat} (hle : a ≤ b) (hsize : b < o.content.size) :
    (copyPart session number source (some (rangeText a (some (b : Int))))).Makes s
      (if (Nat.toDigits 10 b).length ≤ Text.Numeral.maxDigits then
        .ok ⟨number, Store.tag (o.content.extract a (b + 1)), (b - a + 1 : Nat)⟩
      else .error (.numeral (.tooLong (Nat.toDigits 10 b).length)))
      (if (Nat.toDigits 10 b).length ≤ Text.Numeral.maxDigits then
        s.insertPart session.uploadId number (o.content.extract a (b + 1))
      else s) := by
  have hne : rangeText a (some (b : Int)) ≠ "" := by
    rw [rangeText_eq, ← String.toList_inj.ne, String.toList_ofList]
    exact List.cons_ne_nil _ _
  have hlength := rangeLength_of_le hle
  split_ifs at hlength ⊢ with hshort
  · have hcast : ((b - a + 1 : Nat) : Int) = (b : Int) - a + 1 := by omega
    rw [hcast, ← Store.sliceOrEmpty_of_le hle hsize]
    exact copied_makes (copyPart_of_length hne hlength) hu ho
  · rintro c hcalm rfl
    exact ⟨c, copyPart_of_error hne hlength c, hcalm, rfl⟩

theorem copyPart_makes_whole (hu : s.upload? session.key session.uploadId = some u)
    (ho : s.objects.find? source = some o) : (copyPart session number source none).Makes s
      (.ok ⟨number, Store.tag o.content, o.content.size⟩)
      (s.insertPart session.uploadId number o.content) := by
  have hsend := copied_makes (sendCopy_decodes session number source o.content.size) hu ho
  have hwhole : Store.sliceOrEmpty o.content none = o.content := rfl
  rw [hwhole] at hsend
  rw [copyPart_eq]
  exact (headObject_sees ho session.bucket).bind_makes hsend

theorem getRange_sees_bounds (ho : s.objects.find? source = some o) (bucket : String) {a b : Nat}
    (hle : a ≤ b) (hsize : b < o.content.size) :
    (getRange bucket source a (some (b : Int))).Sees s
      (.ok (.stream (o.content.extract a (b + 1)) none)) :=
  (getRange_decodes bucket source a (some b)).sees_granted
    (Store.effect_getObject ho (Store.slice?_of_le hle hsize) bucket)

/-- An object is read from one byte to another, or from one on, exactly as far as the bounds say, and a
part that is made of a range of it holds what is read of that range and is told to be as long.  Without
a range the part is the whole object.  A bound of more digits than are read is the only one that a copy
does not take.  Where a bound is no integer, the copy fails before any service is asked. -/
theorem ranges_select_the_same_bytes (session : Session) (number : Int) (source : String) :
    (∀ (s : Store) (u : StoredUpload) (o : StoredObject) (bucket : String),
      s.upload? session.key session.uploadId = some u → s.objects.find? source = some o →
      (∀ a b : Nat, a ≤ b → b < o.content.size →
        (o.content.extract a (b + 1)).size = b - a + 1 ∧
        (getRange bucket source a (some (b : Int)) >>= Stream.drain).Sees s
          (.ok (o.content.extract a (b + 1))) ∧
        (getRange bucket source a none >>= Stream.drain).Sees s
          (.ok (o.content.extract a o.content.size)) ∧
        (copyPart session number source (some ("bytes=" ++ toString a ++ "-" ++ toString b))).Makes s
          (if (Nat.toDigits 10 b).length ≤ Text.Numeral.maxDigits then
            .ok ⟨number, Store.tag (o.content.extract a (b + 1)), (b - a + 1 : Nat)⟩
          else .error (.numeral (.tooLong (Nat.toDigits 10 b).length)))
          (if (Nat.toDigits 10 b).length ≤ Text.Numeral.maxDigits then
            s.insertPart session.uploadId number (o.content.extract a (b + 1))
          else s)) ∧
      (copyPart session number source none).Makes s
        (.ok ⟨number, Store.tag o.content, o.content.size⟩)
        (s.insertPart session.uploadId number o.content)) ∧
    ∀ (σ : Type) [Service σ] (c : Context σ) (range : String), range ≠ "" →
      (∀ first last, BoundsOf range.toList first last → ¬(IsBound first ∧ IsBound last)) →
      ∃ e, (copyPart session number source (some range) : Run σ Part).execute c =
        (.error (.numeral e), c) := by
  constructor
  · intro s u o bucket hu ho
    constructor
    · intro a b hle hsize
      refine ⟨?_, ?_, ?_, copyPart_makes_range hu ho hle hsize⟩
      · rw [ByteArray.size_extract]
        omega
      · exact (getRange_sees_bounds ho bucket hle hsize).bind (Stream.drain_sees s _)
      · have hrange := getRange_sees ho bucket a
        rw [if_neg (by omega)] at hrange
        exact hrange.bind (Stream.drain_sees s _)
    · exact copyPart_makes_whole hu ho
  · intro σ _ c range hne hbounds
    obtain ⟨first, last, hcut⟩ := exists_boundsOf range.toList
    obtain ⟨e, he⟩ := rangeLength_of_not_isBound hcut (hbounds first last hcut)
    exact ⟨e, copyPart_of_error hne he c⟩

/-- The middle of four bytes becomes a part, and a range without a last bound does not. -/
theorem ranges_select_the_same_bytes_of_four :
    let s := ((Store.empty 0).putObject "a" ⟨#[1, 2, 3, 4]⟩).startUpload "b"
    (copyPart ⟨"u1", "m", "b"⟩ 7 "a" (some "bytes=1-2")).Makes s
      (.ok ⟨7, Store.tag ⟨#[2, 3]⟩, 2⟩) (s.insertPart "u1" 7 ⟨#[2, 3]⟩) ∧
    ∀ c : Context Store, ∃ e,
      (copyPart ⟨"u1", "m", "b"⟩ 7 "a" (some "bytes=1-")).execute c = (.error (.numeral e), c) := by
  intro s
  obtain ⟨hmake, hrefuse⟩ := ranges_select_the_same_bytes ⟨"u1", "m", "b"⟩ 7 "a"
  constructor
  · have hmade := ((hmake s ⟨"u1", "b", some 0, .inFlight, Keyed.empty⟩ ⟨⟨#[1, 2, 3, 4]⟩, 0⟩ "m"
      rfl rfl).1 1 2 (by decide) (by decide)).2.2.2
    rw [if_pos (by decide), if_pos (by decide)] at hmade
    exact hmade
  · intro c
    apply hrefuse Store c "bytes=1-" (by decide)
    rintro first last hbounds ⟨-, w, hlast⟩
    obtain ⟨inner, last?, hequals, hdash, rfl⟩ := hbounds.cut
    have hcut : Text.cutAt '=' "bytes=1-".toList = ("bytes".toList, some "1-".toList) := by decide
    have hcut' : Text.cutAt '-' "1-".toList = ("1".toList, some []) := by decide
    obtain rfl : "1-".toList = inner := by
      rcases hequals with hequals | ⟨unit, hequals⟩
      · cases (Prod.mk.inj (hcut.symm.trans hequals)).2
      · exact Option.some_inj.mp (Prod.mk.inj (hcut.symm.trans hequals)).2
    rw [← (Prod.mk.inj (hcut'.symm.trans hdash)).2] at hlast
    -- nothing is behind the dash, and nothing is no integer
    have hread := Text.Numeral.read?_iff.mpr ⟨w, hlast, rfl⟩
    have hnone : Text.Numeral.read? .decimal (String.ofList []) = none := by cbv
    rw [Option.getD_some, hnone] at hread
    cases hread

end Client

end ResumableStorage
