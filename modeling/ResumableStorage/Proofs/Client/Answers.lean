/-
  ResumableStorage/Proofs/Client/Answers.lean
  ===========================================
  **Pages as the client decodes them** — what the store says of its uploads and parts
  comes out as it is: the entries of a page, whether more are left, and the markers that
  ask for them.
-/
import ResumableStorage.Proofs.Store.Pages

namespace ResumableStorage

/-! ## 1. Fields -/

namespace Value

@[simp] theorem fieldD_object (fields : Fields) (name : String) (default : Value) :
    (object fields).fieldD name default = .ok ((Fields.find? fields name).getD default) := rfl

@[simp] theorem display_text (s : String) : (text s).display = s := rfl

theorem given?_text {text : String} (h : text ≠ "") :
    (Value.text text).given? = some (.text text) := by
  simp [given?, isGiven, h]

end Value

namespace Store

theorem find?_listField (name : String) (items : List Value) {rest : Fields}
    (hrest : Fields.find? rest name = none) :
    (Fields.find? (listField name items ++ rest) name).getD (.list []) = .list items := by
  rcases items with _ | ⟨v, vs⟩
  · simp [listField, hrest]
  · simp [listField, Fields.find?]

theorem find?_listField_of_ne {name other : String} (hne : other ≠ name) (items : List Value)
    (rest : Fields) :
    Fields.find? (listField name items ++ rest) other = Fields.find? rest other := by
  rcases items with _ | ⟨v, vs⟩
  · simp [listField]
  · simp [listField, Fields.find?, List.lookup_cons, beq_false_of_ne hne]

theorem decode_listedUploads {items : List Value} {uploads : List InFlight}
    (huploads : items.mapM InFlight.decode = .ok uploads) {rest : Fields}
    (hrest : Fields.find? rest "Uploads" = none) :
    UploadPage.decode (.object (listField "Uploads" items ++ rest)) = .ok ⟨uploads,
      ((Fields.find? rest "IsTruncated").getD .null).isGiven,
      ((Fields.find? rest "NextKeyMarker").getD .null).given?,
      ((Fields.find? rest "NextUploadIdMarker").getD .null).given?⟩ := by
  simp only [UploadPage.decode, Value.fieldD_object, find?_listField _ _ hrest]
  rw [find?_listField_of_ne (by decide), find?_listField_of_ne (by decide),
    find?_listField_of_ne (by decide)]
  change (items.mapM InFlight.decode >>= _) = _
  rw [huploads]
  rfl

theorem decode_listedParts {items : List Value} {parts : List Part}
    (hparts : items.mapM Part.decode = .ok parts) {rest : Fields}
    (hrest : Fields.find? rest "Parts" = none) {next : Option Int}
    (hnext : ((Fields.find? rest "NextPartNumberMarker").getD .null).given?.mapM Value.toInt =
      .ok next) :
    PartPage.decode (.object (listField "Parts" items ++ rest)) = .ok ⟨parts,
      ((Fields.find? rest "IsTruncated").getD .null).isGiven, next⟩ := by
  simp only [PartPage.decode, Value.fieldD_object, find?_listField _ _ hrest]
  rw [find?_listField_of_ne (by decide), find?_listField_of_ne (by decide)]
  change (items.mapM Part.decode >>= _) = _
  rw [hparts]
  change ((((Fields.find? rest "NextPartNumberMarker").getD .null).given?.mapM Value.toInt) >>= _) = _
  rw [hnext]
  rfl

/-! ## 2. Pages -/

theorem decode_uploadFields (u : StoredUpload) : InFlight.decode (uploadFields u) = .ok u.entry := by
  rcases u with ⟨id, key, _ | t, status, parts⟩ <;> rfl

/-- A page holds the next uploads; it is truncated when these are not all that are left, and then it
gives the markers of its last. -/
theorem decode_uploadPageOf (s : Store) (rest : List StoredUpload) :
    ∃ keyMarker idMarker, UploadPage.decode (s.uploadPageOf rest) =
        .ok ⟨(rest.take s.uploadPageSize).map StoredUpload.entry,
          decide (s.uploadPageSize < rest.length), keyMarker, idMarker⟩ ∧
      (s.uploadPageSize < rest.length → ∀ last ∈ (rest.take s.uploadPageSize).getLast?,
        keyMarker = (Value.text last.key).given? ∧ idMarker = (Value.text last.id).given?) := by
  have hdecode : ((rest.take s.uploadPageSize).map uploadFields).mapM InFlight.decode =
      .ok ((rest.take s.uploadPageSize).map StoredUpload.entry) := by
    rw [List.mapM_map]
    exact mapM_eq_ok fun u _ => decode_uploadFields u
  unfold uploadPageOf
  rw [List.append_assoc]
  by_cases hlt : s.uploadPageSize < rest.length
  · rw [decide_eq_true hlt]
    rcases hlast : (rest.take s.uploadPageSize).getLast? with _ | last
    · rw [decode_listedUploads hdecode rfl]
      exact ⟨_, _, rfl, by simp⟩
    · rw [decode_listedUploads hdecode rfl]
      refine ⟨_, _, rfl, ?_⟩
      rintro - _ ⟨⟩
      exact ⟨rfl, rfl⟩
  · rw [decide_eq_false hlt, decode_listedUploads hdecode rfl]
    exact ⟨_, _, rfl, fun hlt' => absurd hlt' hlt⟩

/-- A page holds the next parts, in one order or the other; it is truncated when these are not all
that are left, and then it gives the number of its last, if it has any. -/
theorem decode_partPage (s : Store) (u : StoredUpload) (maxParts marker : Int)
    {rest : List (Int × Bytes)} (hrest : u.parts.entries.filter (fun p => marker < p.1) = rest) :
    ∃ parts next, PartPage.decode (s.partPage u maxParts marker) =
        .ok ⟨parts, decide (maxParts.toNat < rest.length), next⟩ ∧
      parts.Perm ((rest.take maxParts.toNat).map Part.ofEntry) ∧
      (maxParts.toNat < rest.length → ∀ last ∈ (rest.take maxParts.toNat).getLast?,
        last.1 ≠ 0 → next = some last.1) ∧
      (maxParts ≤ 0 → next = none) := by
  have hitems : ∀ l : List (Int × Bytes), (l.map partFields).mapM Part.decode =
      .ok (l.map Part.ofEntry) := by
    intro l
    rw [List.mapM_map]
    exact mapM_eq_ok fun p _ => rfl
  obtain ⟨parts, hparts, hperm⟩ : ∃ parts, (if s.reverseParts
      then ((rest.take maxParts.toNat).map partFields).reverse
      else (rest.take maxParts.toNat).map partFields).mapM Part.decode = .ok parts ∧
        parts.Perm ((rest.take maxParts.toNat).map Part.ofEntry) := by
    split
    · rw [← List.map_reverse, hitems, List.map_reverse]
      exact ⟨_, rfl, List.reverse_perm _⟩
    · exact ⟨_, hitems _, .refl _⟩
  have hlength : decide ((rest.take maxParts.toNat).length < rest.length) =
      decide (maxParts.toNat < rest.length) := by
    rw [List.length_take, decide_eq_decide]
    omega
  simp only [partPage, hrest, List.append_assoc, hlength]
  by_cases hlt : maxParts.toNat < rest.length
  · rw [decide_eq_true hlt]
    rcases hlast : (rest.take maxParts.toNat).getLast? with _ | last
    · exact ⟨_, _, decode_listedParts hparts rfl rfl, hperm, by simp, fun _ => rfl⟩
    · obtain ⟨next, hnext, hgiven⟩ : ∃ next,
          ((Value.int last.1).given?.mapM Value.toInt : Except Malformed (Option Int)) = .ok next ∧
            (last.1 ≠ 0 → next = some last.1) := by
        by_cases hzero : last.1 = 0
        · exact ⟨none, by rw [hzero]; rfl, fun hne => absurd hzero hne⟩
        · have hsome : (Value.int last.1).given? = some (.int last.1) := by
            simp [Value.given?, Value.isGiven, hzero]
          exact ⟨some last.1, by rw [hsome]; rfl, fun _ => rfl⟩
      refine ⟨parts, next, decode_listedParts hparts rfl hnext, hperm, ?_, ?_⟩
      · rintro - _ ⟨⟩
        exact hgiven
      · intro hsize
        rw [Int.toNat_of_nonpos hsize] at hlast
        simp at hlast
  · rw [decide_eq_false hlt]
    exact ⟨_, _, decode_listedParts hparts rfl rfl, hperm, fun hlt' => absurd hlt' hlt, fun _ => rfl⟩

end Store

end ResumableStorage
