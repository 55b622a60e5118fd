/-
  ResumableStorage/Proofs/Store/Uploads.lean
  ==========================================
  **The uploads of a store** — identifiers that were given in the order of creation are
  distinct, and the next one is fresh; so an upload is known by its identifier, and a
  change of one upload touches no other.
-/
import Mathlib
import ResumableStorage.Store.Answers

namespace ResumableStorage

namespace Store

/-! ## 1. Identifiers -/

/-- Identifiers were given in the order of creation. -/
def IdsInOrder (s : Store) : Prop :=
  ∀ (i : Nat) (u : StoredUpload), s.uploads[i]? = some u → u.id = "u" ++ toString (i + 1)

theorem empty_idsInOrder (clock : Instant) : (empty clock).IdsInOrder := by
  intro i u h
  simp [empty] at h

private theorem idText_injective {m n : Nat} (h : "u" ++ toString m = "u" ++ toString n) :
    m = n :=
  Nat.repr_inj.mp ((String.append_right_inj "u").mp h)

theorem IdsInOrder.unique {s : Store} (h : s.IdsInOrder) {u v : StoredUpload}
    (hu : u ∈ s.uploads) (hv : v ∈ s.uploads) (hid : u.id = v.id) : u = v := by
  obtain ⟨i, hi⟩ := List.mem_iff_getElem?.mp hu
  obtain ⟨j, hj⟩ := List.mem_iff_getElem?.mp hv
  have hij : i = j := by
    have htext := (h i u hi).symm.trans (hid.trans (h j v hj))
    have hsucc := idText_injective htext
    omega
  subst hij
  exact Option.some.inj (hi.symm.trans hj)

theorem IdsInOrder.pairwise_ids {s : Store} (h : s.IdsInOrder) :
    s.uploads.Pairwise fun u v => u.id ≠ v.id := by
  rw [List.pairwise_iff_getElem]
  intro i j hi hj hij hid
  have hsucc := idText_injective ((h i _ (List.getElem?_eq_getElem hi)).symm.trans
    (hid.trans (h j _ (List.getElem?_eq_getElem hj))))
  omega

theorem IdsInOrder.ne_nextId {s : Store} (h : s.IdsInOrder) {u : StoredUpload}
    (hu : u ∈ s.uploads) : u.id ≠ s.nextId := by
  obtain ⟨i, hi⟩ := List.mem_iff_getElem?.mp hu
  have hlt : i < s.uploads.length := (List.getElem?_eq_some_iff.mp hi).1
  intro hid
  have hsucc := idText_injective ((h i u hi).symm.trans hid)
  omega

theorem IdsInOrder.modifyUpload {s : Store} (h : s.IdsInOrder) (id : String)
    {f : StoredUpload → StoredUpload} (hf : ∀ u, (f u).id = u.id) :
    (s.modifyUpload id f).IdsInOrder := by
  intro i u hu
  simp only [Store.modifyUpload, List.getElem?_map, Option.map_eq_some_iff] at hu
  obtain ⟨v, hv, rfl⟩ := hu
  rw [← h i v hv]
  split
  · exact hf v
  · rfl

theorem IdsInOrder.addUpload {s : Store} (h : s.IdsInOrder) (key : String)
    (initiated : Option Instant) (parts : Keyed Int Bytes) :
    (s.addUpload key initiated parts).2.IdsInOrder := by
  intro i u hu
  simp only [Store.addUpload, List.getElem?_append] at hu
  split at hu
  · exact h i u hu
  · rename_i hi
    have hzero : i - s.uploads.length = 0 := by
      by_contra hne
      rw [List.getElem?_eq_none (by simp; omega)] at hu
      cases hu
    have hlen : i = s.uploads.length := by omega
    simp only [hzero, List.getElem?_cons_zero, Option.some.injEq] at hu
    subst hu
    simp [nextId, hlen]

theorem IdsInOrder.putObject {s : Store} (h : s.IdsInOrder) (key : String) (content : Bytes) :
    (s.putObject key content).IdsInOrder := h

/-! ## 2. Finding and changing an upload -/

theorem mem_modifyUpload {s : Store} {id : String} {f : StoredUpload → StoredUpload}
    {u : StoredUpload} : u ∈ (s.modifyUpload id f).uploads ↔
      ∃ v ∈ s.uploads, (if v.id = id then f v else v) = u := by
  simp [modifyUpload]

/-- The upload that a request names is the one in flight with this identifier and key. -/
theorem IdsInOrder.upload?_eq_some_iff {s : Store} (h : s.IdsInOrder) {key id : String}
    {u : StoredUpload} : s.upload? key id = some u ↔
      u ∈ s.uploads ∧ u.id = id ∧ u.key = key ∧ u.status = .inFlight := by
  constructor
  · intro hu
    have hp := List.find?_some hu
    simp only [Bool.and_eq_true, decide_eq_true_eq] at hp
    exact ⟨List.mem_of_find?_eq_some hu, hp.1.1, hp.1.2, hp.2⟩
  · rintro ⟨hu, hid, hkey, hstatus⟩
    rcases hfind : s.upload? key id with _ | v
    · have hnone := List.find?_eq_none.mp hfind u hu
      simp [hid, hkey, hstatus] at hnone
    · have hp := List.find?_some hfind
      simp only [Bool.and_eq_true, decide_eq_true_eq] at hp
      exact congrArg some (h.unique (List.mem_of_find?_eq_some hfind) hu (hp.1.1.trans hid.symm))

def setParts (s : Store) (id : String) (parts : Keyed Int Bytes) : Store :=
  s.modifyUpload id fun u => { u with parts := parts }

theorem IdsInOrder.setParts {s : Store} (h : s.IdsInOrder) (id : String)
    (parts : Keyed Int Bytes) : (s.setParts id parts).IdsInOrder :=
  h.modifyUpload id fun _ => rfl

@[simp] theorem setParts_objects (s : Store) (id : String) (parts : Keyed Int Bytes) :
    (s.setParts id parts).objects = s.objects := rfl

@[simp] theorem setParts_setParts (s : Store) (id : String) (parts parts' : Keyed Int Bytes) :
    (s.setParts id parts).setParts id parts' = s.setParts id parts' := by
  simp only [setParts, modifyUpload, List.map_map]
  congr 1
  apply List.map_congr_left
  intro u _
  by_cases hid : u.id = id <;> simp [hid]

theorem upload?_setParts {s : Store} {key id : String} {u : StoredUpload}
    (h : s.upload? key id = some u) (parts : Keyed Int Bytes) :
    (s.setParts id parts).upload? key id = some { u with parts := parts } := by
  have hid : u.id = id := by
    have hp := List.find?_some h
    simp only [Bool.and_eq_true, decide_eq_true_eq] at hp
    exact hp.1.1
  simp only [upload?, setParts, modifyUpload, List.find?_map]
  have hsame : ((fun u : StoredUpload => decide (u.id = id) && decide (u.key = key) &&
        decide (u.status = .inFlight)) ∘
      fun u => if u.id = id then { u with parts := parts } else u) =
      fun u => decide (u.id = id) && decide (u.key = key) && decide (u.status = .inFlight) := by
    funext v
    by_cases hv : v.id = id <;> simp [hv]
  rw [hsame]
  change (s.upload? key id).map _ = _
  rw [h]
  simp [hid]

theorem IdsInOrder.setParts_self {s : Store} (h : s.IdsInOrder) {u : StoredUpload}
    (hu : u ∈ s.uploads) : s.setParts u.id u.parts = s := by
  simp only [Store.setParts, Store.modifyUpload]
  have hmap : s.uploads.map (fun v => if v.id = u.id then { v with parts := u.parts } else v) =
      s.uploads := by
    conv_rhs => rw [← List.map_id s.uploads]
    apply List.map_congr_left
    intro v hv
    by_cases hid : v.id = u.id
    · rw [h.unique hv hu hid]
      simp
    · simp [hid]
  rw [hmap]

end Store

end ResumableStorage
