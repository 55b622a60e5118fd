/-
  ResumableStorage/Proofs/Value/Fields.lean
  =========================================
  **Fields that are set one after the other** — a field takes the place of one of its name
  and stands at the end otherwise.  So the names stand in the order in which they come
  first, no name stands twice, and the field that was set last is the one that is found.
-/
import Mathlib.Data.List.Nodup
import ResumableStorage.Value.Basic

namespace ResumableStorage

namespace Fields

variable {fields more : Fields} {name : String} {v : Value}

/-! ## 1. One field -/

theorem set_of_not_mem (v : Value) (h : name ∉ fields.map Prod.fst) :
    set fields name v = fields ++ [(name, v)] := by
  induction fields with
  | nil => rfl
  | cons f rest ih =>
    rw [List.map_cons, List.mem_cons, not_or] at h
    rw [set, if_neg (Ne.symm h.1), ih h.2, List.cons_append]

theorem names_set_of_mem (v : Value) (h : name ∈ fields.map Prod.fst) :
    (set fields name v).map Prod.fst = fields.map Prod.fst := by
  induction fields with
  | nil => cases h
  | cons f rest ih =>
    by_cases hf : f.1 = name
    · rw [set, if_pos hf]
      rfl
    · have hrest : name ∈ rest.map Prod.fst := (List.mem_cons.mp h).resolve_left (Ne.symm hf)
      rw [set, if_neg hf, List.map_cons, ih hrest, List.map_cons]

theorem names_set (fields : Fields) (name : String) (v : Value) :
    (set fields name v).map Prod.fst = if name ∈ fields.map Prod.fst then fields.map Prod.fst
      else fields.map Prod.fst ++ [name] := by
  split
  · exact names_set_of_mem v ‹_›
  · rw [set_of_not_mem v ‹_›, List.map_append]
    rfl

theorem nodup_set (h : (fields.map Prod.fst).Nodup) (name : String) (v : Value) :
    ((set fields name v).map Prod.fst).Nodup := by
  rw [names_set]
  split
  · exact h
  · rw [← List.concat_eq_append]
    exact h.concat ‹_›

theorem mem_set {f : String × Value} (h : f ∈ set fields name v) : f ∈ fields ∨ f.2 = v := by
  induction fields with
  | nil => exact .inr (congrArg Prod.snd (List.mem_singleton.mp h))
  | cons g rest ih =>
    rw [set] at h
    split at h
    · rcases List.mem_cons.mp h with rfl | h
      · exact .inr rfl
      · exact .inl (List.mem_cons_of_mem g h)
    · rcases List.mem_cons.mp h with rfl | h
      · exact .inl List.mem_cons_self
      · exact (ih h).imp_left (List.mem_cons_of_mem g)

/-! ## 2. Several fields -/

/-- Names that are all different each get a place of their own, in their order. -/
theorem update_of_nodup (h : ((fields ++ more).map Prod.fst).Nodup) :
    update fields more = fields ++ more := by
  induction more generalizing fields with
  | nil => exact (List.append_nil fields).symm
  | cons f more ih =>
    have hnew : f.1 ∉ fields.map Prod.fst := by
      rw [List.map_append, List.nodup_append] at h
      intro hmem
      exact h.2.2 _ hmem _ List.mem_cons_self rfl
    have hset := set_of_not_mem f.2 hnew
    rw [List.append_cons] at h ⊢
    rw [← hset] at h ⊢
    exact ih h

theorem eraseDups_of_nodup {names : List String} (h : names.Nodup) : names.eraseDups = names := by
  induction names with
  | nil => rfl
  | cons name rest ih =>
    rw [List.nodup_cons] at h
    have hrest : rest.filter (fun other => !other == name) = rest := by
      rw [List.filter_eq_self]
      intro other hother
      have hne : other ≠ name := by
        rintro rfl
        exact h.1 hother
      rw [beq_false_of_ne hne]
      rfl
    rw [List.eraseDups_cons, hrest, ih h.2]

/-- A name keeps the place where it comes first. -/
theorem names_update (h : (fields.map Prod.fst).Nodup) (more : Fields) :
    (update fields more).map Prod.fst = (fields.map Prod.fst ++ more.map Prod.fst).eraseDups := by
  induction more generalizing fields with
  | nil => rw [List.map_nil, List.append_nil, eraseDups_of_nodup h]; rfl
  | cons f more ih =>
    have hset : (update fields (f :: more)).map Prod.fst =
        ((set fields f.1 f.2).map Prod.fst ++ more.map Prod.fst).eraseDups :=
      ih (nodup_set h f.1 f.2)
    rw [hset, names_set, List.map_cons]
    split
    · rename_i hmem
      have hgone : (f.1 :: more.map Prod.fst).removeAll (fields.map Prod.fst) =
          (more.map Prod.fst).removeAll (fields.map Prod.fst) := by
        rw [List.removeAll, List.filter_cons_of_neg (by simpa using hmem)]
        rfl
      rw [List.eraseDups_append, List.eraseDups_append, hgone]
    · rw [List.append_assoc, List.singleton_append]

/-- What was set last is found, and what was there where nothing was set. -/
theorem find?_update (h : (more.map Prod.fst).Nodup) (fields : Fields) (name : String) :
    find? (update fields more) name = (find? more name).or (find? fields name) := by
  induction more generalizing fields with
  | nil => rfl
  | cons f more ih =>
    rw [List.map_cons, List.nodup_cons] at h
    have hset : find? (update fields (f :: more)) name =
        (find? more name).or (find? (set fields f.1 f.2) name) := ih h.2 _
    rw [hset]
    by_cases hname : name = f.1
    · subst hname
      have hnone : find? more f.1 = none := by
        apply List.lookup_eq_none_iff.mpr
        intro g hg
        exact bne_iff_ne.mpr fun heq => h.1 (heq ▸ List.mem_map_of_mem hg)
      rw [hnone, find?_set_self, find?, List.lookup_cons_self]
      rfl
    · have hskip : find? (f :: more) name = find? more name := by
        rw [find?, List.lookup_cons, beq_false_of_ne hname]
        rfl
      rw [find?_set_of_ne fields f.2 hname, hskip]

end Fields

end ResumableStorage
