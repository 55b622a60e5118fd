/-
  ResumableStorage/Keyed.lean
  ===========================
  **Tables in ascending key order** — the objects of a bucket, the parts of an upload.
  A table is a list of entries whose keys strictly ascend, so it holds one entry for a
  key and two tables with the same look-ups are equal.
-/

namespace ResumableStorage

/-- Entries with strictly ascending keys. -/
structure Keyed (α β : Type) [LT α] where
  entries : List (α × β)
  ascending : entries.Pairwise (fun a b => a.1 < b.1) := by simp

namespace Keyed

variable {α β : Type} [LT α] [LE α] [DecidableLT α] [DecidableEq α]

/-- Sets the entry of `k` in a list of entries. -/
def insertEntry (k : α) (v : β) : List (α × β) → List (α × β)
  | [] => [(k, v)]
  | e :: rest =>
    if k < e.1 then (k, v) :: e :: rest
    else if k = e.1 then (k, v) :: rest
    else e :: insertEntry k v rest

omit [LE α] in
theorem mem_insertEntry {k : α} {v : β} {e : α × β} {l : List (α × β)}
    (h : e ∈ insertEntry k v l) : e = (k, v) ∨ e ∈ l := by
  induction l with
  | nil => simpa [insertEntry] using h
  | cons a rest ih => grind [insertEntry]

theorem insertEntry_ascending [Std.IsLinearOrder α] [Std.LawfulOrderLT α] (k : α) (v : β)
    {l : List (α × β)} (h : l.Pairwise (fun a b => a.1 < b.1)) :
    (insertEntry k v l).Pairwise (fun a b => a.1 < b.1) := by
  induction l with
  | nil => simp [insertEntry]
  | cons a rest ih =>
    rw [List.pairwise_cons] at h
    unfold insertEntry
    split
    · rename_i hlt
      refine List.pairwise_cons.2 ⟨fun b hb => ?_, List.pairwise_cons.2 h⟩
      rcases List.mem_cons.1 hb with rfl | hb
      · exact hlt
      · exact Std.lt_trans hlt (h.1 b hb)
    · split
      · rename_i heq
        exact List.pairwise_cons.2 ⟨fun b hb => heq ▸ h.1 b hb, h.2⟩
      · rename_i hge hne
        refine List.pairwise_cons.2 ⟨fun b hb => ?_, ih h.2⟩
        rcases mem_insertEntry hb with rfl | hb
        · exact Std.lt_of_le_of_ne (Std.not_lt.1 hge) (fun he => hne he.symm)
        · exact h.1 b hb

/-! ## 1. Operations -/

def empty : Keyed α β := ⟨[], List.Pairwise.nil⟩

instance : Inhabited (Keyed α β) := ⟨empty⟩

def find? (t : Keyed α β) (k : α) : Option β :=
  t.entries.lookup k

def insert [Std.IsLinearOrder α] [Std.LawfulOrderLT α] (t : Keyed α β) (k : α) (v : β) :
    Keyed α β :=
  ⟨insertEntry k v t.entries, insertEntry_ascending k v t.ascending⟩

def erase (t : Keyed α β) (k : α) : Keyed α β :=
  ⟨t.entries.filter (fun e => e.1 ≠ k), t.ascending.filter _⟩

/-- The table of a list of entries; of several with one key the last counts. -/
def ofList [Std.IsLinearOrder α] [Std.LawfulOrderLT α] (l : List (α × β)) : Keyed α β :=
  l.foldl (fun t e => t.insert e.1 e.2) empty

def keys (t : Keyed α β) : List α :=
  t.entries.map Prod.fst

def values (t : Keyed α β) : List β :=
  t.entries.map Prod.snd

/-! ## 2. Look-ups -/

omit [LE α] [DecidableLT α] in
@[simp] theorem find?_empty (k : α) : (empty : Keyed α β).find? k = none := rfl

omit [LE α] in
theorem lookup_insertEntry_self (k : α) (v : β) (l : List (α × β)) :
    (insertEntry k v l).lookup k = some v := by
  induction l with
  | nil => simp [insertEntry]
  | cons a rest ih =>
    obtain ⟨n, w⟩ := a
    unfold insertEntry
    split
    · simp
    · split
      · simp
      · rename_i hne
        simpa [List.lookup_cons, beq_false_of_ne hne] using ih

omit [LE α] in
theorem lookup_insertEntry_of_ne {k k' : α} (v : β) (l : List (α × β)) (h : k' ≠ k) :
    (insertEntry k v l).lookup k' = l.lookup k' := by
  induction l with
  | nil => simp [insertEntry, List.lookup_cons, beq_false_of_ne h]
  | cons a rest ih =>
    obtain ⟨n, w⟩ := a
    unfold insertEntry
    split
    · simp [List.lookup_cons, beq_false_of_ne h]
    · split
      · rename_i heq
        subst heq
        simp [List.lookup_cons, beq_false_of_ne h]
      · simp only [List.lookup_cons, ih]

theorem find?_insert_self [Std.IsLinearOrder α] [Std.LawfulOrderLT α] (t : Keyed α β) (k : α)
    (v : β) : (t.insert k v).find? k = some v :=
  lookup_insertEntry_self k v t.entries

theorem find?_insert_of_ne [Std.IsLinearOrder α] [Std.LawfulOrderLT α] (t : Keyed α β) {k k' : α}
    (v : β) (h : k' ≠ k) : (t.insert k v).find? k' = t.find? k' :=
  lookup_insertEntry_of_ne v t.entries h

omit [LE α] [DecidableLT α] in
theorem find?_erase_self (t : Keyed α β) (k : α) : (t.erase k).find? k = none := by
  rw [find?, List.lookup_eq_none_iff]
  intro e he
  have hne : e.1 ≠ k := of_decide_eq_true (List.mem_filter.1 he).2
  exact bne_iff_ne.2 (Ne.symm hne)

omit [LT α] [LE α] [DecidableLT α] in
theorem lookup_filter_ne {k k' : α} (h : k' ≠ k) (l : List (α × β)) :
    (l.filter (fun e => e.1 ≠ k)).lookup k' = l.lookup k' := by
  induction l with
  | nil => rfl
  | cons a rest ih =>
    obtain ⟨n, w⟩ := a
    by_cases ha : n = k
    · rw [List.filter_cons_of_neg (by simp [ha]), ih]
      simp [List.lookup_cons, ha, beq_false_of_ne h]
    · rw [List.filter_cons_of_pos (by simp [ha])]
      simp only [List.lookup_cons, ih]

omit [LE α] [DecidableLT α] in
theorem find?_erase_of_ne (t : Keyed α β) {k k' : α} (h : k' ≠ k) :
    (t.erase k).find? k' = t.find? k' :=
  lookup_filter_ne h t.entries

end Keyed

end ResumableStorage
