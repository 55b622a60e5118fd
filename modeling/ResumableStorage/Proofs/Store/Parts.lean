/-
  ResumableStorage/Proofs/Store/Parts.lean
  ========================================
  **Parts without gaps** — bodies that are numbered from one on, as the store keeps them
  and as a writer lists them, and what a completion joins of them.

  A writer sends its next part under the number that follows its list.  A request that
  took effect without the writer's knowledge has left a body under that number already;
  it is the only one that can be there, and the next request replaces it.
-/
import ResumableStorage.Proofs.Store.Uploads
import ResumableStorage.Upload.Session

namespace ResumableStorage

theorem Bytes.size_concat (parts : List Bytes) :
    (concat parts).size = (parts.map ByteArray.size).sum := by
  induction parts with
  | nil => rfl
  | cons body rest ih => simp [ih]

/-! ## 1. Numbered bodies -/

namespace Part

/-- Bodies under the numbers from `n` on. -/
def numberedFrom (n : Int) : List Bytes → List (Int × Bytes)
  | [] => []
  | body :: rest => (n, body) :: numberedFrom (n + 1) rest

def ofEntry (e : Int × Bytes) : Part := ⟨e.1, Store.tag e.2, e.2.size⟩

def ofBodies (bodies : List Bytes) : List Part :=
  (numberedFrom 1 bodies).map ofEntry

/-- The parts of an upload that has stored a table, which may have gaps. -/
def ofTable (t : Keyed Int Bytes) : List Part := t.entries.map ofEntry

theorem le_of_mem_numberedFrom {n : Int} {bodies : List Bytes} {e : Int × Bytes}
    (h : e ∈ numberedFrom n bodies) : n ≤ e.1 ∧ e.1 < n + bodies.length := by
  induction bodies generalizing n with
  | nil => cases h
  | cons body rest ih =>
    simp only [numberedFrom, List.mem_cons] at h
    simp only [List.length_cons]
    rcases h with rfl | h
    · simp
    · have hrest := ih h
      omega

theorem numberedFrom_ascending (n : Int) (bodies : List Bytes) :
    (numberedFrom n bodies).Pairwise fun a b => a.1 < b.1 := by
  induction bodies generalizing n with
  | nil => exact List.Pairwise.nil
  | cons body rest ih =>
    refine List.pairwise_cons.mpr ⟨?_, ih (n + 1)⟩
    intro e he
    have hle := (le_of_mem_numberedFrom he).1
    simp only
    omega

/-- The table of bodies that are numbered from one on. -/
def table (bodies : List Bytes) : Keyed Int Bytes :=
  ⟨numberedFrom 1 bodies, numberedFrom_ascending 1 bodies⟩

@[simp] theorem ofTable_table (bodies : List Bytes) : ofTable (table bodies) = ofBodies bodies := rfl

theorem numberedFrom_append (n : Int) (front rest : List Bytes) :
    numberedFrom n (front ++ rest) =
      numberedFrom n front ++ numberedFrom (n + front.length) rest := by
  induction front generalizing n with
  | nil => simp [numberedFrom]
  | cons body front ih =>
    simp only [List.cons_append, numberedFrom, ih, List.length_cons, List.cons.injEq, true_and]
    congr 2
    push_cast
    omega

@[simp] theorem length_numberedFrom (n : Int) (bodies : List Bytes) :
    (numberedFrom n bodies).length = bodies.length := by
  induction bodies generalizing n with
  | nil => rfl
  | cons body rest ih => simp [numberedFrom, ih]

@[simp] theorem map_snd_numberedFrom (n : Int) (bodies : List Bytes) :
    (numberedFrom n bodies).map Prod.snd = bodies := by
  induction bodies generalizing n with
  | nil => rfl
  | cons body rest ih => simp [numberedFrom, ih]

@[simp] theorem values_table (bodies : List Bytes) : (table bodies).values = bodies :=
  map_snd_numberedFrom 1 bodies

@[simp] theorem length_ofBodies (bodies : List Bytes) :
    (ofBodies bodies).length = bodies.length := by
  simp [ofBodies]

@[simp] theorem ofBodies_eq_nil_iff {bodies : List Bytes} : ofBodies bodies = [] ↔ bodies = [] := by
  rw [← List.length_eq_zero_iff, length_ofBodies, List.length_eq_zero_iff]

theorem table_entries_eq_nil_iff {bodies : List Bytes} : (table bodies).entries = [] ↔ bodies = [] := by
  rw [table, ← List.length_eq_zero_iff, length_numberedFrom, List.length_eq_zero_iff]

theorem ofBodies_append_singleton (bodies : List Bytes) (body : Bytes) :
    ofBodies (bodies ++ [body]) =
      ofBodies bodies ++ [⟨bodies.length + 1, Store.tag body, body.size⟩] := by
  simp only [ofBodies, numberedFrom_append, List.map_append, numberedFrom, List.map_cons,
    List.map_nil, ofEntry]
  congr 3
  omega

theorem map_number_ofBodies (bodies : List Bytes) :
    (ofBodies bodies).map (·.number) =
      (List.range bodies.length).map fun i : Nat => (i : Int) + 1 := by
  have hfrom : ∀ (n : Int) (l : List Bytes), (numberedFrom n l).map Prod.fst =
      (List.range l.length).map fun i : Nat => (i : Int) + n := by
    intro n l
    induction l generalizing n with
    | nil => rfl
    | cons body rest ih =>
      rw [numberedFrom, List.map_cons, ih, List.length_cons, List.range_succ_eq_map, List.map_cons,
        List.map_map]
      refine List.cons_eq_cons.mpr ⟨by simp, ?_⟩
      apply List.map_congr_left
      intro i _
      simp only [Function.comp_apply]
      push_cast
      omega
  rw [← hfrom 1 bodies, ofBodies, List.map_map]
  rfl

theorem map_size_ofTable (t : Keyed Int Bytes) :
    (ofTable t).map (·.size) = t.values.map fun b => (b.size : Int) := by
  simp only [ofTable, Keyed.values, List.map_map]
  rfl

theorem totalSize_eq (parts : List Part) : totalSize parts = (parts.map (·.size)).sum := by
  induction parts with
  | nil => rfl
  | cons p rest ih =>
    rw [List.map_cons, List.sum_cons, ← ih]
    rfl

theorem totalSize_ofTable (t : Keyed Int Bytes) :
    totalSize (ofTable t) = (Bytes.concat t.values).size := by
  rw [totalSize_eq, map_size_ofTable, Bytes.size_concat, Nat.cast_list_sum, List.map_map]
  rfl

theorem getLast?_ofTable (t : Keyed Int Bytes) :
    (ofTable t).getLast?.map (·.size) = t.values.getLast?.map fun b => (b.size : Int) := by
  rw [← List.getLast?_map, map_size_ofTable, List.getLast?_map]

/-! ## 2. Looking up and setting a body -/

theorem lookup_eq_of_ascending {κ β : Type} [Preorder κ] [DecidableEq κ] {l : List (κ × β)}
    (h : l.Pairwise fun a b => a.1 < b.1) {e : κ × β} (he : e ∈ l) :
    l.lookup e.1 = some e.2 := by
  induction l with
  | nil => cases he
  | cons a rest ih =>
    obtain ⟨k, b⟩ := a
    rw [List.pairwise_cons] at h
    rcases List.mem_cons.mp he with rfl | he
    · simp
    · have hlt : k < e.1 := h.1 e he
      rw [List.lookup_cons, beq_false_of_ne hlt.ne']
      exact ih h.2 he

theorem find?_of_mem {κ β : Type} [Preorder κ] [DecidableEq κ] {t : Keyed κ β} {e : κ × β}
    (he : e ∈ t.entries) : t.find? e.1 = some e.2 :=
  lookup_eq_of_ascending t.ascending he

/-- Ascending lists with the same look-ups are equal. -/
theorem eq_of_lookup {κ β : Type} [Preorder κ] [DecidableEq κ] {l l' : List (κ × β)}
    (hl : l.Pairwise fun a b => a.1 < b.1) (hl' : l'.Pairwise fun a b => a.1 < b.1)
    (h : ∀ k, l.lookup k = l'.lookup k) : l = l' := by
  have hsub : ∀ {l l' : List (κ × β)}, l.Pairwise (fun a b => a.1 < b.1) →
      (∀ k, l.lookup k = l'.lookup k) → l ⊆ l' := by
    intro l l' hl h e he
    obtain ⟨l₁, l₂, rfl, -⟩ :=
      List.lookup_eq_some_iff.mp ((h e.1).symm.trans (lookup_eq_of_ascending hl he))
    simp
  have hnodup : ∀ {l : List (κ × β)}, l.Pairwise (fun a b => a.1 < b.1) → l.Nodup :=
    fun hasc => hasc.imp fun hlt heq => absurd (congrArg Prod.fst heq) hlt.ne
  have hmem : ∀ e, e ∈ l ↔ e ∈ l' :=
    fun e => ⟨fun he => hsub hl h he, fun he => hsub hl' (fun k => (h k).symm) he⟩
  exact ((List.perm_ext_iff_of_nodup (hnodup hl) (hnodup hl')).mpr hmem).eq_of_pairwise
    (fun a b _ _ hab hba => absurd hab hba.asymm) hl hl'

theorem entries_eq_of_find? {κ β : Type} [Preorder κ] [DecidableEq κ] {t : Keyed κ β}
    {l : List (κ × β)} (hl : l.Pairwise fun a b => a.1 < b.1) (h : ∀ k, t.find? k = l.lookup k) :
    t.entries = l :=
  eq_of_lookup t.ascending hl h

/-- Each of the first bodies is found under its number, whatever follows. -/
theorem find?_table_append {bodies : List Bytes} {e : Int × Bytes}
    (he : e ∈ numberedFrom 1 bodies) (rest : List Bytes) :
    (table (bodies ++ rest)).find? e.1 = some e.2 := by
  apply lookup_eq_of_ascending (numberedFrom_ascending 1 _)
  rw [numberedFrom_append]
  exact List.mem_append_left _ he

theorem insertEntry_of_lt {k : Int} {v : Bytes} {l rest : List (Int × Bytes)}
    (h : ∀ e ∈ l, e.1 < k) :
    Keyed.insertEntry k v (l ++ rest) = l ++ Keyed.insertEntry k v rest := by
  induction l with
  | nil => rfl
  | cons a l ih =>
    have ha : a.1 < k := h a (by simp)
    have hl := ih fun e he => h e (by simp [he])
    simp only [List.cons_append, Keyed.insertEntry]
    rw [if_neg (by omega), if_neg (by omega), hl]

/-- A body sent under the number that follows comes behind the bodies; it replaces the one that may
be there without being counted. -/
theorem insert_table {bodies spare : List Bytes} (hspare : spare.length ≤ 1) (body : Bytes) :
    (table (bodies ++ spare)).insert (bodies.length + 1) body = table (bodies ++ [body]) := by
  have hentries : Keyed.insertEntry ((bodies.length : Int) + 1) body
      (numberedFrom 1 (bodies ++ spare)) = numberedFrom 1 (bodies ++ [body]) := by
    rw [numberedFrom_append, insertEntry_of_lt, numberedFrom_append]
    · congr 1
      match spare, hspare with
      | [], _ => simp [numberedFrom, Keyed.insertEntry, Int.add_comm]
      | [x], _ => simp [numberedFrom, Keyed.insertEntry, Int.add_comm]
    · intro e he
      have hlt := (le_of_mem_numberedFrom he).2
      omega
  simp only [Keyed.insert, table, hentries]

end Part

/-! ## 3. Joining -/

namespace Store

/-- A completion that is accepted joins the bodies under the numbers that it names. -/
theorem eq_of_partsToJoin {s : Store} {u : StoredUpload} {l : List (Int × Bytes)}
    (h : ∀ e ∈ l, u.parts.find? e.1 = some e.2) {contents : List Bytes}
    (hjoin : s.partsToJoin u (l.map fun e => (e.1, tag e.2)) = .ok contents) :
    contents = l.map Prod.snd := by
  induction l generalizing contents with
  | nil =>
    simp only [List.map_nil, partsToJoin, Except.ok.injEq] at hjoin
    simp [← hjoin]
  | cons e l ih =>
    simp only [List.map_cons, partsToJoin, h e (by simp), bne_self_eq_false, Bool.false_eq_true,
      if_false] at hjoin
    split at hjoin
    · cases hjoin
    · rcases hrest : s.partsToJoin u (l.map fun e => (e.1, tag e.2)) with f | rest
      · rw [hrest] at hjoin
        cases hjoin
      · rw [hrest] at hjoin
        simp only [Except.map, Except.ok.injEq] at hjoin
        rw [← hjoin, ih (fun e he => h e (by simp [he])) hrest, List.map_cons]

/-- A completion is accepted when every part but the last reaches the store's least size. -/
theorem partsToJoin_eq_ok {s : Store} {u : StoredUpload} {l : List (Int × Bytes)}
    (h : ∀ e ∈ l, u.parts.find? e.1 = some e.2)
    (hsize : ∀ b ∈ (l.map Prod.snd).dropLast, s.minPartSize ≤ b.size) :
    s.partsToJoin u (l.map fun e => (e.1, tag e.2)) = .ok (l.map Prod.snd) := by
  induction l with
  | nil => rfl
  | cons e l ih =>
    have hrest : ∀ b ∈ (l.map Prod.snd).dropLast, s.minPartSize ≤ b.size := by
      intro b hb
      apply hsize
      cases l with
      | nil => cases hb
      | cons e' l => simpa using Or.inr hb
    have htail := ih (fun e he => h e (by simp [he])) hrest
    simp only [List.map_cons, partsToJoin, h e (by simp), bne_self_eq_false, Bool.false_eq_true,
      if_false, htail]
    rw [if_neg]
    · rfl
    · cases l with
      | nil => simp
      | cons e' l =>
        have hfirst := hsize e.2 (by simp)
        simp only [List.map_cons, List.isEmpty_cons, Bool.not_false, Bool.true_and,
          decide_eq_true_eq]
        omega

end Store

end ResumableStorage
