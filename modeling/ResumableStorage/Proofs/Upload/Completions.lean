/-
  ResumableStorage/Proofs/Upload/Completions.lean
  ===============================================
  **Every completion is one that a store accepts** — it names the parts from one on, each
  with the tag of the body that is held under its number, and no part but the last is
  below the floor of the writer's policy.

  Parts that took effect although they failed, parts that are sent again with another
  body, and uploads that are replaced in between do not change this, since the writer
  counts a part only when its tag has come back.
-/
import ResumableStorage.Proofs.Upload.Outcomes
import ResumableStorage.Proofs.Upload.Turns

namespace ResumableStorage

/-! ## 1. Names that are accepted -/

/-- Names of parts by which an upload is joined: they are numbered from one on, each has the tag of
the body that is held under its number, and no body but the last is below a floor. -/
structure StoredUpload.JoinedBy (u : StoredUpload) (floor : Nat) (names : List (Int × String)) :
    Prop where
  nonempty : names ≠ []
  numbers : names.map Prod.fst = (List.range names.length).map fun i : Nat => (i : Int) + 1
  held : ∃ entries : List (Int × Bytes), names = entries.map (fun e => (e.1, Store.tag e.2)) ∧
    (∀ e ∈ entries, u.parts.find? e.1 = some e.2) ∧ ∀ e ∈ entries.dropLast, floor ≤ e.2.size

/-- A store whose least part size is not above the floor does what such a completion asks. -/
theorem StoredUpload.JoinedBy.effect {s : Store} {u : StoredUpload} {floor : Nat}
    {names : List (Int × String)} {key id : String} (h : u.JoinedBy floor names)
    (hu : s.upload? key id = some u) (hfloor : s.minPartSize ≤ floor) (bucket : String) :
    ∃ v s', s.effect (.completeUpload bucket key id names) = .ok (v, s') := by
  obtain ⟨entries, rfl, hfind, hsize⟩ := h.held
  have hleast : ∀ b ∈ (entries.map Prod.snd).dropLast, s.minPartSize ≤ b.size := by
    intro b hb
    rw [← List.map_dropLast] at hb
    obtain ⟨e, he, rfl⟩ := List.mem_map.mp hb
    exact Nat.le_trans hfloor (hsize e he)
  exact ⟨_, _, Store.effect_completeUpload hu h.nonempty (Store.partsToJoin_eq_ok hfind hleast)
    bucket⟩

/-- When the request completes an upload that is still in flight, it names parts by which that is
joined. -/
def Exchange.JoinsOpen (x : Exchange (Disturbed Store)) (floor : Nat) : Prop :=
  ∀ bucket key id names u, x.request = .completeUpload bucket key id names →
    x.store.upload? key id = some u → u.JoinedBy floor names

namespace Writer

variable {w w' w₀ : Writer} {c c' c₀ : Context (Disturbed Store)} {op : Operation}
  {xs : List (Exchange (Disturbed Store))} {turns : List (Turn (Disturbed Store))}
  {bodies spare : List Bytes} {content : Bytes} {floor : Nat}

theorem Recorded.joinsOpen (h : w.Recorded c bodies spare) (hne : bodies ≠ [])
    (hsize : ∀ b ∈ bodies.dropLast, floor ≤ b.size) : (w.completing c).JoinsOpen floor := by
  intro bucket key id named u hr hu
  have hcompletion : (w.completing c).request = w.session.completion w.parts := rfl
  rw [hcompletion, h.parts, ← Part.ofTable_table, Session.completion_ofTable,
    Request.completeUpload.injEq] at hr
  obtain ⟨-, rfl, rfl, rfl⟩ := hr
  have hparts : u.parts = Part.table (bodies ++ spare) := by
    obtain ⟨hmem, hid, -, -⟩ := h.ids.upload?_eq_some_iff.mp hu
    obtain ⟨v, hv, hvid, -, hvparts⟩ := h.record
    rw [h.ids.unique hmem hv (hid.trans hvid.symm), hvparts]
  refine ⟨?_, ?_, Part.numberedFrom 1 bodies, rfl, ?_, ?_⟩
  · exact mt List.map_eq_nil_iff.mp (mt Part.table_entries_eq_nil_iff.mp hne)
  · have hnumbers := Part.map_number_ofBodies bodies
    simp only [Part.ofBodies, List.map_map] at hnumbers
    simp only [Part.table, List.map_map, List.length_map, Part.length_numberedFrom]
    exact hnumbers
  · intro e he
    rw [hparts]
    exact Part.find?_table_append he spare
  · intro e he
    apply hsize
    rw [← Part.map_snd_numberedFrom 1 bodies, ← List.map_dropLast]
    exact List.mem_map_of_mem he

/-! ## 2. Sizes of the parts that are counted -/

/-- No part but the last is below the floor, and none at all when there is nothing to repair. -/
structure Sized (w : Writer) (floor : Nat) : Prop where
  policy : w.policy.floor = floor
  front : ∀ size ∈ (w.parts.map (·.size)).dropLast, (floor : Int) ≤ size
  all : (∀ b, w.repair ≠ .required b) → ∀ size ∈ w.parts.map (·.size), (floor : Int) ≤ size

theorem map_size_of_parts (hparts : w.parts = Part.ofBodies bodies) :
    w.parts.map (·.size) = bodies.map fun b => (b.size : Int) := by
  rw [hparts, ← Part.ofTable_table, Part.map_size_ofTable, Part.values_table]

theorem Sized.of_bodies (hpolicy : w.policy.floor = floor) (hparts : w.parts = Part.ofBodies bodies)
    (h : ∀ b ∈ bodies, floor ≤ b.size) : w.Sized floor := by
  have hall : ∀ size ∈ w.parts.map (·.size), (floor : Int) ≤ size := by
    rw [map_size_of_parts hparts]
    intro size hsize
    obtain ⟨b, hb, rfl⟩ := List.mem_map.mp hsize
    exact Int.ofNat_le.mpr (h b hb)
  exact ⟨hpolicy, fun size hsize => hall size (List.mem_of_mem_dropLast hsize), fun _ => hall⟩

theorem Sized.bodies_front (h : w.Sized floor) (hparts : w.parts = Part.ofBodies bodies) :
    ∀ b ∈ bodies.dropLast, floor ≤ b.size := by
  have hfront := h.front
  rw [map_size_of_parts hparts, ← List.map_dropLast] at hfront
  intro b hb
  exact Int.ofNat_le.mp (hfront _ (List.mem_map_of_mem hb))

theorem Sized.bodies_all (h : w.Sized floor) (hrepair : ∀ b, w.repair ≠ .required b)
    (hparts : w.parts = Part.ofBodies bodies) : ∀ b ∈ bodies, floor ≤ b.size := by
  have hall := h.all hrepair
  rw [map_size_of_parts hparts] at hall
  intro b hb
  exact Int.ofNat_le.mp (hall _ (List.mem_map_of_mem hb))

theorem Sized.same (h : w.Sized floor) (hpolicy : w'.policy = w.policy) (hparts : w'.parts = w.parts)
    (hrepair : (∃ b, w.repair = .required b) → ∃ b, w'.repair = .required b) : w'.Sized floor := by
  refine ⟨by rw [hpolicy, h.policy], by rw [hparts]; exact h.front, ?_⟩
  rw [hparts]
  intro hsettled
  apply h.all
  intro b hb
  obtain ⟨b', hb'⟩ := hrepair ⟨b, hb⟩
  exact hsettled b' hb'

theorem Opened.sized (h : w.Opened c (Part.table bodies))
    (hsize : ∀ b ∈ bodies.dropLast, w.policy.floor ≤ b.size) : w.Sized w.policy.floor := by
  have hsizes := map_size_of_parts h.parts_eq
  refine ⟨rfl, ?_, ?_⟩
  · rw [hsizes, ← List.map_dropLast]
    intro size hmem
    obtain ⟨b, hb, rfl⟩ := List.mem_map.mp hmem
    exact Int.ofNat_le.mpr (hsize b hb)
  · intro hsettled
    rw [hsizes]
    intro size hmem
    obtain ⟨b, hb, rfl⟩ := List.mem_map.mp hmem
    apply Int.ofNat_le.mpr
    rcases List.eq_nil_or_concat bodies with rfl | ⟨front, last, rfl⟩
    · cases hb
    · rw [List.concat_eq_append] at *
      rw [List.dropLast_concat] at hsize
      rcases List.mem_append.mp hb with hb | hb
      · exact hsize b hb
      · -- the last part is not below the floor, since there would be a repair to make
        have hrepair := h.repair_eq
        simp only [Part.values_table, List.getLast?_concat, Option.any_some, decide_eq_true_eq]
          at hrepair
        rw [List.mem_singleton.mp hb]
        by_contra hlt
        rw [if_pos (Nat.not_le.mp hlt)] at hrepair
        exact hsettled false hrepair

/-- An object is copied into a new upload only when it is not below the floor. -/
theorem floor_le_of_mem_carried {policy : Policy} {content b : Bytes}
    (hb : b ∈ carried (repairMode policy content.size) content) : policy.floor ≤ b.size := by
  unfold repairMode at hb
  split at hb
  · cases hb
  · rw [carried, List.mem_singleton] at hb
    rw [hb]
    omega

theorem InUse.sized_write (h : w.InUse c content) (hsized : w.Sized floor)
    (hphase : w.phase = .active) (data : Bytes) {result : Except Error Nat}
    (hrun : (Writer.write data).execute w c = (result, w', c')) : w'.Sized floor := by
  have hchunk : floor ≤ w.policy.chunk := by
    rw [← hsized.policy]
    exact w.policy.floor_le_chunk
  by_cases hempty : data.size = 0
  · rw [write_of_empty hphase hempty] at hrun
    obtain ⟨-, rfl, -⟩ := hrun
    exact hsized
  · cases h with
    | @flowing bodies spare h hrepair =>
      obtain ⟨_, _, _, sent, taken, spare', hwrite, htook⟩ :=
        write_of_attached hphase hrepair h.attached h.fits hempty
      rw [hrun] at hwrite
      obtain ⟨rfl, rfl, rfl⟩ := hwrite
      obtain ⟨slots, hw'⟩ := htook.writer
      have hparts : w'.parts = Part.ofBodies (bodies ++ sent) := by rw [hw']
      refine .of_bodies (by rw [hw']; exact hsized.policy) hparts ?_
      intro b hb
      rcases List.mem_append.mp hb with hb | hb
      · exact hsized.bodies_all hrepair h.attached.parts b hb
      · rw [htook.chunks b hb]
        exact hchunk
    | @stale bodies completed h hbytes =>
      rcases write_of_stale hphase h hempty with
        ⟨e, w₁, c₁, completed', hwrite, -, rfl, hstale, -⟩ |
        ⟨w₁, c₁, _, _, _, sent, taken, spare', -, hreplaced, hwrite, htook⟩
      · rw [hrun] at hwrite
        obtain ⟨rfl, rfl, rfl⟩ := hwrite
        exact hsized.same rfl rfl fun _ => ⟨completed', rfl⟩
      · rw [hrun] at hwrite
        obtain ⟨rfl, rfl, rfl⟩ := hwrite
        obtain ⟨slots, hw₁⟩ := hreplaced.writer
        obtain ⟨slots', hw'⟩ := htook.writer
        have hpolicy : w₁.policy = w.policy := by rw [hw₁]
        have hparts : w'.parts =
            Part.ofBodies (w.repairBodies (Part.table bodies).values ++ sent) := by rw [hw']
        refine .of_bodies (by rw [hw', hpolicy, hsized.policy]) hparts ?_
        intro b hb
        rcases List.mem_append.mp hb with hb | hb
        · rw [repairBodies, h.size] at hb
          rw [← hsized.policy]
          exact floor_le_of_mem_carried hb
        · rw [htook.chunks b hb, hpolicy]
          exact hchunk

theorem InUse.sized_call (h : w.InUse c content) (hsized : w.Sized floor)
    (hphase : w.phase = .active) (op : Operation) {result : Except Error Unit}
    (hrun : op.run.execute w c = (result, w', c')) (hactive : w'.phase = .active) :
    w'.Sized floor := by
  cases op with
  | write data =>
    rcases hwrite : (Writer.write data).execute w c with ⟨answer, w₁, c₁⟩
    simp only [Operation.run, Writing.execute_discard, hwrite, Prod.mk.injEq] at hrun
    obtain ⟨-, rfl, -⟩ := hrun
    exact h.sized_write hsized hphase data hwrite
  | close =>
    have hclosed := close_phase (c := c) hphase
    simp only [Operation.run] at hrun
    rw [hrun, hactive] at hclosed
    cases hclosed
  | commit =>
    obtain ⟨xs, -, hstep⟩ := step_of_run hphase .commit hrun
    cases hstep with
    | committedBefore hsource => cases hactive
    | restNotSent hsource hx hpool => exact hsized
    | committed hsource hrest hsends hx => cases hactive
    | notCommitted hsource hrest hsends hx hy => cases hactive
  | cancel =>
    have hcancelled := cancel_phase (c := c) hphase
    simp only [Operation.run] at hrun
    rw [hrun, hactive] at hcancelled
    cases hcancelled

/-- The parts of a writer in use are never below the floor but for the last, whatever was called
and whatever has failed. -/
theorem Reaches.sized (hopen : w₀.Opened c₀ (Part.table bodies))
    (hsize : ∀ b ∈ bodies.dropLast, w₀.policy.floor ≤ b.size) {calls : List Call}
    {accepted : Bytes} (h : Reaches w₀ c₀ calls accepted w c) (hactive : w.phase = .active) :
    w.Sized w₀.policy.floor := by
  induction h with
  | start => exact hopen.sized hsize
  | @call calls accepted w w' c c' result h op hrun ih =>
    by_cases hbefore : w.phase = .active
    · exact (h.inUse hopen hbefore).sized_call (ih hbefore) hbefore op hrun hactive
    · rw [run_of_finished hbefore op] at hrun
      obtain ⟨-, rfl, -⟩ := hrun
      exact absurd hactive hbefore
  | elsewhere h hc ih => exact ih hactive

/-! ## 3. Where completions are asked -/

/-- A repair asks for one completion at most, that of the old upload. -/
theorem Repairs.completion_eq {result : Except Error Unit} (h : Repairs w c result w' xs)
    {x : Exchange (Disturbed Store)} (hx : x ∈ xs) (hkind : x.request.kind = .completeUpload) :
    x = w.completing c := by
  have hclosing : ∀ z ∈ w.closing c, z = w.completing c := by
    intro z hz
    rw [closing] at hz
    split at hz
    · cases hz
    · exact List.mem_singleton.mp hz
  have hcarries : ∀ {y : Exchange (Disturbed Store)}, y.request.Carries →
      y.request.kind ≠ .completeUpload := by
    rintro y (hy | hy | hy) <;> simp [hy]
  cases h with
  | notCompleted hsource hfailed hy =>
    simp only [List.mem_cons, List.not_mem_nil, or_false] at hx
    rcases hx with rfl | rfl
    · rfl
    · simp [hy] at hkind
  | notStarted hcompletes hcreate hnew =>
    simp only [List.mem_append, List.mem_singleton] at hx
    rcases hx with hx | rfl
    · exact hclosing x hx
    · simp [hcreate.kind_eq] at hkind
  | notCarried hcompletes hstarts hcarried hy =>
    simp only [List.mem_append, List.mem_cons, List.not_mem_nil, or_false] at hx
    rcases hx with hx | rfl | hx | rfl
    · exact hclosing x hx
    · simp [hstarts.1.kind_eq] at hkind
    · exact absurd hkind (hcarries (hcarried x hx))
    · simp [hy] at hkind
  | replaced hcompletes hstarts hcarried =>
    simp only [List.mem_append, List.mem_cons] at hx
    rcases hx with hx | rfl | hx
    · exact hclosing x hx
    · simp [hstarts.1.kind_eq] at hkind
    · exact absurd hkind (hcarries (hcarried x hx))

/-- A completion is asked by a repair, of the writer as it is, and by a commit that has sent the
rest. -/
theorem Step.completion_cases {result : Except Error Unit} (h : w.Step c c' op result w' xs)
    {x : Exchange (Disturbed Store)} (hx : x ∈ xs) (hkind : x.request.kind = .completeUpload) :
    (∃ b, w.repair = .required b) ∧ x = w.completing c ∨
      ∃ w₁ c₁, sendRest.execute w c = (.ok (), w₁, c₁) ∧ x = w₁.completing c₁ := by
  have hparts : ∀ {s : Session}, x.request.IsPartOf s → False := by
    intro s hpart
    simp [hpart.kind_eq] at hkind
  cases h with
  | wroteNothing hdata => cases hx
  | wrote hdata hrepair hsends => exact (hparts (hsends.parts x hx)).elim
  | notRepaired hdata hrepair hrepairs hpool =>
    exact .inl ⟨⟨_, hrepair⟩, hrepairs.completion_eq hx hkind⟩
  | repaired hdata hrepair hrepairs hsends =>
    rcases List.mem_append.mp hx with hx | hx
    · exact .inl ⟨⟨_, hrepair⟩, hrepairs.completion_eq hx hkind⟩
    · exact (hparts (hsends.parts x hx)).elim
  | closed hsends => exact (hparts (hsends.parts x hx)).elim
  | committedBefore hsource => cases hx
  | restNotSent hsource hfailed hpool =>
    obtain ⟨number, body, hr, -⟩ := hfailed
    rw [List.mem_singleton] at hx
    subst hx
    exact (hparts ⟨number, body, hr⟩).elim
  | @committed w₁ c₁ sent hsource hrest hsends hcompletes =>
    rcases List.mem_append.mp hx with hx | hx
    · exact (hparts (hsends.parts x hx)).elim
    · exact .inr ⟨w₁, c₁, hrest, List.mem_singleton.mp hx⟩
  | @notCommitted e w₁ c₁ sent y hsource hrest hsends hfailed hy =>
    simp only [List.mem_append, List.mem_cons, List.not_mem_nil, or_false] at hx
    rcases hx with hx | rfl | rfl
    · exact (hparts (hsends.parts x hx)).elim
    · exact .inr ⟨w₁, c₁, hrest, rfl⟩
    · simp [hy] at hkind
  | cancelledBefore hsource => cases hx
  | cancelled hsource hy =>
    rw [List.mem_singleton] at hx
    subst hx
    simp [hy] at hkind

/-! ## 4. All completions -/

theorem committedBodies_length_le (w : Writer) : w.committedBodies.length ≤ 1 := by
  unfold committedBodies flushed
  split
  · exact Nat.le_refl 1
  · split <;> simp

theorem mem_dropLast_append {α : Type} {l rest : List α} (hrest : rest.length ≤ 1) {a : α}
    (ha : a ∈ (l ++ rest).dropLast) : a ∈ l := by
  match rest, hrest with
  | [], _ =>
    rw [List.append_nil] at ha
    exact List.mem_of_mem_dropLast ha
  | [b], _ => rwa [List.dropLast_concat] at ha

/-- A writer that has nothing to repair sends the rest, and then its completion names what the
upload holds. -/
theorem Holds.joinsOpen {w₁ : Writer} {c₁ : Context (Disturbed Store)}
    (h : w.Holds c content bodies spare) (hrepair : ∀ b, w.repair ≠ .required b)
    (hsized : w.Sized floor) (hrest : sendRest.execute w c = (.ok (), w₁, c₁)) :
    (w₁.completing c₁).JoinsOpen floor := by
  obtain ⟨result, w', c', hrun, hleads, hcases⟩ := sendRest_of_attached h.attached h.fits
  rw [hrest] at hrun
  obtain ⟨rfl, rfl, rfl⟩ := hrun
  rcases hcases with ⟨-, ⟨slots, rfl⟩, hstore⟩ | ⟨e, spare', he, -⟩
  · have h₁ : Attached { w with
          parts := Part.ofBodies (bodies ++ w.committedBodies), slots := slots } c₁
        (bodies ++ w.committedBodies) (if w.committedBodies = [] then spare else []) :=
      h.attached.next hleads hstore rfl rfl (by split; exacts [h.attached.spare, by simp])
    apply h₁.recorded.joinsOpen (append_committedBodies_ne_nil h.attached.parts)
    intro b hb
    exact hsized.bodies_all hrepair h.attached.parts b
      (mem_dropLast_append (committedBodies_length_le w) hb)
  · cases he

theorem Stale.joinsOpen {completed : Bool} (h : w.Stale c (Part.table bodies) completed)
    (hsized : w.Sized floor) : (w.completing c).JoinsOpen floor :=
  h.recorded.joinsOpen (mt Part.table_entries_eq_nil_iff.mpr h.nonempty)
    (hsized.bodies_front h.recorded.parts)

theorem InUse.joinsOpen (h : w.InUse c content) (hsized : w.Sized floor)
    {result : Except Error Unit} (hstep : w.Step c c' op result w' xs) :
    ∀ x ∈ xs, x.JoinsOpen floor := by
  intro x hx bucket key id named u hr hu
  suffices hjoins : x.JoinsOpen floor from hjoins bucket key id named u hr hu
  have hkind : x.request.kind = .completeUpload := by rw [hr]; rfl
  rcases hstep.completion_cases hx hkind with ⟨⟨b, hrequired⟩, rfl⟩ | ⟨w₁, c₁, hrest, rfl⟩
  · cases h with
    | flowing h hrepair => exact absurd hrequired (hrepair b)
    | stale h hbytes => exact h.joinsOpen hsized
  · cases h with
    | flowing h hrepair => exact h.joinsOpen hrepair hsized hrest
    | @stale bodies completed h hbytes =>
      -- nothing is staged and the writer has parts, so nothing is sent before
      rw [sendRest_of_staged_empty (staged_of_none h.slots) h.parts_ne_nil] at hrest
      obtain ⟨-, rfl, rfl⟩ := hrest
      exact h.joinsOpen hsized

/-- Whatever was called and whatever has failed, before or after its effect: a completion that a
commit or a repair asks for, of an upload that is still in flight, names its parts from one on with
the tags of the bodies that are held, and none but the last is below the floor.  So a store whose
least part size is not above the floor does what it asks. -/
theorem History.completions_join (hopen : w₀.Opened c₀ (Part.table bodies))
    (hsize : ∀ b ∈ bodies.dropLast, w₀.policy.floor ≤ b.size)
    (h : History Disturbance.Fails w₀ c₀ turns w c) :
    ∀ turn ∈ turns, ∀ x ∈ turn.exchanges, ∀ bucket key id names u,
      x.request = .completeUpload bucket key id names → x.store.upload? key id = some u →
      u.JoinedBy w₀.policy.floor names ∧
        (x.store.minPartSize ≤ w₀.policy.floor → ∃ v s, x.store.effect x.request = .ok (v, s)) := by
  intro turn hturn x hx bucket key id names u hr hu
  obtain ⟨earlier, hreached⟩ := h.turn_reached hturn
  obtain ⟨calls, accepted, hreaches⟩ := hreached.reaches
  have hphase : turn.writer.phase = .active := by
    by_contra hfinished
    rw [(Turn.of_finished hfinished).2.2] at hx
    cases hx
  have hjoined := (hreaches.inUse hopen hphase).joinsOpen (hreaches.sized hopen hsize hphase)
    (Turn.step hphase).2 x hx bucket key id names u hr hu
  refine ⟨hjoined, fun hfloor => ?_⟩
  rw [hr]
  exact hjoined.effect hu hfloor bucket

/-! ## 5. A commit after a part was lost -/

namespace Sample

/-- The first part is stored, and its upload fails then. -/
def partLost : List (RequestKind × List (Option Disturbance)) :=
  [(.uploadPart, [some ⟨true, .fails (.unreachable "down")⟩])]

theorem partLost_fails : (context partLost).service.Within Disturbance.Fails := by
  intro q hq x hx
  simp only [context, partLost, List.mem_singleton] at hq
  subst hq
  simp only [List.mem_singleton, Option.some.injEq] at hx
  rw [hx]
  exact .error _ _ _

def writeLosingPart : Turn (Disturbed Store) := ⟨.write data, writer, context partLost⟩

def commitAfterLoss : Turn (Disturbed Store) :=
  ⟨.commit, writeLosingPart.writerAfter, writeLosingPart.contextAfter⟩

/-- The exchange completes an upload that is in flight. -/
def completesOpen (x : Exchange (Disturbed Store)) : Bool :=
  match x.request with
  | .completeUpload _ key id _ => (x.store.upload? key id).isSome
  | _ => false

end Sample

theorem completion_joins_after_lost_part :
    Sample.writeLosingPart.result.isOk = false ∧
      ∃ x ∈ Sample.commitAfterLoss.exchanges, ∃ bucket key id names u,
        x.request = .completeUpload bucket key id names ∧ x.store.upload? key id = some u ∧
        u.JoinedBy 2 names := by
  have hhistory : History Disturbance.Fails Sample.writer (Sample.context Sample.partLost)
      [Sample.writeLosingPart, Sample.commitAfterLoss] Sample.commitAfterLoss.writerAfter
      Sample.commitAfterLoss.contextAfter :=
    .call Sample.commitAfterLoss (.call Sample.writeLosingPart .start)
  have hasked : Sample.commitAfterLoss.exchanges.any Sample.completesOpen = true := by
    decide +kernel
  obtain ⟨x, hx, hcompletes⟩ := List.any_eq_true.mp hasked
  rw [Sample.completesOpen] at hcompletes
  split at hcompletes
  · rename_i bucket key id names hr
    obtain ⟨u, hu⟩ := Option.isSome_iff_exists.mp hcompletes
    exact ⟨by decide +kernel, x, hx, bucket, key, id, names, u, hr, hu,
      (History.completions_join (Sample.opened Sample.partLost_fails) (by simp) hhistory
        Sample.commitAfterLoss (by simp) x hx bucket key id names u hr hu).1⟩
  · cases hcompletes

end Writer

end ResumableStorage
