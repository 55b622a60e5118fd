/-
  ResumableStorage/Proofs/Volume/Moving.lean
  ==========================================
  **Moving an object** — a move copies the object and then deletes it where it was.  Each
  of the two requests may fail, before it has taken effect or after it.  Between the two
  the object is in both places, so nothing is lost when the second one fails.

  This holds where the two paths name different keys.  Slashes at the front of a path do
  not matter, so two paths may name the same key; then the object is copied onto itself,
  and the deletion takes the only copy.
-/
import ResumableStorage.Proofs.Volume.Rounds

namespace ResumableStorage

/-! ## 1. The two requests -/

variable {c c' : Context (Disturbed Store)}

/-- A request whose answer does not matter has its effect or leaves the store as it was; when it
returns it has had its effect. -/
theorem Run.discard_send_cases (hf : c.service.FailsOnly) (action : Action) {r : Request}
    (hkind : r.kind ≠ .getObject) :
    ∃ result c', (discard (send action r) : Run _ Unit).execute c = (result, c') ∧ c.Leads c' ∧
      ((∃ v, c.store.effect r = .ok (v, c'.store)) ∨
        (∃ e, result = .error e) ∧ c'.store = c.store) := by
  obtain ⟨result, c', hsend, hleads, hsent⟩ := send_sent hf action r
  refine ⟨_, c', by rw [execute_discard, hsend], hleads, ?_⟩
  cases hsent with
  | granted h => exact .inl ⟨_, h⟩
  | failed hs =>
    rcases hs with hs | ⟨v, h⟩
    · exact .inr ⟨⟨_, rfl⟩, hs⟩
    · exact .inl ⟨v, h⟩
  | broken content f hs hobject => exact absurd hobject hkind

theorem Store.effect_copyObject_eq_ok {s s' : Store} {value : Value} {bucket source dest : String}
    (h : s.effect (.copyObject bucket source dest) = .ok (value, s')) :
    ∃ o, s.objects.find? source = some o ∧ s' = s.putObject dest o.content := by
  simp only [effect] at h
  rcases ho : s.objects.find? source with _ | o <;> rw [ho] at h <;> cases h
  exact ⟨o, rfl, rfl⟩

theorem Store.effect_deleteObject_eq_ok {s s' : Store} {value : Value} {bucket key : String}
    (h : s.effect (.deleteObject bucket key) = .ok (value, s')) : s' = s.eraseObject key := by
  cases h
  rfl

namespace Volume

variable {v : Volume} {source dest : String} {result : Except Error Unit}

/-! ## 2. Everything that a move can do -/

/-- What a move can come to, and the store that it leaves. -/
inductive Moved (v : Volume) (source dest : String) (s : Store) : Except Error Unit → Store → Prop
  | notCopied (e : Error) : Moved v source dest s (.error e) s
  | copied {o : StoredObject} (ho : s.objects.find? (v.key source) = some o) (e : Error) :
      Moved v source dest s (.error e) (s.putObject (v.key dest) o.content)
  /-- The object was deleted where it was; the deletion may have been reported as failed. -/
  | deleted {o : StoredObject} (ho : s.objects.find? (v.key source) = some o)
      (result : Except Error Unit) :
      Moved v source dest s result ((s.putObject (v.key dest) o.content).eraseObject (v.key source))

/-- The inversion of a move. -/
theorem move_moved (hf : c.service.FailsOnly)
    (hrun : (v.move source dest).execute c = (result, c')) :
    v.Moved source dest c.store result c'.store := by
  obtain ⟨copied, c₁, hcopy, hleads₁, hcases₁⟩ := Run.discard_send_cases hf .copyObject
    (r := .copyObject v.bucket.name (v.key source) (v.key dest)) (by simp [Request.kind])
  simp only [move, Client.copyObject, Run.notFoundAs, Run.execute_bind, Run.execute_tryCatch, hcopy]
    at hrun
  rcases copied with e | ⟨⟩
  · cases hrun
    rcases hcases₁ with ⟨_, h⟩ | ⟨-, hstore⟩
    · obtain ⟨o, ho, hstore⟩ := Store.effect_copyObject_eq_ok h
      rw [hstore]
      exact .copied ho _
    · rw [hstore]
      exact .notCopied _
  · obtain ⟨erased, c₂, hdelete, -, hcases₂⟩ := Run.discard_send_cases hleads₁.failsOnly .deleteObject
      (r := .deleteObject v.bucket.name (v.key source)) (by simp [Request.kind])
    have hsecond : (Client.deleteObject v.bucket.name (v.key source)).execute c₁ = (result, c') :=
      hrun
    rw [Client.deleteObject, hdelete] at hsecond
    cases hsecond
    rcases hcases₁ with ⟨_, h⟩ | ⟨⟨e, he⟩, -⟩
    · obtain ⟨o, ho, hstore⟩ := Store.effect_copyObject_eq_ok h
      rcases hcases₂ with ⟨_, h⟩ | ⟨⟨e, rfl⟩, hstore'⟩
      · rw [Store.effect_deleteObject_eq_ok h, hstore]
        exact .deleted ho _
      · rw [hstore', hstore]
        exact .copied ho e
    · cases he

/-! ## 3. What becomes of the content -/

/-- Where nothing is disturbed the path is read, and holds this content. -/
def Holds (v : Volume) (s : Store) (path : String) (content : Bytes) : Prop :=
  ∀ c : Context (Disturbed Store), c.store = s → c.service.IsCalm →
    ((v.content path).execute c).1 = .ok content

theorem holds_of_find? {s : Store} {path : String} {o : StoredObject}
    (ho : s.objects.find? (v.key path) = some o) : v.Holds s path o.content := by
  rintro c rfl hcalm
  obtain ⟨c', hread⟩ := content_eq hcalm ho
  rw [hread]

theorem not_holds_of_find? {s : Store} {path : String}
    (hnone : s.objects.find? (v.key path) = none) (content : Bytes) :
    ¬ v.Holds s path content := by
  intro hholds
  let c : Context (Disturbed Store) :=
    { service := Disturbed.calm s, pool := ⟨1, Nat.one_pos, none, [], #[]⟩ }
  have hread := hholds c rfl (Disturbed.calm_isCalm s)
  obtain ⟨result, c', hget, -, -, hcases⟩ :=
    Client.getObject_cases (c := c) (Disturbed.calm_isCalm s).failsOnly v.bucket.name (v.key path)
  simp only [Volume.content, Run.notFoundAs, Run.execute_bind, Run.execute_tryCatch, hget] at hread
  rcases hcases with ⟨o, ho, -⟩ | ⟨_, _, -, hnot⟩ | ⟨e, rfl, -⟩
  · have hsome : s.objects.find? (v.key path) = some o := ho
    rw [hnone] at hsome
    cases hsome
  · exact hnot (Disturbed.calm_isCalm s)
  · cases hread

/-- Whatever comes of a move, it changes nothing but the objects at its two keys. -/
theorem Moved.frame {s s' : Store} (h : v.Moved source dest s result s') :
    s' = { s with objects := s'.objects } ∧ ∀ key, key ≠ v.key source → key ≠ v.key dest →
      s'.objects.find? key = s.objects.find? key := by
  cases h with
  | notCopied e => exact ⟨rfl, fun _ _ _ => rfl⟩
  | copied ho e =>
    refine ⟨rfl, ?_⟩
    intro key _ hdest
    exact Keyed.find?_insert_of_ne _ _ hdest
  | deleted ho result =>
    refine ⟨rfl, ?_⟩
    intro key hsource hdest
    exact (Keyed.find?_erase_of_ne _ hsource).trans (Keyed.find?_insert_of_ne _ _ hdest)

/-- Between different keys the content is at one of the two, and at the destination alone when the
move has returned. -/
theorem Moved.holds {s s' : Store} (h : v.Moved source dest s result s')
    (hne : v.key source ≠ v.key dest) {o : StoredObject}
    (ho : s.objects.find? (v.key source) = some o) :
    (v.Holds s' dest o.content ∨ v.Holds s' source o.content) ∧
      (result = .ok () →
        v.Holds s' dest o.content ∧ s'.objects.find? (v.key source) = none) := by
  cases h with
  | notCopied e => exact ⟨.inr (holds_of_find? ho), nofun⟩
  | copied ho' e =>
    rw [ho, Option.some.injEq] at ho'
    subst ho'
    have hdest : v.Holds (s.putObject (v.key dest) o.content) dest o.content :=
      holds_of_find? (o := ⟨o.content, s.clock⟩) (Keyed.find?_insert_self _ _ _)
    exact ⟨.inl hdest, nofun⟩
  | deleted ho' result =>
    rw [ho, Option.some.injEq] at ho'
    subst ho'
    have hdest : v.Holds ((s.putObject (v.key dest) o.content).eraseObject (v.key source)) dest
        o.content := by
      apply holds_of_find? (o := ⟨o.content, s.clock⟩)
      exact (Keyed.find?_erase_of_ne _ hne.symm).trans (Keyed.find?_insert_self _ _ _)
    exact ⟨.inl hdest, fun _ => ⟨hdest, Keyed.find?_erase_self _ _⟩⟩

/-- **A move loses no content** between paths that name different keys, whatever comes of its two
requests; and nothing but the objects at the two keys changes.  Where the paths name the same key
the content is lost by every move that returns. -/
theorem move_keeps_content (hf : c.service.FailsOnly)
    (hrun : (v.move source dest).execute c = (result, c')) :
    c'.store = { c.store with objects := c'.store.objects } ∧
      (∀ key, key ≠ v.key source → key ≠ v.key dest →
        c'.store.objects.find? key = c.store.objects.find? key) ∧
      (v.key source ≠ v.key dest → ∀ o, c.store.objects.find? (v.key source) = some o →
        (v.Holds c'.store dest o.content ∨ v.Holds c'.store source o.content) ∧
          (result = .ok () → v.Holds c'.store dest o.content ∧
            c'.store.objects.find? (v.key source) = none)) ∧
      (v.key source = v.key dest → result = .ok () →
        ∀ content, ¬ v.Holds c'.store dest content ∧ ¬ v.Holds c'.store source content) := by
  have hmoved := move_moved hf hrun
  obtain ⟨hframe, hobjects⟩ := hmoved.frame
  refine ⟨hframe, hobjects, fun hne o ho => hmoved.holds hne ho, ?_⟩
  rintro hsame rfl content
  have hgone : c'.store.objects.find? (v.key source) = none := by
    generalize c'.store = s' at hmoved
    cases hmoved with
    | deleted ho _ => exact Keyed.find?_erase_self _ _
  exact ⟨not_holds_of_find? (hsame ▸ hgone) content, not_holds_of_find? hgone content⟩

namespace Sample

/-- A store with an object of one byte, behind a plan. -/
def moving (queues : List (RequestKind × List (Option Disturbance))) :
    Context (Disturbed Store) where
  service := ⟨(Store.empty 0).putObject "root/a" ⟨#[97]⟩, queues⟩
  pool := context.pool

/-- The deletion takes effect and is reported as failed. -/
def lateDeletion : List (RequestKind × List (Option Disturbance)) :=
  [(.deleteObject, [some ⟨true, .fails (.unreachable "down")⟩])]

end Sample

theorem content_kept_when_deletion_fails :
    (Sample.moving Sample.lateDeletion).service.FailsOnly ∧
      (Sample.volume.key "/a" ≠ Sample.volume.key "b") ∧
      ((Sample.volume.move "/a" "b").execute (Sample.moving Sample.lateDeletion)).1.isOk = false ∧
      (Sample.volume.Holds ((Sample.volume.move "/a" "b").execute
          (Sample.moving Sample.lateDeletion)).2.store "b" ⟨#[97]⟩ ∨
        Sample.volume.Holds ((Sample.volume.move "/a" "b").execute
          (Sample.moving Sample.lateDeletion)).2.store "/a" ⟨#[97]⟩) := by
  have hf : (Sample.moving Sample.lateDeletion).service.FailsOnly := by
    intro q hq x hx
    rw [List.mem_singleton.mp hq] at hx ⊢
    rw [Option.some.inj (List.mem_singleton.mp hx)]
    exact .error _ _ _
  have hne : Sample.volume.key "/a" ≠ Sample.volume.key "b" := by decide +kernel
  have ho : (Sample.moving Sample.lateDeletion).store.objects.find? (Sample.volume.key "/a") =
      some ⟨⟨#[97]⟩, 0⟩ := by cbv
  have hrun := (Prod.eta
    ((Sample.volume.move "/a" "b").execute (Sample.moving Sample.lateDeletion))).symm
  obtain ⟨-, -, hholds, -⟩ := move_keeps_content hf hrun
  exact ⟨hf, hne, by cbv, (hholds hne _ ho).1⟩

/-- Two paths for one key: the move returns, nothing is disturbed, and the content is gone. -/
theorem move_onto_itself_loses_content :
    (Sample.moving []).service.IsCalm ∧
      Sample.volume.Holds (Sample.moving []).store "/a" ⟨#[97]⟩ ∧
      ((Sample.volume.move "/a" "//a").execute (Sample.moving [])).1 = .ok () ∧
      ¬ (Sample.volume.Holds ((Sample.volume.move "/a" "//a").execute (Sample.moving [])).2.store
          "//a" ⟨#[97]⟩ ∨
        Sample.volume.Holds ((Sample.volume.move "/a" "//a").execute (Sample.moving [])).2.store
          "/a" ⟨#[97]⟩) := by
  have hcalm : (Sample.moving []).service.IsCalm := Disturbed.calm_isCalm _
  have ho : (Sample.moving []).store.objects.find? (Sample.volume.key "/a") =
      some ⟨⟨#[97]⟩, 0⟩ := by cbv
  have hgone : ∀ path, Sample.volume.key path = "root/a" →
      ¬ Sample.volume.Holds ((Sample.volume.move "/a" "//a").execute (Sample.moving [])).2.store
        path ⟨#[97]⟩ := by
    intro path hkey
    apply not_holds_of_find?
    rw [hkey]
    cbv
  refine ⟨hcalm, holds_of_find? ho, by cbv, ?_⟩
  rintro (h | h)
  · exact hgone "//a" (by decide +kernel) h
  · exact hgone "/a" (by decide +kernel) h

end Volume

end ResumableStorage
