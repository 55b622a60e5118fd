/-
  ResumableStorage/Proofs/Volume/Desk.lean
  ========================================
  **A desk** — a volume at work: the store, the pool, and all writers that were opened,
  each known by its key and by how many were opened there before it.  Everything that can
  be asked of a volume, or of one of the writers, is a command; a desk answers one command
  after the other.

  Two desks are twins in a region when their stores are alike there and their writers at
  keys of the region are twins.  Commands about the region are answered by both in the
  same way, and leave them twins.
-/
import ResumableStorage.Proofs.Upload.Twins
import ResumableStorage.Volume.Stale

namespace ResumableStorage

variable {σ : Type}

/-! ## 1. Desks -/

structure Desk (σ : Type) where
  context : Context σ
  /-- The writers that were opened at a key, in the order of opening. -/
  writers : String → List Writer

/-- A desk at which no writer was opened yet. -/
def Context.desk (c : Context σ) : Desk σ := ⟨c, fun _ => []⟩

/-- What is done about the writers of one path: one more is opened, or one that was opened is
called, also when it is finished. -/
inductive WriterStep where
  | start (append : Bool)
  | call (index : Nat) (operation : Operation)

inductive Command where
  | content (path : String)
  | putContent (path : String) (content : Bytes)
  | reader (path : String) (offset : Int)
  | writer (path : String) (step : WriterStep)
  | stat (path : String)
  | list (path : String)
  | move (source dest : String)
  | delete (path : String)
  | abortUploads (now : Instant) (path : String) (age : Option Age) (dryRun : Bool)

inductive Answer where
  | done
  /-- A writer was opened; it can be asked for its session and its parts. -/
  | opened (session : Session) (parts : List Part)
  /-- There is no such writer. -/
  | absent
  | taken (count : Nat)
  | content (content : Bytes)
  | stream (stream : Stream)
  | info (info : PathInfo)
  | names (paths : List String)
  | uploads (uploads : List InFlight)

section

variable [Service σ]

/-- The operation, with what it tells. -/
def Operation.answer : Operation → Writing σ Answer
  | .write data => do return .taken (← Writer.write data)
  | .close => do
    Writer.close
    return .done
  | .commit => do
    Writer.commit
    return .done
  | .cancel => do
    Writer.cancel
    return .done

namespace Desk

def run (desk : Desk σ) (x : Run σ Answer) : Except Error Answer × Desk σ :=
  ((x.execute desk.context).1, { desk with context := (x.execute desk.context).2 })

/-- The desk with other writers at a key. -/
def withWriters (desk : Desk σ) (key : String) (ws : List Writer) : Desk σ :=
  { desk with writers := Function.update desk.writers key ws }

end Desk

namespace Volume

/-- A step about the writers of a path. -/
def step (v : Volume) (desk : Desk σ) (path : String) : WriterStep → Except Error Answer × Desk σ
  | .start append =>
    let c := ((v.writer path append).execute desk.context).2
    match ((v.writer path append).execute desk.context).1 with
    | .ok w => (.ok (.opened w.session w.parts), { desk with context := c }.withWriters (v.key path)
        (desk.writers (v.key path) ++ [w]))
    | .error e => (.error e, { desk with context := c })
  | .call index operation =>
    match (desk.writers (v.key path))[index]? with
    | none => (.ok .absent, desk)
    | some w =>
      let (result, w', c) := operation.answer.execute w desk.context
      (result, { desk with context := c }.withWriters (v.key path)
        ((desk.writers (v.key path)).set index w'))

def perform (v : Volume) (desk : Desk σ) : Command → Except Error Answer × Desk σ
  | .content path => desk.run do return .content (← v.content path)
  | .putContent path content => desk.run do
    v.putContent path content
    return .done
  | .reader path offset => desk.run do return .stream (← v.reader path offset)
  | .writer path step => v.step desk path step
  | .stat path => desk.run do return .info (← v.stat path)
  | .list path => desk.run do return .names (← v.list path)
  | .move source dest => desk.run do
    v.move source dest
    return .done
  | .delete path => desk.run do
    v.delete path
    return .done
  | .abortUploads now path age dryRun =>
    desk.run do return .uploads (← v.abortUploads now path age dryRun)

/-- The answers to one command after the other, and the desk then. -/
def performAll (v : Volume) (desk : Desk σ) :
    List Command → List (Except Error Answer) × Desk σ
  | [] => ([], desk)
  | command :: rest =>
    let (answer, desk) := v.perform desk command
    let (answers, desk) := v.performAll desk rest
    (answer :: answers, desk)

end Volume

end

/-! ## 2. Twins -/

theorem getElem?_of_forall₂ {α β : Type} {R : α → β → Prop} {l : List α} {m : List β}
    (h : List.Forall₂ R l m) {i : Nat} {a : α} (ha : l[i]? = some a) :
    ∃ b, m[i]? = some b ∧ R a b := by
  induction h generalizing i with
  | nil => cases ha
  | @cons a' b' l m hab h ih =>
    cases i with
    | zero =>
      cases ha
      exact ⟨b', rfl, hab⟩
    | succ i => exact ih ha

theorem forall₂_set {α β : Type} {R : α → β → Prop} {l : List α} {m : List β}
    (h : List.Forall₂ R l m) {a : α} {b : β} (hab : R a b) (i : Nat) :
    List.Forall₂ R (l.set i a) (m.set i b) := by
  induction h generalizing i with
  | nil => exact .nil
  | cons hab' h ih =>
    cases i with
    | zero => exact .cons hab h
    | succ i => exact .cons hab' (ih i)

variable {region : Region} {sharp : Prop} {pairs : List (String × String)}

namespace Answer

/-- The answers are the same, but for the identifiers of uploads that stand for each other. -/
def Tied (region : Region) : Related Answer Answer := fun pairs a b =>
  a = b ∨ ∃ s s' parts, a = .opened s parts ∧ b = .opened s' parts ∧ s.Tied region pairs s'

/-- The answer without the identifier of the upload. -/
def anonymous : Answer → Answer
  | opened session parts => opened { session with uploadId := "" } parts
  | answer => answer

theorem Tied.anonymous_eq {a b : Answer} (h : Tied region pairs a b) :
    a.anonymous = b.anonymous := by
  rcases h with rfl | ⟨s, s', parts, rfl, rfl, htied⟩
  · rfl
  · rw [anonymous, anonymous, htied.bucket, htied.key]

/-- Where identifiers do not differ the answers are the same. -/
theorem Tied.eq_of_sharp {c d : Context (Disturbed Store)} (hcd : c.Alike region sharp d)
    (hsharp : sharp) {a b : Answer} (h : Tied region (c.pairs region d) a b) : a = b := by
  rcases h with rfl | ⟨s, s', parts, rfl, rfl, htied⟩
  · rfl
  · have hid := hcd.stores.id_eq_of_sharp hsharp htied.pair
    rw [show s = s' from by
      rcases s with ⟨id, bucket, key⟩
      rcases s' with ⟨id', bucket', key'⟩
      rw [Session.mk.injEq]
      exact ⟨hid, htied.bucket, htied.key⟩]

theorem ends_tied {result result' : Except Error Answer}
    (h : Ends (fun a b => a = b) result result') : Ends (Tied region pairs) result result' := by
  cases h with
  | returned hab => exact .returned (.inl hab)
  | failed e => exact .failed e

end Answer

namespace Desk

/-- The stores are alike in the region, and the writers at its keys are twins. -/
structure Twin (region : Region) (sharp : Prop) (desk desk' : Desk (Disturbed Store)) : Prop where
  contexts : desk.context.Alike region sharp desk'.context
  writers : ∀ key, region key = true → List.Forall₂
    (Writer.Twin region (desk.context.pairs region desk'.context)) (desk.writers key)
      (desk'.writers key)

/-- The same was answered, both desks have gone on, and they are twins still. -/
structure Goes (region : Region) (sharp : Prop) (desk desk' : Desk (Disturbed Store))
    (p p' : Except Error Answer × Desk (Disturbed Store)) : Prop where
  answers : Ends (Answer.Tied region (p.2.context.pairs region p'.2.context)) p.1 p'.1
  together : Context.Together region sharp desk.context desk'.context p.2.context p'.2.context
  twin : p.2.Twin region sharp p'.2

variable {desk desk' : Desk (Disturbed Store)}

theorem Twin.writers_of_together (h : desk.Twin region sharp desk')
    {c d : Context (Disturbed Store)}
    (htogether : Context.Together region sharp desk.context desk'.context c d) (key : String)
    (hkey : region key = true) :
    List.Forall₂ (Writer.Twin region (c.pairs region d)) (desk.writers key) (desk'.writers key) :=
  (h.writers key hkey).imp fun _ _ hwv => hwv.of_subset htogether.pairs_subset

theorem Twin.run (h : desk.Twin region sharp desk') {x y : Run (Disturbed Store) Answer}
    (hxy : Run.Agree region sharp (desk.context.pairs region desk'.context) .equal x y) :
    Goes region sharp desk desk' (desk.run x) (desk'.run y) := by
  obtain ⟨htogether, hends⟩ := hxy _ _ h.contexts fun _ hpair => hpair
  exact ⟨Answer.ends_tied hends, htogether, htogether.alike h.contexts,
    h.writers_of_together htogether⟩

/-- The writers of one key have changed. -/
theorem Twin.withWriters (h : desk.Twin region sharp desk') {c d : Context (Disturbed Store)}
    (htogether : Context.Together region sharp desk.context desk'.context c d) (key : String)
    {ws vs : List Writer} (hws : List.Forall₂ (Writer.Twin region (c.pairs region d)) ws vs) :
    Twin region sharp ({ desk with context := c }.withWriters key ws)
      ({ desk' with context := d }.withWriters key vs) := by
  refine ⟨htogether.alike h.contexts, ?_⟩
  intro other hother
  by_cases hkey : other = key
  · subst hkey
    simp only [Desk.withWriters, Function.update_self]
    exact hws
  · simp only [Desk.withWriters, Function.update_of_ne hkey]
    exact h.writers_of_together htogether other hother

end Desk

theorem Context.Alike.desk_twin {c d : Context (Disturbed Store)} (h : c.Alike region sharp d) :
    c.desk.Twin region sharp d.desk :=
  ⟨h, fun _ _ => .nil⟩

/-! ## 3. Steps of writers -/

theorem Operation.answer_agree (operation : Operation) :
    Writing.Agree region sharp pairs .equal (operation.answer : Writing (Disturbed Store) Answer)
      operation.answer := by
  cases operation with
  | write data =>
    apply (Writer.write_agree data).bind_equal
    intro count
    exact Writing.agree_pure fun _ _ => rfl
  | close =>
    apply Writer.close_agree.bind_equal
    intro _
    exact Writing.agree_pure fun _ _ => rfl
  | commit =>
    apply Writer.commit_agree.bind_equal
    intro _
    exact Writing.agree_pure fun _ _ => rfl
  | cancel =>
    apply Writer.cancel_agree.bind_equal
    intro _
    exact Writing.agree_pure fun _ _ => rfl

namespace Volume

variable {v : Volume} {path : String} {desk desk' : Desk (Disturbed Store)}
  {c d : Context (Disturbed Store)}

theorem ofSession_twin {s s' : Session} (h : s.Tied region pairs s') (policy : Policy)
    (parts : List Part) :
    (Writer.ofSession policy s parts).Twin region pairs (Writer.ofSession policy s' parts) :=
  ⟨rfl, h, rfl, rfl, rfl, rfl, rfl⟩

/-- Writers that are opened at one path are twins, when the upload to be resumed is the only one or
identifiers do not differ. -/
theorem writer_agree (hcd : c.Alike region sharp d) (hkey : region (v.key path) = true)
    {append : Bool}
    (hone : append = true → sharp ∨ (c.store.openAt (v.key path)).length ≤ 1)
    (hfresh : append = false → v.key path ≠ "") :
    Run.AgreeAt region sharp (fun pairs w w' => w.Twin region pairs w') (v.writer path append)
      (v.writer path append) c d := by
  apply Run.AgreeAt.bind hcd (v.bucket.session_agree hcd hkey hone hfresh).attempt
  intro pairs result result' hsub hends
  cases hends with
  | failed e => cases e <;> exact Run.agree_throw _
  | @returned p q hcontinued =>
    obtain ⟨s, parts⟩ := p
    obtain ⟨s', parts'⟩ := q
    obtain ⟨htied, -, hparts⟩ := hcontinued
    obtain rfl : parts = parts' := hparts
    intro c d hcd hpairs
    simp only [Run.AgreeAt, Run.execute_bind, Run.execute_get, Writer.make?, hcd.capacity]
    by_cases hcapacity : d.pool.capacity = v.policy.chunk
    · simp only [hcapacity, if_true]
      exact ⟨hcd.together, .returned (ofSession_twin (htied.of_subset hpairs) v.policy parts)⟩
    · simp only [hcapacity, if_false]
      exact ⟨hcd.together, .failed _⟩

/-- A step about the writers of a key of the region. -/
theorem step_goes (h : desk.Twin region sharp desk') (hkey : region (v.key path) = true)
    (step : WriterStep)
    (hone : step = .start true → sharp ∨ (desk.context.store.openAt (v.key path)).length ≤ 1)
    (hfresh : step = .start false → v.key path ≠ "") :
    Desk.Goes region sharp desk desk' (v.step desk path step) (v.step desk' path step) := by
  cases step with
  | start append =>
    have hone' : append = true →
        sharp ∨ (desk.context.store.openAt (v.key path)).length ≤ 1 := by
      rintro rfl
      exact hone rfl
    have hfresh' : append = false → v.key path ≠ "" := by
      rintro rfl
      exact hfresh rfl
    obtain ⟨htogether, hends⟩ := v.writer_agree h.contexts hkey hone' hfresh'
    have hws := h.writers_of_together htogether (v.key path) hkey
    have htwin : Desk.Twin region sharp
        { desk with context := ((v.writer path append).execute desk.context).2 }
        { desk' with context := ((v.writer path append).execute desk'.context).2 } :=
      ⟨htogether.alike h.contexts, h.writers_of_together htogether⟩
    simp only [step]
    generalize ((v.writer path append).execute desk.context).1 = result at hends ⊢
    generalize ((v.writer path append).execute desk'.context).1 = result' at hends ⊢
    cases hends with
    | failed e => exact ⟨.failed e, htogether, htwin⟩
    | @returned w w' hwv =>
      have hmore := List.rel_append hws (.cons hwv .nil)
      refine ⟨.returned (.inr ⟨w.session, w'.session, w.parts, rfl, ?_, hwv.session⟩), htogether,
        h.withWriters htogether (v.key path) hmore⟩
      rw [hwv.parts]
  | call index operation =>
    have hws := h.writers (v.key path) hkey
    simp only [step]
    rcases hw : (desk.writers (v.key path))[index]? with _ | w
    · have hlength := hws.length_eq
      have hw' : (desk'.writers (v.key path))[index]? = none := by
        rw [List.getElem?_eq_none_iff] at hw ⊢
        omega
      rw [hw']
      exact ⟨.returned (.inl rfl), h.contexts.together, h⟩
    · obtain ⟨w', hw', hwv⟩ := getElem?_of_forall₂ hws hw
      obtain ⟨htogether, htwin, hends⟩ := operation.answer_agree w w' desk.context desk'.context
        h.contexts (fun _ hpair => hpair) hwv
      have hws' := h.writers_of_together htogether (v.key path) hkey
      rw [hw']
      exact ⟨Answer.ends_tied hends, htogether,
        h.withWriters htogether (v.key path) (forall₂_set hws' htwin index)⟩

end Volume

end ResumableStorage
