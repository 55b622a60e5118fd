/-
  ResumableStorage/Proofs/Execution.lean
  ======================================
  **What runs come to** — the result of a composed run, and of a composed run of a
  writer, read off the results of its steps.  Every later statement about an operation
  starts here: it is executed step by step, and each step is replaced by what is known
  of it.
-/
import Mathlib
import ResumableStorage.Upload.Writer.Finish

namespace ResumableStorage

variable {σ α β : Type}

/-! ## 1. Runs -/

namespace Run

@[simp] theorem execute_pure (a : α) (c : Context σ) :
    (pure a : Run σ α).execute c = (.ok a, c) := rfl

@[simp] theorem execute_throw (e : Error) (c : Context σ) :
    (throw e : Run σ α).execute c = (.error e, c) := rfl

@[simp] theorem execute_get (c : Context σ) :
    (get : Run σ (Context σ)).execute c = (.ok c, c) := rfl

@[simp] theorem execute_set (c' c : Context σ) :
    (set c' : Run σ Unit).execute c = (.ok (), c') := rfl

@[simp] theorem execute_record (e : Event) (c : Context σ) :
    (record e).execute c = (.ok (), { c with trace := c.trace ++ [e] }) := rfl

@[simp] theorem execute_report (n : Notice) (c : Context σ) :
    (report n).execute c = (.ok (), { c with notices := c.notices ++ [n] }) := rfl

@[simp] theorem execute_count (f : Meters → Meters) (c : Context σ) :
    (count f).execute c = (.ok (), { c with meters := f c.meters }) := rfl

theorem execute_bind (x : Run σ α) (f : α → Run σ β) (c : Context σ) :
    (x >>= f).execute c =
      match x.execute c with
      | (.ok a, c') => (f a).execute c'
      | (.error e, c') => (.error e, c') := by
  simp only [execute, ExceptT.run_bind, StateT.run_bind]
  simp only [bind]
  rcases (ExceptT.run x).run c with ⟨_ | _, _⟩ <;> rfl

/-- A composed run that returns is one whose steps have returned. -/
theorem execute_bind_eq_ok {x : Run σ α} {f : α → Run σ β} {c c' : Context σ} {b : β} :
    (x >>= f).execute c = (.ok b, c') ↔
      ∃ a c₁, x.execute c = (.ok a, c₁) ∧ (f a).execute c₁ = (.ok b, c') := by
  rw [execute_bind]
  rcases x.execute c with ⟨_ | a, c₁⟩ <;> simp

@[simp] theorem execute_discard (x : Run σ α) (c : Context σ) :
    (discard x).execute c = ((x.execute c).1.map fun _ => (), (x.execute c).2) := by
  change (x >>= fun _ => pure ()).execute c = _
  rw [execute_bind]
  rcases x.execute c with ⟨_ | _, _⟩ <;> rfl

theorem execute_tryCatch (x : Run σ α) (f : Error → Run σ α) (c : Context σ) :
    (tryCatch x f).execute c =
      match x.execute c with
      | (.ok a, c') => (.ok a, c')
      | (.error e, c') => (f e).execute c' := by
  simp only [execute, tryCatch, tryCatchThe, MonadExceptOf.tryCatch, ExceptT.tryCatch]
  change ((ExceptT.run x) >>= _).run c = _
  simp only [StateT.run_bind]
  simp only [bind]
  rcases (ExceptT.run x).run c with ⟨_ | _, _⟩ <;> rfl

theorem execute_map (f : α → β) (x : Run σ α) (c : Context σ) :
    (f <$> x).execute c = ((x.execute c).1.map f, (x.execute c).2) := by
  change (x >>= fun a => pure (f a)).execute c = _
  rw [execute_bind]
  rcases x.execute c with ⟨_ | _, _⟩ <;> rfl

theorem execute_attempt (x : Run σ α) (c : Context σ) :
    (attempt x).execute c = (Except.ok (x.execute c).1, (x.execute c).2) := by
  simp only [attempt, execute_tryCatch, execute_map]
  rcases x.execute c with ⟨_ | _, _⟩ <;> rfl

theorem execute_decoded (x : Except Malformed α) (c : Context σ) :
    (decoded x : Run σ α).execute c = (x.mapError .malformed, c) := by
  cases x <;> rfl

theorem execute_send [Service σ] (action : Action) (r : Request) (c : Context σ) :
    (send action r).execute c =
      ((Service.answer r c.service).1.mapError fun f => .storage (.failed action f),
        { c with
          trace := c.trace ++ [.sent r]
          service := (Service.answer r c.service).2 }) := by
  simp only [send, execute_bind, execute_record, execute_get]
  rcases Service.answer r c.service with ⟨_ | _, s⟩ <;> rfl

end Run

/-! ## 2. Runs of a writer -/

namespace Writing

@[simp] theorem execute_pure (a : α) (w : Writer) (c : Context σ) :
    (pure a : Writing σ α).execute w c = (.ok a, w, c) := rfl

@[simp] theorem execute_throw (e : Error) (w : Writer) (c : Context σ) :
    (throw e : Writing σ α).execute w c = (.error e, w, c) := rfl

@[simp] theorem execute_get (w : Writer) (c : Context σ) :
    (get : Writing σ (Writer × Context σ)).execute w c = (.ok (w, c), w, c) := rfl

@[simp] theorem execute_modify (f : Writer × Context σ → Writer × Context σ) (w : Writer)
    (c : Context σ) : (modify f : Writing σ Unit).execute w c = (.ok (), f (w, c)) := rfl

@[simp] theorem execute_writer (w : Writer) (c : Context σ) :
    (writer : Writing σ Writer).execute w c = (.ok w, w, c) := rfl

@[simp] theorem execute_change (f : Writer → Writer) (w : Writer) (c : Context σ) :
    (change f : Writing σ Unit).execute w c = (.ok (), f w, c) := rfl

@[simp] theorem execute_onPool (f : Pool → Pool) (w : Writer) (c : Context σ) :
    (onPool f : Writing σ Unit).execute w c = (.ok (), w, { c with pool := f c.pool }) := rfl

@[simp] theorem execute_ofRun (x : Run σ α) (w : Writer) (c : Context σ) :
    (ofRun x).execute w c = ((x.execute c).1, w, (x.execute c).2) := rfl

theorem execute_bind (x : Writing σ α) (f : α → Writing σ β) (w : Writer) (c : Context σ) :
    (x >>= f).execute w c =
      match x.execute w c with
      | (.ok a, w', c') => (f a).execute w' c'
      | (.error e, w', c') => (.error e, w', c') := by
  simp only [execute, ExceptT.run_bind, StateT.run_bind]
  simp only [bind]
  rcases (ExceptT.run x).run (w, c) with ⟨_ | _, _, _⟩ <;> rfl

/-- A composed run that returns is one whose steps have returned. -/
theorem execute_bind_eq_ok {x : Writing σ α} {f : α → Writing σ β} {w w' : Writer}
    {c c' : Context σ} {b : β} : (x >>= f).execute w c = (.ok b, w', c') ↔
      ∃ a w₁ c₁, x.execute w c = (.ok a, w₁, c₁) ∧ (f a).execute w₁ c₁ = (.ok b, w', c') := by
  rw [execute_bind]
  rcases x.execute w c with ⟨_ | a, w₁, c₁⟩ <;> simp

@[simp] theorem execute_discard (x : Writing σ α) (w : Writer) (c : Context σ) :
    (discard x).execute w c = ((x.execute w c).1.map fun _ => (), (x.execute w c).2) := by
  change (x >>= fun _ => pure ()).execute w c = _
  rw [execute_bind]
  rcases x.execute w c with ⟨_ | _, _, _⟩ <;> rfl

/-- The error of a run becomes a value; the writer and the context are those that it left. -/
theorem execute_attempt (x : Writing σ α) (w : Writer) (c : Context σ) :
    (attempt x).execute w c = (Except.ok (x.execute w c).1, (x.execute w c).2) := by
  simp only [attempt, execute, tryCatch, tryCatchThe, MonadExceptOf.tryCatch, ExceptT.tryCatch]
  change (ExceptT.run (Except.ok <$> x) >>= _).run (w, c) = _
  simp only [StateT.run_bind, ExceptT.run_map, StateT.run_map]
  simp only [bind]
  rcases (ExceptT.run x).run (w, c) with ⟨_ | _, _, _⟩ <;> rfl

end Writing

@[simp] theorem Writer.execute_stage (policy : Policy) (data : Bytes) (slots : Slots) (offset : Nat)
    (w : Writer) (c : Context σ) : (stage policy data slots offset).execute w c =
      (.ok (), { w with
        slots := some (slots.fill policy.chunk data offset).1
        size := w.size + (slots.fill policy.chunk data offset).2 },
        { c with pool := c.pool.putBoth slots policy.chunk data offset }) := rfl

end ResumableStorage
