import EditorService.Proofs.Steps

/-!
# Jobs, run one part after the other

A job reads and writes the bench, so in general its answer depends on the bench. Often it does not: `Answers good j r`
says that `j` answers `r` from every bench that is `good`, and leaves the bench good. A job made of such parts answers
what the parts' answers make up, without a bench.

A job that does depend on the bench mostly reads what no job changes. `Keeps view j` says that `j` leaves a view of the
bench as it is, whether it ends in a fault or not.
-/

namespace EditorService.Job

variable {α β : Type}

theorem perform_bind (first : Job α) (second : α → Job β) (b : Bench) :
    (first >>= second).perform b =
      match first.perform b with
      | (.ok a, b') => (second a).perform b'
      | (.error f, b') => (.error f, b') := by
  simp only [perform, run_bind]
  rcases Id.run (StateT.run (ExceptT.run first) b) with ⟨r, b'⟩
  cases r <;> rfl

theorem perform_ofExcept (r : Except Fault α) (b : Bench) : (ofExcept r).perform b = (r, b) := by
  cases r with
  | ok a => rfl
  | error f => rfl

/-- What a job of two parts answers. -/
theorem outcome_bind (first : Job α) (second : α → Job β) (b : Bench) :
    ((first >>= second).perform b).1 =
      (first.perform b).1 >>= fun a => ((second a).perform (first.perform b).2).1 := by
  rw [perform_bind]
  rcases first.perform b with ⟨r, m⟩
  cases r <;> rfl

/-- Reading a document looks at the files and at nothing else. -/
theorem perform_reading (read : FileTree → Except Fault α) (b : Bench) :
    perform (do ofExcept (read (← files))) b = (read b.host.files, b) :=
  perform_ofExcept _ b

theorem perform_text (v : DocumentView) (b : Bench) : v.text.perform b = (v.document.text b.host.files, b) :=
  perform_reading v.document.text b

theorem perform_lines (v : DocumentView) (b : Bench) : v.lines.perform b = (v.document.lines b.host.files, b) :=
  perform_reading v.document.lines b

theorem perform_note (fn : String) (args : List (String × Value)) (b : Bench) :
    (note fn args).perform b = (.ok (), { b with calls := b.calls ++ [.dict (("fn", .str fn) :: args)] }) := rfl

theorem perform_host (b : Bench) : Job.host.perform b = (.ok b.host, b) := rfl

theorem perform_answers (b : Bench) : answers.perform b = (.ok b.host.answers, b) := rfl

/-- A job of two parts that succeeds: both parts do. -/
theorem perform_bind_eq_ok {first : Job α} {second : α → Job β} {b b' : Bench} {r : β} :
    (first >>= second).perform b = (.ok r, b') ↔
      ∃ a m, first.perform b = (.ok a, m) ∧ (second a).perform m = (.ok r, b') := by
  rw [perform_bind]
  rcases first.perform b with ⟨x, m⟩
  cases x with
  | ok a =>
    constructor
    · intro h
      exact ⟨a, m, rfl, h⟩
    · rintro ⟨_, _, hfirst, hsecond⟩
      cases hfirst
      exact hsecond
  | error f =>
    constructor
    · intro h
      cases h
    · rintro ⟨_, _, hfirst, _⟩
      cases hfirst

theorem perform_tryCatch (j : Job α) (handler : Fault → Job α) (b : Bench) :
    (tryCatch j handler).perform b =
      match j.perform b with
      | (.ok a, m) => (.ok a, m)
      | (.error f, m) => (handler f).perform m := by
  rcases h : j.perform b with ⟨x, m⟩
  have hrun : (j : Bench → Except Fault α × Bench) b = (x, m) := h
  cases x with
  | ok a =>
    simp only [perform, tryCatch, tryCatchThe, MonadExceptOf.tryCatch, ExceptT.tryCatch, ExceptT.run, ExceptT.mk, bind,
      StateT.bind, StateT.run, hrun]
    rfl
  | error f =>
    simp only [perform, tryCatch, tryCatchThe, MonadExceptOf.tryCatch, ExceptT.tryCatch, ExceptT.run, ExceptT.mk, bind,
      StateT.bind, StateT.run, hrun]

/-- **A job answers `r`** from every bench that is good, and leaves the bench good. -/
def Answers (good : Bench → Prop) (j : Job α) (r : Except Fault α) : Prop :=
  ∀ b, good b → (j.perform b).1 = r ∧ good (j.perform b).2

namespace Answers

variable {good : Bench → Prop}

protected theorem pure (a : α) : Answers good (pure a : Job α) (.ok a) := fun _ hb => ⟨rfl, hb⟩

protected theorem ofExcept (r : Except Fault α) : Answers good (ofExcept r) r := by
  intro b hb
  rw [perform_ofExcept]
  exact ⟨rfl, hb⟩

protected theorem bind {j : Job α} {k : α → Job β} {r : Except Fault α} {q : α → Except Fault β}
    (h : Answers good j r) (hk : ∀ a, r = .ok a → Answers good (k a) (q a)) : Answers good (j >>= k) (r >>= q) := by
  intro b hb
  obtain ⟨hanswer, hgood⟩ := h b hb
  rw [perform_bind]
  rcases hrun : j.perform b with ⟨x, b'⟩
  rw [hrun] at hanswer hgood
  cases x with
  | ok a =>
    subst hanswer
    exact hk a rfl b' hgood
  | error f =>
    subst hanswer
    exact ⟨rfl, hgood⟩

protected theorem mapM {step : α → Job β} {r : α → Except Fault β} (h : ∀ x, Answers good (step x) (r x))
    (xs : List α) : Answers good (xs.mapM step) (xs.mapM r) := by
  induction xs with
  | nil => exact Answers.pure []
  | cons x rest ih =>
    simp only [List.mapM_cons]
    exact (h x).bind fun y _ => ih.bind fun ys _ => Answers.pure (y :: ys)

protected theorem foldlM {step : β → α → Job β} {r : β → α → Except Fault β}
    (h : ∀ y x, Answers good (step y x) (r y x)) (xs : List α) (y : β) :
    Answers good (xs.foldlM step y) (xs.foldlM r y) := by
  induction xs generalizing y with
  | nil => exact Answers.pure y
  | cons x rest ih =>
    simp only [List.foldlM_cons]
    exact (h y x).bind fun z _ => ih z

end Answers

/-- **A job keeps a view of the bench**, whether it ends in a fault or not. -/
def Keeps {γ : Type} (view : Bench → γ) (j : Job α) : Prop := ∀ b, view (j.perform b).2 = view b

namespace Keeps

variable {γ : Type} {view : Bench → γ}

protected theorem pure (a : α) : Keeps view (pure a : Job α) := fun _ => rfl

protected theorem throw (f : Fault) : Keeps view (throw f : Job α) := fun _ => rfl

protected theorem ofExcept (r : Except Fault α) : Keeps view (ofExcept r) := by
  intro b
  rw [perform_ofExcept]

protected theorem bind {j : Job α} {k : α → Job β} (h : Keeps view j) (hk : ∀ a, Keeps view (k a)) :
    Keeps view (j >>= k) := by
  intro b
  have hj := h b
  rw [perform_bind]
  rcases hrun : j.perform b with ⟨x, m⟩
  rw [hrun] at hj
  cases x with
  | ok a => exact (hk a m).trans hj
  | error f => exact hj

protected theorem tryCatch {j : Job α} {handler : Fault → Job α} (h : Keeps view j)
    (hhandler : ∀ f, Keeps view (handler f)) : Keeps view (tryCatch j handler) := by
  intro b
  have hj := h b
  rw [perform_tryCatch]
  rcases hrun : j.perform b with ⟨x, m⟩
  rw [hrun] at hj
  cases x with
  | ok a => exact hj
  | error f => exact (hhandler f m).trans hj

protected theorem mapM {step : α → Job β} (h : ∀ x, Keeps view (step x)) (xs : List α) :
    Keeps view (xs.mapM step) := by
  induction xs with
  | nil => exact Keeps.pure []
  | cons x rest ih =>
    simp only [List.mapM_cons]
    exact (h x).bind fun y => ih.bind fun ys => Keeps.pure (y :: ys)

end Keeps

/-- A job that answers and keeps a view answers also where the view is known. -/
theorem Answers.keeping {γ : Type} {good : Bench → Prop} {view : Bench → γ} {j : Job α} {r : Except Fault α}
    (h : Answers good j r) (hkeeps : Keeps view j) (x : γ) : Answers (fun b => good b ∧ view b = x) j r := by
  rintro b ⟨hb, rfl⟩
  exact ⟨(h b hb).1, (h b hb).2, hkeeps b⟩

end EditorService.Job
