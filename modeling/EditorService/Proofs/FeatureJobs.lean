import EditorService.Proofs.SettingsMemory
import Mathlib.Data.List.Forall2

/-!
# Jobs of the features

A feature asks for settings, opens the document in the engine and puts a question to it. All this is written down and
remembered, and leaves the surroundings as they are (`keeps_openInEngine`). So what a feature answers with is read off
the surroundings that it was started in.
-/

namespace EditorService.Feature

/-! ## What jobs leave alone -/

/-- What is around a job, and which checks are registered. -/
def fixtures (b : Bench) : Host × Tool.Checks := (b.host, b.checks)

theorem keeps_reading {α γ : Type} {view : Bench → γ} (read : FileTree → Except Fault α) :
    Job.Keeps view (do Job.ofExcept (read (← Job.files))) := by
  intro b
  rw [Job.perform_reading]

theorem keeps_note (fn : String) (args : List (String × Value)) : Job.Keeps fixtures (Job.note fn args) := fun _ => rfl

theorem keeps_settings (c : Config) (query : Settings.Query) : Job.Keeps fixtures (Job.settings c query) := by
  intro b
  rw [Config.perform_settings]
  rfl

theorem keeps_pluginSettings (c : Config) (plugin : String) (path : Option String) :
    Job.Keeps fixtures (Job.pluginSettings c plugin path) :=
  (keeps_settings c _).bind fun _ => (Job.Keeps.ofExcept _).bind fun _ => Job.Keeps.ofExcept _

theorem keeps_environmentAt (v : DocumentView) (path vars : Value) : Job.Keeps fixtures (v.environmentAt path vars) := by
  have hmade : ∀ key environment, Job.Keeps fixtures
      (modify (fun b : Bench => { b with environments := Table.put b.environments key environment }) : Job PUnit) :=
    fun _ _ _ => rfl
  unfold DocumentView.environmentAt
  split
  · exact Job.Keeps.throw _
  · exact Job.Keeps.throw _
  · refine Job.Keeps.bind (j := get) (fun _ => rfl) fun b => ?_
    split
    · exact Job.Keeps.pure _
    · exact (keeps_note _ _).bind fun _ => Job.Keeps.bind (fun _ => rfl) fun _ => (Job.Keeps.ofExcept _).bind fun _ =>
        (hmade _ _).bind fun _ => Job.Keeps.pure _

theorem keeps_openInEngine (v : DocumentView) (position : Value) (beside : Bool) :
    Job.Keeps fixtures (v.openInEngine position beside) := by
  have hsettings : Job.Keeps fixtures v.engineSettings := by
    unfold DocumentView.engineSettings
    split
    · exact Job.Keeps.pure _
    · exact (keeps_pluginSettings _ _ _).bind fun _ => (Job.Keeps.ofExcept _).bind fun _ =>
        (Job.Keeps.ofExcept _).bind fun _ => (Job.Keeps.ofExcept _).bind fun _ => Job.Keeps.pure _
  have hsearched : ∀ path vars, Job.Keeps fixtures (v.searchPath path vars) := by
    intro path vars
    unfold DocumentView.searchPath
    split
    · exact (keeps_environmentAt v path vars).bind fun _ => fun _ => rfl
    · exact fun _ => rfl
  unfold DocumentView.openInEngine
  refine hsettings.bind fun s => ?_
  -- Each stage is followed by all later ones, so the last one comes first here.
  extract_lets own withVars
  have hvars : ∀ vars, Job.Keeps fixtures (withVars vars) := by
    intro vars
    refine (Job.Keeps.ofExcept _).bind fun vars => ?_
    extract_lets withEnvironment
    have henvironment : ∀ environment, Job.Keeps fixtures (withEnvironment environment) := by
      intro environment
      refine (hsearched _ _).bind fun searched => ?_
      extract_lets withDirectories
      have hdirectories : ∀ further, Job.Keeps fixtures (withDirectories further) := by
        intro further
        refine (keeps_reading v.document.text).bind fun code => ?_
        split
        · exact (keeps_reading (v.document.enginePosition · position)).bind fun _ =>
            (Job.Keeps.throw _).bind fun _ _ => rfl
        · exact fun _ => rfl
      split
      · exact hdirectories _
      · exact (Job.Keeps.throw _).bind fun _ => hdirectories _
    split
    · exact (keeps_environmentAt v _ _).bind fun _ => henvironment _
    · exact henvironment _
  split
  · exact Job.Keeps.bind (j := Job.host) (fun _ => rfl) fun _ => (Job.Keeps.pure _).bind hvars
  · exact hvars _

/-! ## Jobs that succeed -/

theorem host_of_keeps {α : Type} {j : Job α} (hj : Job.Keeps fixtures j) {r : Except Fault α} {b b' : Bench}
    (h : j.perform b = (r, b')) : b'.host = b.host := by
  have hkept := hj b
  rw [h] at hkept
  exact (Prod.mk.inj hkept).1

/-- A job that looks at its surroundings first. -/
theorem host_bind_eq_ok {α : Type} {k : Host → Job α} {b b' : Bench} {r : α}
    (h : (Job.host >>= k).perform b = (.ok r, b')) : (k b.host).perform b = (.ok r, b') := by
  rwa [Job.perform_bind] at h

/-- A job that looks at the answers of the tools first. -/
theorem answers_bind_eq_ok {α : Type} {k : Tool.Answers → Job α} {b b' : Bench} {r : α}
    (h : (Job.answers >>= k).perform b = (.ok r, b')) : (k b.host.answers).perform b = (.ok r, b') := by
  rwa [Job.perform_bind] at h

theorem ofExcept_eq_ok {α : Type} {r : Except Fault α} {b b' : Bench} {a : α}
    (h : (Job.ofExcept r).perform b = (.ok a, b')) : r = .ok a ∧ b' = b := by
  rw [Job.perform_ofExcept] at h
  obtain ⟨hr, hb⟩ := Prod.mk.inj h
  exact ⟨hr, hb.symm⟩

theorem mapM_eq_ok {α β : Type} {step : α → Except Fault β} {xs : List α} {ys : List β} :
    xs.mapM step = .ok ys ↔ List.Forall₂ (fun x y => step x = .ok y) xs ys := by
  induction xs generalizing ys with
  | nil =>
    rw [List.forall₂_nil_left_iff]
    exact ⟨fun h => (Except.ok.inj h).symm, fun h => congrArg Except.ok h.symm⟩
  | cons x rest ih =>
    simp only [List.mapM_cons, Fault.bind_eq_ok, ih]
    constructor
    · rintro ⟨y, hy, zs, hzs, h⟩
      cases h
      exact .cons hy hzs
    · rintro (_ | ⟨hy, hzs⟩)
      exact ⟨_, hy, _, hzs, rfl⟩

/-- All results can be worked out exactly if each of them can. -/
theorem exists_mapM_iff {α β : Type} {step : α → Except Fault β} {xs : List α} :
    (∃ ys, xs.mapM step = .ok ys) ↔ ∀ x ∈ xs, ∃ y, step x = .ok y := by
  induction xs with
  | nil => exact ⟨fun _ x hx => absurd hx (List.not_mem_nil), fun _ => ⟨[], rfl⟩⟩
  | cons x rest ih =>
    rw [List.forall_mem_cons, ← ih]
    simp only [List.mapM_cons, Fault.bind_eq_ok]
    constructor
    · rintro ⟨_, y, hy, ys, hys, -⟩
      exact ⟨⟨y, hy⟩, ys, hys⟩
    · rintro ⟨⟨y, hy⟩, ys, hys⟩
      exact ⟨y :: ys, y, hy, ys, hys, rfl⟩

/-- Results that are worked out one by one. -/
theorem mapM_ofExcept_eq_ok {α β : Type} {step : α → Except Fault β} {xs : List α} {ys : List β} {b b' : Bench}
    (h : (xs.mapM fun x => Job.ofExcept (step x)).perform b = (.ok ys, b')) :
    List.Forall₂ (fun x y => step x = .ok y) xs ys := by
  have hanswers : Job.Answers (fun _ => True) (xs.mapM fun x => Job.ofExcept (step x)) (xs.mapM step) :=
    Job.Answers.mapM (fun x => Job.Answers.ofExcept (step x)) xs
  have hanswer := (hanswers b trivial).1
  rw [h] at hanswer
  exact mapM_eq_ok.mp hanswer.symm

/-- A question that the engine answers. -/
theorem ask_eq_ok {α : Type} {question : String} {args : List (String × Value)} {answer : Tool.Engine → Except Fault α}
    {b b' : Bench} {a : α} (h : (DocumentView.ask question args answer).perform b = (.ok a, b')) :
    answer b.host.answers.engine = .ok a ∧ b'.host = b.host := by
  obtain ⟨_, m, hnote, h⟩ := Job.perform_bind_eq_ok.mp h
  have hhost : m.host = b.host := host_of_keeps (keeps_note _ _) hnote
  obtain ⟨hanswer, rfl⟩ := ofExcept_eq_ok (answers_bind_eq_ok h)
  rw [hhost] at hanswer
  exact ⟨hanswer, hhost⟩

end EditorService.Feature
