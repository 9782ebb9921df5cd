import EditorService.Proofs.FeatureJobs

/-!
# Environments that a workspace keeps

To open a document in the engine is first to find out what to open it with (`setUp`): the settings, the variables in
force, and the environment, if the settings name one. Then the document is opened with what was found (`openWith`).

An environment is kept under its path. The variables that it was made with are not part of the key, and new settings
leave the kept environments alone. The engine may also refuse to make an environment; then nothing is kept. So in a run of
new settings and openings (`EngineSession.after`), the environment at a path stays the one of the first opening that named
the path and got an environment made (`EngineSession.firstMaking?`).

**The law** (`environment_of_first_making`): an opening whose settings name a path is handed the environment that was made
with the variables in force at the first opening that got one made there, or, if there was none, one with its own. So the
variables are the ones in force exactly if they have not changed since.
-/

namespace EditorService.DocumentView

/-! ## Opening a document, in two parts -/

/-- **The variables in force**: the given ones, or those of the surroundings, without the search path. -/
def EngineSettings.variables (s : EngineSettings) (host : Host) : Except Fault Value :=
  withoutSearchVariable <|
    match s.vars with
    | .null => .dict (host.environment.map fun e => (e.1, .str e.2))
    | given => given

/-- **What a document is opened with.** -/
structure Setup where
  settings : EngineSettings
  vars : Value
  environment : Option Environment

/-- The environment of the settings, if they name one. -/
def namedEnvironment (v : DocumentView) (s : EngineSettings) (vars : Value) : Job (Option Environment) := do
  if s.environment.truthy then
    return some (← v.environmentAt s.environment vars)
  else
    return none

/-- Finds out what to open a document with. -/
def setUp (v : DocumentView) : Job Setup := do
  let settings ← v.engineSettings
  let vars ← Job.ofExcept (settings.variables (← Job.host))
  return { settings, vars, environment := ← v.namedEnvironment settings vars }

/-- How a request shows an environment. -/
def shownEnvironment : Option Environment → Value
  | some e => .str ("env:" ++ e.path)
  | none => .null

/-- Opens a document with what was found. -/
def openWith (v : DocumentView) (s : Setup) (position : Value) (beside : Bool) : Job Unit := do
  let searched ← v.searchPath s.settings.environment s.vars
  let further ← match s.settings.directories with
    | .list items => pure items
    | _ => throw .wrongType
  let own := if beside then [Value.str (Path.normalized (Path.directoryOf v.document.path))] else []
  let code ← v.text
  if position.truthy then
    let _ ← v.enginePosition position
    throw .wrongType
  Job.note "jedi.Script" [
    ("code", .str code),
    ("path", .str v.document.path),
    ("environment", shownEnvironment s.environment),
    ("project", .dict [("path", .str v.rootPath), ("sys_path", .list (searched ++ further ++ own))])]

/-- **Opening a document is setting up, and then opening it with what was found.** -/
theorem openInEngine_eq (v : DocumentView) (position : Value) (beside : Bool) :
    v.openInEngine position beside = v.setUp >>= fun s => v.openWith s position beside := by
  unfold openInEngine
  rw [setUp, bind_assoc]
  refine bind_congr fun s => ?_
  -- The rest of the job stands behind both ways to get the variables, so it is rewritten once, for any variables.
  extract_lets own withVars
  have hopen : ∀ given, withVars given = Job.ofExcept (withoutSearchVariable given) >>= fun vars =>
      v.namedEnvironment s vars >>= fun e => v.openWith ⟨s, vars, e⟩ position beside := by
    intro given
    refine bind_congr fun vars => ?_
    extract_lets withEnvironment
    unfold namedEnvironment
    cases s.environment.truthy with
    | true => simp only [if_true, bind_assoc, pure_bind]; rfl
    | false => rfl
  simp only [bind_assoc, pure_bind]
  cases hvars : s.vars with
  | null =>
    refine bind_congr fun host => (hopen _).trans ?_
    rw [EngineSettings.variables, hvars]
  | _ =>
    refine (hopen _).trans ?_
    simp only [EngineSettings.variables, hvars]
    rfl

end EditorService.DocumentView

namespace EditorService

/-! ## What is kept at a path -/

/-- The environment that a workspace keeps at a path. -/
def Bench.environment? (b : Bench) (home : WorkspaceId) (p : String) : Option Environment :=
  Table.get? b.environments (home, .str p)

namespace Job

/-- A job whose first part succeeds goes on from there. -/
theorem perform_bind_of_ok {α β : Type} {first : Job α} {second : α → Job β} {b m : Bench} {a : α}
    (h : first.perform b = (.ok a, m)) : (first >>= second).perform b = (second a).perform m := by
  rw [perform_bind, h]

/-- **A job preserves a property of the bench**, whether it ends in a fault or not. -/
def Preserves {α : Type} (good : Bench → Prop) (j : Job α) : Prop := ∀ b, good b → good (j.perform b).2

theorem Preserves.bind {α β : Type} {good : Bench → Prop} {j : Job α} {k : α → Job β} (h : Preserves good j)
    (hk : ∀ a, Preserves good (k a)) : Preserves good (j >>= k) := by
  intro b hb
  have hj := h b hb
  rw [perform_bind]
  rcases hrun : j.perform b with ⟨r, m⟩
  rw [hrun] at hj
  cases r with
  | ok a => exact hk a m hj
  | error f => exact hj

/-- What is kept at a path is seen in the environments alone. -/
theorem Keeps.environment {α : Type} {j : Job α} (h : Keeps Bench.environments j) (home : WorkspaceId) (p : String)
    (kept : Option Environment) : Preserves (fun b => b.environment? home p = kept) j := by
  intro b hb
  rw [Bench.environment?, h b]
  exact hb

/-- Asking for settings changes nothing but what is remembered of them. -/
theorem Keeps.settings {γ : Type} {view : Bench → γ} (hview : ∀ b cache, view { b with settings := cache } = view b)
    (c : Config) (query : Settings.Query) : Keeps view (Job.settings c query) := by
  intro b
  rw [Config.perform_settings]
  exact hview b _

end Job

namespace DocumentView

/-- The request for a new environment. -/
def creation (path vars : Value) : Value :=
  .dict [("fn", .str "jedi.create_environment"), ("path", path), ("safe", .bool false), ("env_vars", vars)]

/-- **What asking for an environment does**: it fails, finds the one that is kept, or asks the engine for one. What the
engine makes is kept, and nothing else is. -/
theorem environmentAt_cases (v : DocumentView) (path vars : Value) (b : Bench) :
    ((∀ p, path ≠ .str p) ∧ (v.environmentAt path vars).perform b = (.error .wrongType, b)) ∨
    (∃ e, Table.get? b.environments (v.document.home, environmentKey path) = some e ∧
      (v.environmentAt path vars).perform b = (.ok e, b)) ∨
    Table.get? b.environments (v.document.home, environmentKey path) = none ∧
      ((∃ f, b.host.answers.engine.environment path vars = .error f ∧
        (v.environmentAt path vars).perform b = (.error f, { b with calls := b.calls ++ [creation path vars] })) ∨
      b.host.answers.engine.environment path vars = .ok () ∧
        (v.environmentAt path vars).perform b = (.ok ⟨path.plain, vars⟩,
          { b with
            calls := b.calls ++ [creation path vars]
            environments := Table.put b.environments (v.document.home, environmentKey path) ⟨path.plain, vars⟩ })) := by
  unfold environmentAt
  split
  · exact .inl ⟨fun p h => Value.noConfusion h, rfl⟩
  · exact .inl ⟨fun p h => Value.noConfusion h, rfl⟩
  · refine .inr ?_
    have hread : (get : Job Bench).perform b = (.ok b, b) := rfl
    simp only [Job.perform_bind, hread]
    cases Table.get? b.environments (v.document.home, environmentKey path) with
    | some e => exact .inl ⟨e, rfl, rfl⟩
    | none =>
      refine .inr ⟨rfl, ?_⟩
      simp only [Job.perform_bind, Job.perform_note, Job.perform_answers, Job.perform_ofExcept]
      cases b.host.answers.engine.environment path vars with
      | error f => exact .inl ⟨f, rfl, rfl⟩
      | ok made => exact .inr ⟨rfl, rfl⟩

/-- Only the path itself is kept under its key. -/
theorem environmentKey_eq_str {path : Value} {p : String} (h : environmentKey path = .str p) : path = .str p := by
  cases path with
  | bool b => cases h
  | _ => exact h

section

variable {v : DocumentView} {home : WorkspaceId} {p : String} {kept : Option Environment}

/-- **Asking for an environment leaves a path alone**, unless it asks for this path and none is kept there. -/
theorem preserves_environmentAt (hhome : v.document.home = home) {path : Value} (vars : Value)
    (h : path = .str p → kept ≠ none) :
    Job.Preserves (fun b => b.environment? home p = kept) (v.environmentAt path vars) := by
  intro b hb
  subst hhome
  rcases v.environmentAt_cases path vars b with ⟨-, hrun⟩ | ⟨e, -, hrun⟩ | ⟨hnone, ⟨f, -, hrun⟩ | ⟨-, hrun⟩⟩
  · rw [hrun]
    exact hb
  · rw [hrun]
    exact hb
  · rw [hrun]
    exact hb
  · rw [hrun]
    have hne : (v.document.home, Value.str p) ≠ (v.document.home, environmentKey path) := by
      intro hkey
      rw [← hkey] at hnone
      exact h (environmentKey_eq_str (Prod.mk.inj hkey).2.symm) (hb.symm.trans hnone)
    exact (Table.get?_put_of_ne _ _ hne).trans hb

theorem preserves_namedEnvironment (hhome : v.document.home = home) (s : EngineSettings) (vars : Value)
    (h : s.environment = .str p → kept ≠ none) :
    Job.Preserves (fun b => b.environment? home p = kept) (v.namedEnvironment s vars) := by
  unfold namedEnvironment
  split
  · exact (preserves_environmentAt hhome vars h).bind fun _ _ hb => hb
  · exact fun _ hb => hb

/-- What comes after setting up asks for the same path once more. -/
theorem preserves_openWith (hhome : v.document.home = home) (s : Setup) (position : Value) (beside : Bool)
    (h : s.settings.environment = .str p → kept ≠ none) :
    Job.Preserves (fun b => b.environment? home p = kept) (v.openWith s position beside) := by
  have hsearched : Job.Preserves (fun b => b.environment? home p = kept)
      (v.searchPath s.settings.environment s.vars) := by
    unfold searchPath
    split
    · exact (preserves_environmentAt hhome _ h).bind fun _ _ hb => hb
    · exact fun _ hb => hb
  refine hsearched.bind fun searched => ?_
  extract_lets own opened
  have hopened : ∀ further, Job.Keeps Bench.environments (opened further) := by
    intro further
    refine (Feature.keeps_reading v.document.text).bind fun code => ?_
    split
    · exact (Feature.keeps_reading (v.document.enginePosition · position)).bind fun _ =>
        (Job.Keeps.throw _).bind fun _ _ => rfl
    · exact fun _ => rfl
  split
  · exact (hopened _).environment home p kept
  · exact ((Job.Keeps.throw _).bind fun _ => hopened _).environment home p kept

end

/-- Reading the settings writes nothing down but what is remembered of them. -/
theorem keeps_engineSettings {γ : Type} {view : Bench → γ}
    (hview : ∀ b cache, view { b with settings := cache } = view b) (v : DocumentView) :
    Job.Keeps view v.engineSettings := by
  unfold engineSettings
  split
  · exact Job.Keeps.pure _
  · have hplugin : ∀ c plugin path, Job.Keeps view (Job.pluginSettings c plugin path) := fun c plugin path =>
      (Job.Keeps.settings hview c _).bind fun _ => (Job.Keeps.ofExcept _).bind fun _ => Job.Keeps.ofExcept _
    exact (hplugin _ _ _).bind fun _ => (Job.Keeps.ofExcept _).bind fun _ => (Job.Keeps.ofExcept _).bind fun _ =>
      (Job.Keeps.ofExcept _).bind fun _ => Job.Keeps.pure _

end DocumentView

namespace Feature

/-! ## Runs -/

/-- **A document of a workspace is opened in the engine**, in the surroundings of that moment. -/
structure EngineOpening (home : WorkspaceId) where
  host : Host := {}
  document : Document
  own : document.home = home
  rootPath : String
  position : Value := .null
  beside : Bool := false

/-- What happens to a workspace: its configuration gets new settings of the client, or a document is opened. -/
inductive EngineEvent (home : WorkspaceId) where
  | configure (host : Host) (client : Value)
  | openIn (o : EngineOpening home)

/-- The configuration of a workspace, and the bench. -/
structure EngineSession where
  config : Config
  bench : Bench

namespace EngineOpening

variable {home : WorkspaceId}

/-- The document, under the configuration of the workspace. -/
def view (o : EngineOpening home) (s : EngineSession) : DocumentView where
  document := o.document
  config := some s.config
  rootPath := o.rootPath

/-- The bench, in the surroundings of the opening. -/
def bench (o : EngineOpening home) (s : EngineSession) : Bench := { s.bench with host := o.host }

/-- Opens the document. -/
def run (o : EngineOpening home) (s : EngineSession) : Except Fault Unit × Bench :=
  ((o.view s).openInEngine o.position o.beside).perform (o.bench s)

/-- **The path and the variables in force** at an opening. -/
def inForce (o : EngineOpening home) (s : EngineSession) : Except Fault (Value × Value) := do
  let settings ← ((o.view s).engineSettings.perform (o.bench s)).1
  return (settings.environment, ← settings.variables o.host)

/-- The variables in force, if the path in force is the given one. -/
def naming? (o : EngineOpening home) (s : EngineSession) (p : String) : Option Value :=
  (o.inForce s).toOption.bind fun named => if named.1 = .str p then some named.2 else none

/-- The variables in force, if the path in force is the given one and the engine makes the environment. -/
def making? (o : EngineOpening home) (s : EngineSession) (p : String) : Option Value :=
  (o.naming? s p).filter fun vars => (o.host.answers.engine.environment (.str p) vars).isOk

end EngineOpening

namespace EngineSession

variable {home : WorkspaceId}

/-- The session after an event. -/
def step (s : EngineSession) : EngineEvent home → EngineSession
  | .configure host client =>
    let (answer, bench) := Id.run ((s.config.update client).run { s.bench with host })
    { config := answer.2, bench }
  | .openIn o => { s with bench := (o.run s).2 }

/-- The session after the events of a history. -/
def after (s : EngineSession) (history : List (EngineEvent home)) : EngineSession := history.foldl step s

/-- The variables in force at an event, if an environment can be made at a path. -/
def makingAt? (s : EngineSession) (p : String) : EngineEvent home → Option Value
  | .configure _ _ => none
  | .openIn o => o.making? s p

/-- **The variables in force at the first opening of a history that names a path and that the engine makes an environment
for.** -/
def firstMaking? (s : EngineSession) (p : String) : List (EngineEvent home) → Option Value
  | [] => none
  | event :: rest => (s.makingAt? p event).or (firstMaking? (s.step event) p rest)

end EngineSession

/-! ## One event -/

namespace EngineOpening

open DocumentView (creation Setup)

variable {home : WorkspaceId} {o : EngineOpening home} {s : EngineSession} {p : String}

/-- **What setting up for a path hands out**: the environment that is kept there, or else a new one, if the engine makes
it. -/
def handed (o : EngineOpening home) (s : EngineSession) (p : String) (vars : Value) : Except Fault Environment :=
  (s.bench.environment? home p).elim ((o.host.answers.engine.environment (.str p) vars).map fun _ => ⟨p, vars⟩) .ok

/-- Reading the settings at an opening leaves all the rest as it is. -/
theorem perform_engineSettings (o : EngineOpening home) (s : EngineSession) : ∃ r m,
    (o.view s).engineSettings.perform (o.bench s) = (r, m) ∧ Job.host.perform m = (.ok o.host, m) ∧
      (∀ p, m.environment? home p = s.bench.environment? home p) ∧ m.calls = s.bench.calls := by
  have hkeeps : Job.Keeps (fun b => (b.host, b.environments, b.calls)) (o.view s).engineSettings :=
    (o.view s).keeps_engineSettings fun _ _ => rfl
  have hkept := hkeeps (o.bench s)
  rcases hrun : (o.view s).engineSettings.perform (o.bench s) with ⟨r, m⟩
  rw [hrun] at hkept
  obtain ⟨hhost, hrest⟩ := Prod.mk.inj hkept
  obtain ⟨henvironments, hcalls⟩ := Prod.mk.inj hrest
  refine ⟨r, m, rfl, ?_, fun p => ?_, hcalls⟩
  · show (Except.ok m.host, m) = _
    rw [hhost]
    rfl
  · rw [Bench.environment?, henvironments]
    rfl

/-- **Setting up when a path is named.** -/
theorem perform_setUp {vars : Value} (hp : p ≠ "") (h : o.inForce s = .ok (.str p, vars)) : ∃ settings m,
    (o.view s).setUp.perform (o.bench s) = ((o.handed s p vars).map fun e => ⟨settings, vars, some e⟩, m) ∧
      settings.environment = .str p ∧ m.environment? home p = (o.handed s p vars).toOption ∧
      m.calls = s.bench.calls ++
        if (s.bench.environment? home p).isSome then [] else [creation (.str p) vars] := by
  obtain ⟨r, m, hrun, hread, hkept, hcalls⟩ := o.perform_engineSettings s
  rw [inForce, hrun] at h
  obtain ⟨settings, rfl, hrest⟩ := Fault.bind_eq_ok.mp h
  obtain ⟨given, hvars, hpair⟩ := Fault.bind_eq_ok.mp hrest
  obtain ⟨hpath, rfl⟩ := Prod.mk.inj (Except.ok.inj hpair)
  have hsetUp : (o.view s).setUp.perform (o.bench s) =
      ((do return ⟨settings, given, some (← (o.view s).environmentAt (.str p) given)⟩) : Job Setup).perform m := by
    have hnamed : (o.view s).namedEnvironment settings given =
        (do return some (← (o.view s).environmentAt (.str p) given)) := by
      rw [DocumentView.namedEnvironment, hpath]
      exact if_pos (bne_iff_ne.mpr hp)
    have hgiven : (Job.ofExcept (settings.variables o.host)).perform m = (.ok given, m) := by
      rw [Job.perform_ofExcept, hvars]
    rw [DocumentView.setUp, Job.perform_bind_of_ok hrun, Job.perform_bind_of_ok hread, Job.perform_bind_of_ok hgiven,
      hnamed, bind_assoc]
    rfl
  have hhome : (o.view s).document.home = home := o.own
  have hhost : m.host = o.host := Except.ok.inj (Prod.mk.inj hread).1
  rw [hsetUp, Job.perform_bind, handed, ← hkept p, ← hcalls, ← hhost]
  rcases (o.view s).environmentAt_cases (.str p) given m with ⟨hno, -⟩ | ⟨e, hget, hat⟩ | ⟨hnone, hmade⟩
  · exact absurd rfl (hno p)
  · rw [hhome] at hget
    have hfound : m.environment? home p = some e := hget
    rw [hat, hfound]
    exact ⟨settings, m, rfl, hpath, hfound, (List.append_nil _).symm⟩
  · rw [hhome] at hnone
    have hmissing : m.environment? home p = none := hnone
    rw [hmissing]
    rcases hmade with ⟨f, hrefused, hat⟩ | ⟨hmade, hat⟩
    · rw [hat, hrefused]
      exact ⟨settings, _, rfl, hpath, hmissing, rfl⟩
    · rw [hat, hmade]
      refine ⟨settings, _, rfl, hpath, ?_, rfl⟩
      rw [hhome]
      exact Table.get?_put_self _ _ _

theorem inForce_of_naming? {vars : Value} (h : o.naming? s p = some vars) : o.inForce s = .ok (.str p, vars) := by
  obtain ⟨⟨path, given⟩, hforce, hnamed⟩ := Option.bind_eq_some_iff.mp h
  obtain ⟨rfl, hgiven⟩ := Option.ite_none_right_eq_some.mp hnamed
  cases hgiven
  exact Fault.eq_ok_of_toOption hforce

/-- **An opening that does not name a path leaves it alone.** -/
theorem environment?_run_of_other (h : o.naming? s p = none) :
    (o.run s).2.environment? home p = s.bench.environment? home p := by
  obtain ⟨r, m, hrun, hread, hkept, -⟩ := o.perform_engineSettings s
  rw [run, DocumentView.openInEngine_eq, DocumentView.setUp]
  simp only [bind_assoc, pure_bind]
  cases r with
  | error f =>
    rw [Job.perform_bind, hrun]
    exact hkept p
  | ok settings =>
    rw [Job.perform_bind_of_ok hrun, Job.perform_bind_of_ok hread, Job.perform_bind, Job.perform_ofExcept]
    cases hvars : settings.variables o.host with
    | error f => exact hkept p
    | ok vars =>
      have hother : settings.environment ≠ .str p := by
        intro hpath
        have hforce : o.inForce s = .ok (.str p, vars) := by
          rw [inForce, hrun]
          exact Fault.bind_eq_ok.mpr ⟨settings, rfl, Fault.bind_eq_ok.mpr ⟨vars, hvars, by rw [hpath]; rfl⟩⟩
        rw [naming?, hforce] at h
        exact absurd ((if_pos rfl).symm.trans h) (Option.some_ne_none vars)
      have hrest : Job.Preserves (fun b => b.environment? home p = s.bench.environment? home p)
          ((o.view s).namedEnvironment settings vars >>= fun e =>
            (o.view s).openWith ⟨settings, vars, e⟩ o.position o.beside) :=
        (DocumentView.preserves_namedEnvironment o.own settings vars (absurd · hother)).bind fun e =>
          DocumentView.preserves_openWith o.own ⟨settings, vars, e⟩ o.position o.beside (absurd · hother)
      exact hrest m (hkept p)

/-- An opening that names a path leaves there what it was handed, or nothing. -/
theorem environment?_run_of_naming (hp : p ≠ "") {vars : Value} (h : o.naming? s p = some vars) :
    (o.run s).2.environment? home p = (o.handed s p vars).toOption := by
  obtain ⟨settings, m, hsetUp, -, hkept, -⟩ := perform_setUp hp (inForce_of_naming? h)
  rw [run, DocumentView.openInEngine_eq]
  cases hhanded : o.handed s p vars with
  | error f =>
    rw [hhanded] at hsetUp hkept
    rw [Job.perform_bind, hsetUp]
    exact hkept
  | ok e =>
    rw [hhanded] at hsetUp hkept
    have hopened : Job.Preserves (fun b => b.environment? home p = some e)
        ((o.view s).openWith ⟨settings, vars, some e⟩ o.position o.beside) :=
      DocumentView.preserves_openWith o.own _ _ _ fun _ => Option.some_ne_none _
    rw [Job.perform_bind_of_ok hsetUp]
    exact hopened m hkept

/-- **What an opening leaves at a path**: what was kept there, or a new environment, if the path is named and the engine
makes one. -/
theorem environment?_run (hp : p ≠ "") (o : EngineOpening home) (s : EngineSession) :
    (o.run s).2.environment? home p =
      (s.bench.environment? home p).or ((o.making? s p).map fun vars => ⟨p, vars⟩) := by
  rw [making?]
  cases hnaming : o.naming? s p with
  | none =>
    rw [Option.filter_none, Option.map_none, Option.or_none]
    exact environment?_run_of_other hnaming
  | some vars =>
    rw [environment?_run_of_naming hp hnaming, handed, Option.filter_some]
    cases s.bench.environment? home p with
    | some e => rfl
    | none => cases o.host.answers.engine.environment (.str p) vars <;> rfl

end EngineOpening

/-- New settings leave the environments alone. -/
theorem environments_update (c : Config) (client : Value) (b : Bench) :
    (Id.run ((c.update client).run b)).2.environments = b.environments := by
  have hkept : Job.Keeps Bench.environments (c.withClient client).findDisabled :=
    (Job.Keeps.mapM (fun _ => (Job.Keeps.settings (fun _ _ => rfl) _ _).bind fun _ =>
      (Job.Keeps.ofExcept _).bind fun _ => Job.Keeps.pure _) _).bind fun _ => Job.Keeps.pure _
  have hfound := hkept { b with settings := [] }
  rcases hrun : (c.withClient client).findDisabled.perform { b with settings := [] } with ⟨r, m⟩
  rw [hrun] at hfound
  cases r with
  | ok disabled => simpa [Config.update, hrun] using hfound
  | error f => simpa [Config.update, hrun] using hfound

/-! ## Whole runs -/

namespace EngineSession

open DocumentView (creation)

variable {home : WorkspaceId} {p : String}

theorem environment?_step (hp : p ≠ "") (s : EngineSession) (event : EngineEvent home) :
    (s.step event).bench.environment? home p =
      (s.bench.environment? home p).or ((s.makingAt? p event).map fun vars => ⟨p, vars⟩) := by
  cases event with
  | configure host client =>
    show Table.get? (Id.run ((s.config.update client).run { s.bench with host })).2.environments _ = _
    rw [environments_update, makingAt?, Option.map_none, Option.or_none]
    rfl
  | openIn o => exact EngineOpening.environment?_run hp o s

/-- **What is kept at a path after a history** was there before, or is of the first opening that had it made. -/
theorem environment?_after (hp : p ≠ "") (s : EngineSession) (history : List (EngineEvent home)) :
    (s.after history).bench.environment? home p =
      (s.bench.environment? home p).or ((s.firstMaking? p history).map fun vars => ⟨p, vars⟩) := by
  induction history generalizing s with
  | nil => exact (Option.or_none).symm
  | cons event rest ih =>
    rw [after, List.foldl_cons]
    refine (ih (s.step event)).trans ?_
    rw [environment?_step hp, firstMaking?, Option.or_assoc, Option.map_or]

/-- **An environment has the variables of the first opening that got it made.** From a session in which nothing is kept at
a path, after any run of new settings and openings of documents of one workspace, an opening at which the path is named:

* if an opening of the run got an environment made at the path, or if the engine makes one now, sets up with the variables
  in force, and the document is opened with what was set up. It is handed the environment that was made with the variables
  in force at the first opening of the run that got one made, or, if none did, with its own; so this is the environment made
  with the variables in force exactly if they were the same then. It asks for a new environment exactly if no opening of the
  run got one made;
* otherwise ends in the engine's fault, and nothing is kept at the path. -/
theorem environment_of_first_making {s : EngineSession} (hp : p ≠ "") (hnew : s.bench.environment? home p = none)
    (history : List (EngineEvent home)) (o : EngineOpening home) {vars : Value}
    (hforce : o.inForce (s.after history) = .ok (.str p, vars)) :
    let now := s.after history
    let first? := s.firstMaking? p history
    let outcome := o.host.answers.engine.environment (.str p) vars
    (first?.isSome ∨ outcome = .ok () →
      ∃ found m, (o.view now).setUp.perform (o.bench now) = (.ok found, m) ∧
        o.run now = ((o.view now).openWith found o.position o.beside).perform m ∧
        found.settings.environment = .str p ∧ found.vars = vars ∧
        found.environment = some ⟨p, first?.getD vars⟩ ∧
        (found.environment = some ⟨p, vars⟩ ↔ ∀ first, first? = some first → first = vars) ∧
        m.calls = now.bench.calls ++ if first?.isSome then [] else [creation (.str p) vars]) ∧
    ∀ f, first? = none → outcome = .error f →
      (o.run now).1 = .error f ∧ (o.run now).2.environment? home p = none ∧
        (o.run now).2.calls = now.bench.calls ++ [creation (.str p) vars] := by
  intro now first? outcome
  obtain ⟨settings, m, hsetUp, hpath, hleft, hcalls⟩ := EngineOpening.perform_setUp hp hforce
  have hkept : now.bench.environment? home p = first?.map fun vars => ⟨p, vars⟩ := by
    rw [environment?_after hp, hnew, Option.none_or]
  rw [hkept, Option.isSome_map] at hcalls
  have hhanded : o.handed now p vars = (first?.map fun vars => ⟨p, vars⟩).elim (outcome.map fun _ => ⟨p, vars⟩) .ok := by
    rw [EngineOpening.handed, hkept]
  rw [hhanded] at hsetUp hleft
  constructor
  · intro hmade
    have hsome : (first?.map fun vars => (⟨p, vars⟩ : Environment)).elim (outcome.map fun _ => ⟨p, vars⟩) .ok =
        .ok ⟨p, first?.getD vars⟩ := by
      cases hfirst : first? with
      | some first => rfl
      | none =>
        rw [hfirst] at hmade
        rw [hmade.resolve_left Bool.false_ne_true]
        rfl
    rw [hsome] at hsetUp
    refine ⟨_, m, hsetUp, ?_, hpath, rfl, rfl, ?_, hcalls⟩
    · rw [EngineOpening.run, DocumentView.openInEngine_eq, Job.perform_bind_of_ok hsetUp]
    · show some (⟨p, first?.getD vars⟩ : Environment) = _ ↔ _
      cases first? with
      | none => exact ⟨fun _ _ h => absurd h.symm (Option.some_ne_none _), fun _ => rfl⟩
      | some first => simp [Option.getD_some]
  · intro f hnone hrefused
    have hfault : (o.run now) = (.error f, m) := by
      rw [hnone, hrefused] at hsetUp
      rw [EngineOpening.run, DocumentView.openInEngine_eq, Job.perform_bind, hsetUp]
      rfl
    rw [hnone, hrefused] at hleft
    rw [hnone] at hcalls
    rw [hfault]
    exact ⟨rfl, hleft, hcalls⟩

/-- Settings of the client that name an environment, and a variable for it. -/
def clientWith (value : String) : Value :=
  .dict [("plugins", .dict [("jedi", .dict [("environment", .str "/venv"), ("env_vars", .dict [("A", .str value)])])])]

/-- A session that starts with the value `1` of the variable. -/
def venvSession : EngineSession where
  config :=
    { id := 0
      rootUri := "file:///ws"
      rootPath := "/ws"
      initOptions := .null
      processId := .null
      capabilities := .null
      client := clientWith "1" }
  bench := {}

/-- A document of one line is opened. -/
def venvOpening : EngineOpening 0 where
  document :=
    { uri := "file:///ws/main.py", path := "/ws/main.py", dottedName := "main", fileName := "main.py", source := some "x"
      home := 0 }
  own := rfl
  rootPath := "/ws"

/-- The same, at a moment at which the engine makes no environment. -/
def refusedOpening : EngineOpening 0 where
  __ := venvOpening
  host := { answers := { engine := { environment := fun _ _ => .error (.tool .other "no such environment") } } }

/-- An opening in vain, then the variable gets the value `2` and the document is opened, and then it gets the value `3`. -/
def changedHistory : List (EngineEvent 0) :=
  [.openIn refusedOpening, .configure {} (clientWith "2"), .openIn venvOpening, .configure {} (clientWith "3")]

/-- The opening in vain leaves nothing behind. From the next one on the environment has the value `2`. -/
theorem environment_of_first_making_changed_variable :
    (refusedOpening.run venvSession).1 = .error (.tool .other "no such environment") ∧
    venvOpening.inForce (venvSession.after changedHistory) = .ok (.str "/venv", .dict [("A", .str "3")]) ∧
    ∃ found m, (venvOpening.view (venvSession.after changedHistory)).setUp.perform
        (venvOpening.bench (venvSession.after changedHistory)) = (.ok found, m) ∧
      found.environment = some ⟨"/venv", .dict [("A", .str "2")]⟩ ∧
      found.environment ≠ some ⟨"/venv", .dict [("A", .str "3")]⟩ := by
  have hstart : refusedOpening.inForce (venvSession.after ([] : List (EngineEvent 0))) =
      .ok (.str "/venv", .dict [("A", .str "1")]) := Fault.eq_ok_of_toOption (by decide +kernel)
  have hchanged : venvOpening.inForce (venvSession.after changedHistory) =
      .ok (.str "/venv", .dict [("A", .str "3")]) := Fault.eq_ok_of_toOption (by decide +kernel)
  have hfirst : venvSession.firstMaking? "/venv" changedHistory = some (.dict [("A", .str "2")]) := by decide +kernel
  obtain ⟨-, hrefused⟩ := environment_of_first_making (by decide) rfl [] refusedOpening hstart
  obtain ⟨hmade, -⟩ := environment_of_first_making (by decide) rfl changedHistory venvOpening hchanged
  obtain ⟨later, m, hlater, -, -, -, hkept, hsame, -⟩ := hmade (.inr rfl)
  rw [hfirst] at hkept
  refine ⟨(hrefused _ rfl rfl).1, hchanged, later, m, hlater, hkept, fun hother => ?_⟩
  exact absurd (hsame.mp hother _ hfirst) (by decide)

end EngineSession

end Feature

end EditorService
