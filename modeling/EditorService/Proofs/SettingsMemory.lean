import EditorService.Proofs.Jobs

/-!
# What is remembered of settings

One memory serves all configurations. An answer from it is right as long as the entries of the configuration that asks
are `Current`: computing them now would give the same. A job that asks for settings of one configuration writes only
current entries of that configuration (`Consults`), and eviction writes none. So from a memory that is current for a
configuration, each of its jobs answers as if nothing were remembered: that is `answers_settings` and
`answers_findDisabled`.

New settings empty the memory first, and a new configuration has a number that nothing is remembered under. So these two
never need the assumption: `run_update` and `perform_create` tell their results without the memory.
-/

namespace EditorService

open EditorService.Settings (cached Cache Query)

/-! ## The memory alone -/

namespace Settings

/-- What is remembered after asking was remembered before, or is what asking computed. -/
theorem mem_cached {cache : Cache} {c : Config} {host : Host} {query : Query} {key : ConfigId × Query} {v : Value}
    (h : (key, v) ∈ (cached cache c host query).2) :
    (key, v) ∈ cache ∨ key = (c.id, query) ∧ c.compute host query.path? = .ok v := by
  have htouch : ∀ {w}, (key, v) ∈ cache.touch (c.id, query) w →
      (key, v) ∈ cache ∨ (key, v) = ((c.id, query), w) := by
    intro w hmem
    rcases List.mem_append.mp hmem with hkept | hnew
    · exact .inl (List.mem_filter.mp hkept).1
    · exact .inr (List.mem_singleton.mp hnew)
  unfold cached at h
  cases hget : Table.get? cache (c.id, query) with
  | some w =>
    simp only [hget] at h
    rcases htouch h with hkept | hnew
    · exact .inl hkept
    · cases hnew
      exact .inl (Table.mem_of_get? hget)
  | none =>
    simp only [hget] at h
    cases hcompute : c.compute host query.path? with
    | error f =>
      simp only [hcompute] at h
      exact .inl h
    | ok w =>
      simp only [hcompute] at h
      rcases htouch (List.mem_of_mem_drop h) with hkept | hnew
      · exact .inl hkept
      · cases hnew
        exact .inr ⟨rfl, rfl⟩

/-- An answer from the memory is what computing gives, when the entry is. -/
theorem cached_eq_compute {cache : Cache} {c : Config} {host : Host} {query : Query}
    (h : ∀ v, ((c.id, query), v) ∈ cache → c.compute host query.path? = .ok v) :
    (cached cache c host query).1 = c.compute host query.path? := by
  unfold cached
  cases hget : Table.get? cache (c.id, query) with
  | some v =>
    simp only [hget]
    exact (h v (Table.mem_of_get? hget)).symm
  | none =>
    simp only [hget]
    cases c.compute host query.path? <;> rfl

end Settings

/-! ## Jobs of one configuration -/

namespace Config

open EditorService.Job (Answers)

/-- **What is remembered of a configuration is current.** -/
def Current (c : Config) (b : Bench) : Prop :=
  ∀ {query v}, ((c.id, query), v) ∈ b.settings → c.compute b.host query.path? = .ok v

/-- **A job has consulted settings of one configuration**: what it added to the memory is current. -/
structure Consults (c : Config) (b b' : Bench) : Prop where
  host : b'.host = b.host
  entries : ∀ {key v}, (key, v) ∈ b'.settings →
    (key, v) ∈ b.settings ∨ key.1 = c.id ∧ c.compute b.host key.2.path? = .ok v

theorem Consults.rest (c : Config) (b : Bench) : Consults c b b := ⟨rfl, .inl⟩

theorem Consults.current {c : Config} {b b' : Bench} (h : Consults c b b') (hb : c.Current b) : c.Current b' := by
  intro query v hmem
  rw [h.host]
  rcases h.entries hmem with hold | ⟨-, hnew⟩
  · exact hb hold
  · exact hnew

theorem perform_settings (c : Config) (query : Query) (b : Bench) :
    (Job.settings c query).perform b =
      ((cached b.settings c b.host query).1, { b with settings := (cached b.settings c b.host query).2 }) := by
  simp only [Job.settings, Job.perform_bind]
  exact Job.perform_ofExcept _ _

/-- Asking for settings once more. -/
theorem Consults.settings {c : Config} {b b' : Bench} (h : Consults c b b') (query : Query) :
    Consults c b ((Job.settings c query).perform b').2 := by
  rw [perform_settings]
  refine ⟨h.host, fun {key v} hmem => ?_⟩
  rcases Settings.mem_cached hmem with hold | ⟨rfl, hnew⟩
  · exact h.entries hold
  · exact .inr ⟨rfl, h.host ▸ hnew⟩

/-- **Settings are answered as if nothing were remembered**, from a memory that is current. -/
theorem answers_settings {c : Config} {b : Bench} (hb : c.Current b) (query : Query) :
    Answers (Consults c b) (Job.settings c query) (c.compute b.host query.path?) := by
  intro b' hb'
  refine ⟨?_, hb'.settings query⟩
  rw [perform_settings, ← hb'.host]
  exact Settings.cached_eq_compute fun v hmem => hb'.current hb hmem

/-- **The disabled plugins, worked out without a memory.** -/
def disabledAfresh (c : Config) (host : Host) : Except Fault (List (Option String)) := do
  let marked ← c.plugins.mapM fun (name, plugin) => do
    let enabled ← isEnabled (← c.compute host none) name
    return if enabled then none else some (plugin.map Plugin.name)
  return marked.filterMap fun m => m

theorem answers_findDisabled {c : Config} {b : Bench} (hb : c.Current b) :
    Answers (Consults c b) c.findDisabled (c.disabledAfresh b.host) := by
  refine (Answers.mapM (fun entry => ?_) _).bind fun marked _ => Answers.pure _
  refine (answers_settings hb .plain).bind fun settings _ => ?_
  exact (Answers.ofExcept _).bind fun enabled _ => Answers.pure _

/-! ## New settings -/

/-- **What new settings of the client make of a configuration**, without a memory. -/
def updated (c : Config) (host : Host) (client : Value) : Except Fault Unit × Config :=
  let c := c.withClient client
  match c.disabledAfresh host with
  | .ok disabled => (.ok (), { c with disabled })
  | .error f => (.error f, c)

/-- Whether or not it fails, the configuration has the settings. -/
theorem updated_snd (c : Config) (host : Host) (client : Value) :
    ∃ disabled, (c.updated host client).2 = { c.withClient client with disabled } := by
  simp only [updated]
  cases (c.withClient client).disabledAfresh host with
  | ok disabled => exact ⟨disabled, rfl⟩
  | error f => exact ⟨c.disabled, rfl⟩

/-- New settings empty the memory, so what was remembered does not matter. -/
theorem run_update (c : Config) (client : Value) (b : Bench) :
    (Id.run ((c.update client).run b)).1 = c.updated b.host client ∧
      Consults (c.withClient client) { b with settings := [] } (Id.run ((c.update client).run b)).2 := by
  have hempty : (c.withClient client).Current { b with settings := [] } := nofun
  obtain ⟨hanswer, hconsults⟩ := answers_findDisabled hempty _ (Consults.rest _ _)
  rcases hfound : (c.withClient client).findDisabled.perform { b with settings := [] } with ⟨r, bench⟩
  rw [hfound] at hanswer hconsults
  have hrun : Id.run ((c.update client).run b) = (c.updated b.host client, bench) := by
    simp only [updated, ← hanswer]
    cases r with
    | ok disabled => simp [update, hfound]
    | error f => simp [update, hfound]
  rw [hrun]
  exact ⟨rfl, hconsults⟩

/-! ## New configurations -/

/-- The default settings that a plugin gives. -/
def defaultsOf : Plugin → Except Fault Value
  | .builtIn b => .ok b.defaultSettings
  | .custom p =>
    match Table.get? p.answers Hook.settings.name with
    | some a => a.result
    | none => .ok .null

/-- The merged defaults of the plugins of a registry. -/
def defaultsOfAll (plugins : Registry) : Except Fault (List (String × Value)) := do
  let given ← (plugins.implementations .settings []).mapM defaultsOf
  (given.filter (· != .null)).foldlM (fun all v => do return Settings.merge all (← v.entries)) []

theorem answers_defaultSettings {good : Bench → Prop} (hnote : ∀ b calls, good b → good { b with calls })
    (rootUri : String) (p : Plugin) : Answers good (p.defaultSettings rootUri) (defaultsOf p) := by
  cases p with
  | builtIn b => exact Answers.pure _
  | custom p =>
    have hwritten : Answers good (Job.note Hook.settings.name
        [("plugin", .str p.name), ("args", .dict [("config", .str rootUri)])]) (.ok ()) :=
      fun b hb => ⟨rfl, hnote b _ hb⟩
    refine hwritten.bind (q := fun _ => defaultsOf (.custom p)) fun _ _ => ?_
    simp only [defaultsOf]
    cases Table.get? p.answers Hook.settings.name with
    | some a => exact Answers.ofExcept _
    | none => exact Answers.pure _

theorem answers_gatherDefaults {good : Bench → Prop} (hnote : ∀ b calls, good b → good { b with calls }) (c : Config) :
    Answers good c.gatherDefaults (defaultsOfAll c.plugins) := by
  refine (Answers.mapM (fun p => answers_defaultSettings hnote c.rootUri p) _).bind fun given _ => ?_
  exact Answers.foldlM (fun all v => (Answers.ofExcept _).bind fun entries _ => Answers.pure _) _ _

section

variable (host : Host) (id : ConfigId) (rootUri : String) (initOptions processId capabilities : Value)
  (sources : List Settings.Source) (plugins : List Plugin)

/-- A configuration that does not know yet which plugins are disabled, without a bench. -/
def drafted : Except Fault Config := do
  let rootPath ← Uri.toPath host.drives rootUri
  let defaults ← defaultsOfAll (Registry.ofPlugins plugins)
  return {
    id, rootUri, rootPath, initOptions, processId, capabilities, sources, defaults
    plugins := Registry.ofPlugins plugins }

/-- **A new configuration, without a memory.** -/
def created : Except Fault Config := do
  let c ← drafted host id rootUri initOptions processId capabilities sources plugins
  return { c with disabled := ← c.disabledAfresh host }

variable {host id rootUri initOptions processId capabilities sources plugins} in
theorem drafted_eq_ok {c : Config}
    (h : drafted host id rootUri initOptions processId capabilities sources plugins = .ok c) :
    c.id = id ∧ c.client = .dict [] := by
  obtain ⟨rootPath, -, h⟩ := Fault.bind_eq_ok.mp h
  obtain ⟨defaults, -, h⟩ := Fault.bind_eq_ok.mp h
  cases h
  exact ⟨rfl, rfl⟩

theorem answers_draft (b : Bench) :
    Answers (fun b' => b'.host = b.host ∧ b'.settings = b.settings)
      (draft id rootUri initOptions processId capabilities sources plugins)
      (drafted b.host id rootUri initOptions processId capabilities sources plugins) := by
  have hhost : Answers (fun b' => b'.host = b.host ∧ b'.settings = b.settings) Job.host (.ok b.host) :=
    fun b' hb' => ⟨congrArg Except.ok hb'.1, hb'⟩
  refine hhost.bind (q := fun h => drafted h id rootUri initOptions processId capabilities sources plugins) ?_
  rintro _ ⟨⟩
  refine (Answers.ofExcept _).bind fun rootPath _ => ?_
  refine (answers_gatherDefaults (fun _ _ hb' => hb') _).bind fun defaults _ => Answers.pure _

variable {id rootUri initOptions processId capabilities sources plugins} in
/-- A new configuration has its number, and no settings of the client yet. -/
theorem create_eq_ok {b b' : Bench} {c : Config}
    (h : (create id rootUri initOptions processId capabilities sources plugins).perform b = (.ok c, b')) :
    c.id = id ∧ c.client = .dict [] := by
  have hdraft := (answers_draft id rootUri initOptions processId capabilities sources plugins b b ⟨rfl, rfl⟩).1
  rw [create, Job.perform_bind] at h
  rcases hrun : (draft id rootUri initOptions processId capabilities sources plugins).perform b with ⟨r, b₁⟩
  rw [hrun] at h hdraft
  cases r with
  | error f => exact nomatch h
  | ok drafted =>
    simp only [Job.perform_bind] at h
    rcases hfound : drafted.findDisabled.perform b₁ with ⟨found, b₂⟩
    rw [hfound] at h
    cases found with
    | error f => exact nomatch h
    | ok disabled =>
      cases h
      have hdrafted := drafted_eq_ok hdraft.symm
      exact ⟨hdrafted.1, hdrafted.2⟩

/-- **A new configuration does not depend on the memory**, as long as its number is new, and what it leaves in the
memory is what it would compute itself. -/
theorem perform_create {b : Bench} (hnew : ∀ query v, ((id, query), v) ∉ b.settings) :
    ((create id rootUri initOptions processId capabilities sources plugins).perform b).1 =
        created b.host id rootUri initOptions processId capabilities sources plugins ∧
      ((create id rootUri initOptions processId capabilities sources plugins).perform b).2.host = b.host ∧
      ∀ {key v}, (key, v) ∈
          ((create id rootUri initOptions processId capabilities sources plugins).perform b).2.settings →
        (key, v) ∈ b.settings ∨ key.1 = id ∧ ∀ c,
          created b.host id rootUri initOptions processId capabilities sources plugins = .ok c →
            c.compute b.host key.2.path? = .ok v := by
  obtain ⟨hdraft, hhost, hsettings⟩ :=
    answers_draft id rootUri initOptions processId capabilities sources plugins b b ⟨rfl, rfl⟩
  rw [create, Job.perform_bind]
  rcases hrun : (draft id rootUri initOptions processId capabilities sources plugins).perform b with ⟨r, b₁⟩
  rw [hrun] at hdraft hhost hsettings
  cases r with
  | error f =>
    refine ⟨?_, hhost, fun hmem => .inl (hsettings ▸ hmem)⟩
    rw [created, ← hdraft]
    rfl
  | ok c =>
    have hid : c.id = id := (drafted_eq_ok hdraft.symm).1
    have hcurrent : c.Current b₁ := by
      intro query v hmem
      rw [hsettings, hid] at hmem
      exact absurd hmem (hnew query v)
    obtain ⟨hanswer, hconsults⟩ := answers_findDisabled hcurrent b₁ (Consults.rest c b₁)
    simp only [Job.perform_bind]
    rcases hfound : c.findDisabled.perform b₁ with ⟨found, b₂⟩
    rw [hfound] at hanswer hconsults
    have hcreated : created b.host id rootUri initOptions processId capabilities sources plugins =
        found.map fun disabled => { c with disabled } := by
      have hafresh : c.disabledAfresh b.host = found := hhost ▸ hanswer.symm
      rw [created, ← hdraft]
      change (c.disabledAfresh b.host >>= _) = _
      rw [hafresh]
      cases found <;> rfl
    have hentries : ∀ {key v}, (key, v) ∈ b₂.settings →
        (key, v) ∈ b.settings ∨ key.1 = id ∧ c.compute b.host key.2.path? = .ok v := by
      intro key v hmem
      have hkey := hconsults.entries hmem
      rwa [hsettings, hid, hhost] at hkey
    rw [hcreated]
    cases found with
    | error f => exact ⟨rfl, hconsults.host.trans hhost, fun hmem => (hentries hmem).imp_right fun h => ⟨h.1, nofun⟩⟩
    | ok disabled =>
      refine ⟨rfl, hconsults.host.trans hhost, fun hmem => (hentries hmem).imp_right fun h => ⟨h.1, ?_⟩⟩
      rintro _ ⟨⟩
      exact h.2

end

end Config

/-! ## The service -/

namespace Service

/-- **New settings for a configuration of the service.** -/
theorem perform_updateConfig {s : Server} {id : ConfigId} {c : Config} (hc : s.configAt? (some id) = some c)
    (client : Value) :
    (updateConfig id client).perform s =
      ((c.updated s.bench.host client).1,
        ({ s with bench := (Id.run ((c.update client).run s.bench)).2 } : Server).putConfig
          (c.updated s.bench.host client).2) := by
  simp only [updateConfig, perform_bind, perform_get, hc, perform_present_some, perform_set, perform_ofExcept,
    (c.run_update client s.bench).1]

theorem perform_updateConfig_none {s : Server} {id : ConfigId} (hc : s.configAt? (some id) = none) (client : Value) :
    (updateConfig id client).perform s = (.error .memberMissing, s) := by
  simp only [updateConfig, perform_bind, perform_get, hc]
  rfl

/-- **A new configuration of the service.** -/
theorem perform_newConfig (rootUri : String) (initOptions processId capabilities : Value) (s : Server) :
    (newConfig rootUri initOptions processId capabilities).perform s =
      match (Config.create s.nextConfig rootUri initOptions processId capabilities s.sources s.plugins).perform
        s.bench with
      | (.ok c, bench) => (.ok c, ({ s with nextConfig := s.nextConfig + 1, bench } : Server).putConfig c)
      | (.error f, bench) => (.error f, { s with nextConfig := s.nextConfig + 1, bench }) := by
  simp only [newConfig, perform_bind, perform_get, perform_set, perform_job]
  rcases (Config.create s.nextConfig rootUri initOptions processId capabilities s.sources s.plugins).perform
    s.bench with ⟨r, bench⟩
  cases r <;> rfl

/-- **All that making a configuration can do.** A number is given out, and unless it fails, there is a configuration
under it, without settings of the client. -/
theorem newConfig_cases (rootUri : String) (initOptions processId capabilities : Value) (s : Server) : ∃ bench,
    (∃ f, (newConfig rootUri initOptions processId capabilities).perform s =
      (.error f, { s with nextConfig := s.nextConfig + 1, bench })) ∨
    ∃ c, c.id = s.nextConfig ∧ c.client = .dict [] ∧ (newConfig rootUri initOptions processId capabilities).perform s =
      (.ok c, ({ s with nextConfig := s.nextConfig + 1, bench } : Server).putConfig c) := by
  rw [perform_newConfig]
  rcases hcreate : (Config.create s.nextConfig rootUri initOptions processId capabilities s.sources
    s.plugins).perform s.bench with ⟨r, bench⟩
  cases r with
  | error f => exact ⟨bench, .inl ⟨f, rfl⟩⟩
  | ok c =>
    obtain ⟨hid, hclient⟩ := Config.create_eq_ok hcreate
    exact ⟨bench, .inr ⟨c, hid, hclient, rfl⟩⟩

end Service

namespace Server

theorem configAt?_putConfig (s : Server) (c : Config) (id : ConfigId) :
    (s.putConfig c).configAt? (some id) = if id = c.id then some c else s.configAt? (some id) :=
  Table.get?_put s.configs c.id id c

/-- **Configurations stand under their own numbers**, and the numbers to come are free. -/
structure Numbered (s : Server) : Prop where
  own : ∀ {id c}, s.configAt? (some id) = some c → c.id = id
  given : ∀ {id c}, s.configAt? (some id) = some c → id < s.nextConfig

theorem Numbered.of_same {s t : Server} (h : s.Numbered) (hconfigs : t.configs = s.configs)
    (hnext : s.nextConfig ≤ t.nextConfig) : t.Numbered := by
  have hsame : ∀ id, t.configAt? id = s.configAt? id := fun id => by simp only [configAt?, hconfigs]
  exact ⟨fun hc => h.own (hsame _ ▸ hc), fun hc => Nat.lt_of_lt_of_le (h.given (hsame _ ▸ hc)) hnext⟩

theorem Numbered.put {s : Server} (h : s.Numbered) {c : Config} (hid : c.id < s.nextConfig) :
    (s.putConfig c).Numbered := by
  have hcases : ∀ {id c'}, (s.putConfig c).configAt? (some id) = some c' → c'.id = id ∧ id < s.nextConfig := by
    intro id c' hc
    rw [configAt?_putConfig] at hc
    split at hc
    · next heq =>
      cases hc
      exact ⟨heq.symm, heq ▸ hid⟩
    · exact ⟨h.own hc, h.given hc⟩
  exact ⟨fun hc => (hcases hc).1, fun hc => (hcases hc).2⟩

end Server

end EditorService
