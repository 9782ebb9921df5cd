import EditorService.Proofs.SettingsFiles
import EditorService.Proofs.SettingsMemory

/-!
# The memory of settings is coherent

Configurations are made, asked for settings and given new ones, in any order and in any number; files change, and the
client tells of it or does not. All the while one memory is shared. It is emptied by new settings for any configuration,
and when the client tells that settings files changed.

`Coherent` says what holds throughout: each entry of a configuration is what this configuration, with the client
settings that it has now, computes in some surroundings that the service has been in since the memory was last emptied.

**The law** (`settings_as_if_uncached`): as long as the settings files are those of the time when the memory was last
emptied, an answer is what computing it now would give. New settings and new configurations, which ask for settings
themselves, never depend on the memory, whatever happened to the files.
-/

namespace EditorService.Memory

open EditorService.Service
open EditorService.Settings (Query)

/-! ## Acts -/

/-- **What can happen** to configurations and to the memory that they share: a configuration is made, is asked for
settings, gets new settings of the client, or becomes that of the service; the client tells that files changed; the
surroundings change. -/
inductive Act where
  | make (rootUri : String) (initOptions processId capabilities : Value)
  | ask (id : ConfigId) (query : Query)
  | update (id : ConfigId) (client : Value)
  | adopt (id : ConfigId)
  | announce (changes : Value)
  | move (host : Host)

/-- An act as a step of the service. -/
def Act.step : Act → Service Unit
  | .make rootUri initOptions processId capabilities => do
    let _ ← newConfig rootUri initOptions processId capabilities
  | .ask id query => do
    let _ ← job (Job.settings (← present ((← get).configAt? (some id))) query)
  | .update id client => updateConfig id client
  | .adopt id => modify fun s => { s with config := some id }
  | .announce changes => didChangeFiles changes
  | .move host => modify fun s => { s with bench := { s.bench with host } }

/-- **Whether an act empties the memory.** -/
def Act.forgets (s : Server) : Act → Bool
  | .update id _ => (s.configAt? (some id)).isSome
  | .announce changes => s.config.isSome && (changedUris changes).toOption.any settingsChanged
  | _ => false

/-- **The service under watch**: with the surroundings that it has been in since the memory was last emptied. -/
structure Watched where
  server : Server
  seen : List Host

/-- An act done under watch. -/
def Act.next (w : Watched) (act : Act) : Watched :=
  let t := (act.step.perform w.server).2
  { server := t, seen := if act.forgets w.server then [t.bench.host] else t.bench.host :: w.seen }

/-- A service that has made no configuration yet, and the acts that follow. -/
def watch (s : Server) (run : List Act) : Watched := run.foldl Act.next { server := s, seen := [s.bench.host] }

/-- **The settings files have stayed the same** since the memory was last emptied. -/
def Watched.Undisturbed (w : Watched) : Prop := ∀ host ∈ w.seen, host.SameSettingsFiles w.server.bench.host

/-! ## Coherence -/

/-- **The memory is coherent.** -/
structure Coherent (w : Watched) : Prop where
  numbered : w.server.Numbered
  used : ∀ {key v}, (key, v) ∈ w.server.bench.settings → key.1 < w.server.nextConfig
  entries : ∀ {key v c}, (key, v) ∈ w.server.bench.settings → w.server.configAt? (some key.1) = some c →
    ∃ host ∈ w.seen, c.compute host key.2.path? = .ok v
  now : w.server.bench.host ∈ w.seen

/-- An act that makes and changes no configuration keeps the memory coherent, if what it adds is current. -/
theorem Coherent.of_same_configs {w : Watched} (h : Coherent w) {t : Server} {seen : List Host}
    (hconfigs : t.configs = w.server.configs) (hnext : t.nextConfig = w.server.nextConfig)
    (hnow : t.bench.host ∈ seen)
    (hentries : ∀ {key v}, (key, v) ∈ t.bench.settings →
      ((key, v) ∈ w.server.bench.settings ∧ w.seen ⊆ seen) ∨
        ∃ c, w.server.configAt? (some key.1) = some c ∧ c.compute t.bench.host key.2.path? = .ok v) :
    Coherent ⟨t, seen⟩ := by
  have hsame : ∀ id, t.configAt? (some id) = w.server.configAt? (some id) := fun id => by
    simp only [Server.configAt?, hconfigs]
  refine ⟨h.numbered.of_same hconfigs (Nat.le_of_eq hnext.symm), fun hmem => ?_, ?_, hnow⟩
  · rcases hentries hmem with ⟨hold, -⟩ | ⟨c, hc, -⟩
    · exact hnext ▸ h.used hold
    · exact hnext ▸ h.numbered.given hc
  · intro key v c hmem hc
    rw [hsame] at hc
    rcases hentries hmem with ⟨hold, hseen⟩ | ⟨c', hc', hcurrent⟩
    · obtain ⟨host, hhost, hcompute⟩ := h.entries hold hc
      exact ⟨host, hseen hhost, hcompute⟩
    · cases hc.symm.trans hc'
      exact ⟨_, hnow, hcurrent⟩

/-- An act that fails before it has done anything. -/
theorem Coherent.of_same {w : Watched} (h : Coherent w) : Coherent ⟨w.server, w.server.bench.host :: w.seen⟩ :=
  h.of_same_configs rfl rfl List.mem_cons_self fun hmem => .inl ⟨hmem, List.subset_cons_self _ _⟩

/-- An act that writes one configuration keeps the memory coherent, if the entries of that configuration are current and
the others are old. -/
theorem Coherent.of_put {w : Watched} (h : Coherent w) {t : Server} {seen : List Host} {c : Config}
    (hconfigs : t.configs = w.server.configs) (hnext : w.server.nextConfig ≤ t.nextConfig) (hid : c.id < t.nextConfig)
    (hnow : t.bench.host ∈ seen)
    (hentries : ∀ {key v}, (key, v) ∈ t.bench.settings →
      (key.1 = c.id ∧ c.compute t.bench.host key.2.path? = .ok v) ∨
        (key.1 ≠ c.id ∧ (key, v) ∈ w.server.bench.settings ∧ w.seen ⊆ seen)) :
    Coherent ⟨t.putConfig c, seen⟩ := by
  have hcases : ∀ {id c'}, (t.putConfig c).configAt? (some id) = some c' →
      (id = c.id ∧ c' = c) ∨ (id ≠ c.id ∧ w.server.configAt? (some id) = some c') := by
    intro id c' hc
    rw [Server.configAt?_putConfig] at hc
    split at hc
    · next heq => exact .inl ⟨heq, (Option.some.inj hc).symm⟩
    · next hne => exact .inr ⟨hne, by simpa only [Server.configAt?, hconfigs] using hc⟩
  refine ⟨(h.numbered.of_same hconfigs hnext).put hid, fun hmem => ?_, fun hmem hc => ?_, hnow⟩
  · rcases hentries hmem with ⟨heq, -⟩ | ⟨-, hold, -⟩
    · exact heq ▸ hid
    · exact Nat.lt_of_lt_of_le (h.used hold) hnext
  · rcases hcases hc with ⟨heq, rfl⟩ | ⟨hne, hold⟩
    · rcases hentries hmem with ⟨-, hcompute⟩ | ⟨hne, -⟩
      · exact ⟨_, hnow, hcompute⟩
      · exact absurd heq hne
    · rcases hentries hmem with ⟨heq, -⟩ | ⟨-, hmem, hseen⟩
      · exact absurd heq hne
      · obtain ⟨host, hhost, hcompute⟩ := h.entries hmem hold
        exact ⟨host, hseen hhost, hcompute⟩

theorem coherent_make {w : Watched} (h : Coherent w) (rootUri : String) (initOptions processId capabilities : Value) :
    Coherent (Act.next w (.make rootUri initOptions processId capabilities)) := by
  have hnew : ∀ query v, ((w.server.nextConfig, query), v) ∉ w.server.bench.settings :=
    fun query v hmem => Nat.lt_irrefl _ (h.used hmem)
  obtain ⟨hcreated, hhost, hentries⟩ := Config.perform_create w.server.nextConfig rootUri initOptions processId
    capabilities w.server.sources w.server.plugins hnew
  simp only [Act.next, Act.step, Act.forgets, perform_bind, perform_newConfig]
  rcases hrun : (Config.create w.server.nextConfig rootUri initOptions processId capabilities w.server.sources
    w.server.plugins).perform w.server.bench with ⟨r, bench⟩
  rw [hrun] at hcreated hhost hentries
  cases r with
  | error f =>
    -- What it left in the memory stands under a number that no configuration has.
    refine ⟨h.numbered.of_same rfl (Nat.le_succ _), fun hmem => ?_, fun hmem hc => ?_, List.mem_cons_self⟩
    · rcases hentries hmem with hold | ⟨hid, -⟩
      · exact Nat.lt_succ_of_lt (h.used hold)
      · exact Nat.lt_succ_of_le (Nat.le_of_eq hid)
    · rcases hentries hmem with hold | ⟨hid, -⟩
      · obtain ⟨host, hseen, hcompute⟩ := h.entries hold hc
        exact ⟨host, List.mem_cons_of_mem _ hseen, hcompute⟩
      · exact absurd (hid ▸ h.numbered.given hc) (Nat.lt_irrefl _)
  | ok c =>
    have hid : c.id = w.server.nextConfig := (Config.create_eq_ok hrun).1
    refine h.of_put (t := { w.server with nextConfig := w.server.nextConfig + 1, bench }) rfl (Nat.le_succ _)
      (Nat.lt_succ_of_le (Nat.le_of_eq hid)) List.mem_cons_self fun {key v} hmem => ?_
    rcases hentries hmem with hold | ⟨heq, hcompute⟩
    · refine .inr ⟨fun heq => ?_, hold, List.subset_cons_self _ _⟩
      exact Nat.lt_irrefl _ (hid ▸ heq ▸ h.used hold)
    · exact .inl ⟨heq.trans hid.symm, hhost ▸ hcompute c hcreated.symm⟩

theorem coherent_update {w : Watched} (h : Coherent w) (id : ConfigId) (client : Value) :
    Coherent (Act.next w (.update id client)) := by
  cases hc : w.server.configAt? (some id) with
  | none =>
    simp only [Act.next, Act.step, Act.forgets, hc, perform_updateConfig_none hc]
    exact h.of_same
  | some c =>
    obtain ⟨-, hconsults⟩ := c.run_update client w.server.bench
    obtain ⟨disabled, hupdated⟩ := c.updated_snd w.server.bench.host client
    have hid : c.id < w.server.nextConfig := by
      rw [h.numbered.own hc]
      exact h.numbered.given hc
    simp only [Act.next, Act.step, Act.forgets, hc, perform_updateConfig hc, hupdated]
    refine h.of_put rfl (Nat.le_refl _) hid (List.mem_singleton_self _) fun {key v} hmem => .inl ?_
    rcases hconsults.entries hmem with hold | ⟨heq, hcompute⟩
    · exact nomatch hold
    · exact ⟨heq, hconsults.host ▸ hcompute⟩

theorem coherent_ask {w : Watched} (h : Coherent w) (id : ConfigId) (query : Query) :
    Coherent (Act.next w (.ask id query)) := by
  cases hc : w.server.configAt? (some id) with
  | none =>
    have hfails : ((Act.ask id query).step.perform w.server).2 = w.server := by
      simp only [Act.step, perform_bind, perform_get, hc]
      rfl
    simp only [Act.next, Act.forgets, hfails]
    exact h.of_same
  | some c =>
    have hasks : ((Act.ask id query).step.perform w.server).2 =
        { w.server with bench := ((Job.settings c query).perform w.server.bench).2 } := by
      simp only [Act.step, perform_bind, perform_get, hc, perform_present_some, perform_job]
      cases ((Job.settings c query).perform w.server.bench).1 <;> rfl
    have hconsults := (Config.Consults.rest c w.server.bench).settings query
    simp only [Act.next, Act.forgets, hasks]
    refine h.of_same_configs rfl rfl List.mem_cons_self fun {key v} hmem => ?_
    rcases hconsults.entries hmem with hold | ⟨hid, hcompute⟩
    · exact .inl ⟨hold, List.subset_cons_self _ _⟩
    · refine .inr ⟨c, ?_, hconsults.host ▸ hcompute⟩
      rw [hid, h.numbered.own hc, hc]

/-- What an act may write, apart from which configuration is the service's and what waits for a timer. -/
def store (s : Server) : Table ConfigId Config × ConfigId × Bench := (s.configs, s.nextConfig, s.bench)

theorem keeps_lintRegistered (lints : Bool) (sources : List String) :
    Keeps store (if lints then do (← get).registered.forM fun (_, w) => lintAll w sources else pure ()) := by
  cases lints with
  | false => exact Moves.pure _
  | true =>
    refine Moves.bind Moves.get fun _ => Moves.forM _ fun entry _ => ?_
    exact Moves.forM _ fun uri _ => Moves.modify fun _ => rfl

/-- Files that changed: nothing but timers and the memory is touched. -/
theorem store_didChangeFiles (changes : Value) (s : Server) :
    store ((didChangeFiles changes).perform s).2 = (s.configs, s.nextConfig,
      if (Act.announce changes).forgets s then { s.bench with settings := [] } else s.bench) := by
  rw [didChangeFiles, perform_bind, perform_ofExcept]
  cases hread : changedUris changes with
  | error f => simp [Act.forgets, hread, Except.toOption, store]
  | ok uris =>
    cases hsettings : settingsChanged uris with
    | false =>
      have hforgets : (Act.announce changes).forgets s = false := by
        simp [Act.forgets, hread, Except.toOption, hsettings]
      simp only [hsettings, hforgets, Bool.false_eq_true, if_false]
      exact keeps_lintRegistered _ _ s
    | true =>
      simp only [hsettings, if_true, perform_bind, perform_get]
      cases hconfig : s.config with
      | none =>
        have hforgets : (Act.announce changes).forgets s = false := by simp [Act.forgets, hconfig]
        rw [hforgets]
        rfl
      | some id =>
        have hforgets : (Act.announce changes).forgets s = true := by
          simp [Act.forgets, hread, Except.toOption, hsettings, hconfig]
        simp only [hforgets, if_true, perform_present_some, perform_job]
        exact keeps_lintRegistered _ _ { s with bench := { s.bench with settings := [] } }

theorem coherent_announce {w : Watched} (h : Coherent w) (changes : Value) :
    Coherent (Act.next w (.announce changes)) := by
  have hstore := store_didChangeFiles changes w.server
  simp only [store, Prod.mk.injEq] at hstore
  obtain ⟨hconfigs, hnext, hbench⟩ := hstore
  simp only [Act.next, Act.step]
  cases hforgets : (Act.announce changes).forgets w.server with
  | true =>
    rw [hforgets, if_pos rfl] at hbench
    refine h.of_same_configs hconfigs hnext (List.mem_singleton_self _) fun hmem => ?_
    rw [hbench] at hmem
    exact nomatch hmem
  | false =>
    rw [hforgets, if_neg Bool.false_ne_true] at hbench
    refine h.of_same_configs hconfigs hnext List.mem_cons_self fun hmem => ?_
    rw [hbench] at hmem
    exact .inl ⟨hmem, List.subset_cons_self _ _⟩

/-- **One act keeps the memory coherent.** -/
theorem coherent_next {w : Watched} (h : Coherent w) (act : Act) : Coherent (Act.next w act) := by
  cases act with
  | make rootUri initOptions processId capabilities => exact coherent_make h _ _ _ _
  | ask id query => exact coherent_ask h id query
  | update id client => exact coherent_update h id client
  | announce changes => exact coherent_announce h changes
  | adopt id =>
    exact h.of_same_configs rfl rfl List.mem_cons_self fun hmem => .inl ⟨hmem, List.subset_cons_self _ _⟩
  | move host =>
    exact h.of_same_configs rfl rfl List.mem_cons_self fun hmem => .inl ⟨hmem, List.subset_cons_self _ _⟩

/-- **The memory stays coherent through any run.** -/
theorem coherent_watch {s : Server} (hconfigs : s.configs = []) (hmemory : s.bench.settings = []) (run : List Act) :
    Coherent (watch s run) := by
  have hrun : ∀ w, Coherent w → Coherent (run.foldl Act.next w) := by
    induction run with
    | nil => exact fun w hw => hw
    | cons act rest ih => exact fun w hw => ih _ (coherent_next hw act)
  have hnone : ∀ id, s.configAt? (some id) = none := fun id => by simp [Server.configAt?, hconfigs]
  refine hrun _ ⟨⟨fun hc => ?_, fun hc => ?_⟩, ?_, ?_, List.mem_singleton_self _⟩
  · cases (hnone _).symm.trans hc
  · cases (hnone _).symm.trans hc
  · intro key v hmem
    rw [hmemory] at hmem
    cases hmem
  · intro key v c hmem
    rw [hmemory] at hmem
    cases hmem

/-- What is remembered of a configuration is current while the settings files stay the same. -/
theorem Coherent.current {w : Watched} (h : Coherent w) (hsame : w.Undisturbed) {id : ConfigId} {c : Config}
    (hc : w.server.configAt? (some id) = some c) : c.Current w.server.bench := by
  intro query v hmem
  have hown : w.server.configAt? (some c.id) = some c := by rw [h.numbered.own hc, hc]
  obtain ⟨host, hhost, hcompute⟩ := h.entries hmem hown
  rw [(hsame host hhost).compute_congr c]
  exact hcompute

/-- **Nobody can tell that settings are remembered.** After any run, settings are answered as computing them now would
answer, if the settings files have stayed the same since the memory was last emptied; and new settings and new
configurations turn out as they would without a memory, in any case. -/
theorem settings_as_if_uncached {s : Server} (hconfigs : s.configs = []) (hmemory : s.bench.settings = [])
    (run : List Act) :
    ((watch s run).Undisturbed → ∀ id c query, (watch s run).server.configAt? (some id) = some c →
      ((Job.settings c query).perform (watch s run).server.bench).1 =
        c.compute (watch s run).server.bench.host query.path?) ∧
    (∀ (c : Config) client, (Id.run ((c.update client).run (watch s run).server.bench)).1 =
      c.updated (watch s run).server.bench.host client) ∧
    ∀ rootUri initOptions processId capabilities sources plugins,
      ((Config.create (watch s run).server.nextConfig rootUri initOptions processId capabilities sources
          plugins).perform (watch s run).server.bench).1 =
        Config.created (watch s run).server.bench.host (watch s run).server.nextConfig rootUri initOptions processId
          capabilities sources plugins := by
  have hcoherent : Coherent (watch s run) := coherent_watch hconfigs hmemory run
  refine ⟨fun hsame id c query hc => ?_, fun c client => (c.run_update client _).1, ?_⟩
  · have hcurrent : c.Current (watch s run).server.bench := hcoherent.current hsame hc
    exact (Config.answers_settings hcurrent query _ (Config.Consults.rest c _)).1
  · intro rootUri initOptions processId capabilities sources plugins
    have hnew : ∀ query v, (((watch s run).server.nextConfig, query), v) ∉ (watch s run).server.bench.settings :=
      fun query v hmem => Nat.lt_irrefl _ (hcoherent.used hmem)
    exact (Config.perform_create _ rootUri initOptions processId capabilities sources plugins hnew).1

/-- A project whose settings file allows lines of some length. -/
def lineLength (n : String) : Host where
  files := { files := [("/ws/setup.cfg", .text ("[pycodestyle]\nmax-line-length = " ++ n ++ "\n"))] }

/-- A service in such a project, before it has any configuration. -/
def freshService : Server where
  plugins := []
  bench := { host := lineLength "77" }

/-- A configuration is made and asked, and the settings file changes behind its back. -/
def unannounced : List Act :=
  [.make "file:///ws" .null .null .null, .adopt 0, .ask 0 .plain, .move (lineLength "99")]

/-- The client tells of it. -/
def announcement : Act := .announce (.list [.dict [("uri", .str "file:///ws/setup.cfg")]])

/-- What the configuration answers. -/
def answered (w : Watched) : Option Value :=
  (w.server.configAt? (some 0)).bind fun c => ((Job.settings c .plain).perform w.server.bench).1.toOption

/-- Before the client tells, the old settings are answered; afterwards those of the file as it is. -/
theorem settings_as_if_uncached_announced_change :
    answered (watch freshService unannounced) =
        some (.dict [("plugins", .dict [("pycodestyle", .dict [("maxLineLength", .int 77)])])]) ∧
      answered (watch freshService (unannounced ++ [announcement])) =
        some (.dict [("plugins", .dict [("pycodestyle", .dict [("maxLineLength", .int 99)])])]) ∧
      (watch freshService (unannounced ++ [announcement])).Undisturbed ∧
      ∃ c, (watch freshService (unannounced ++ [announcement])).server.configAt? (some 0) = some c ∧
        ((Job.settings c .plain).perform (watch freshService (unannounced ++ [announcement])).server.bench).1 =
          c.compute (watch freshService (unannounced ++ [announcement])).server.bench.host none := by
  have hforgets : announcement.forgets (watch freshService unannounced).server = true := by decide +kernel
  have hundisturbed : (watch freshService (unannounced ++ [announcement])).Undisturbed := by
    intro host hhost
    rw [watch, List.foldl_append] at hhost ⊢
    simp only [List.foldl_cons, List.foldl_nil, Act.next] at hhost ⊢
    change host ∈ (if announcement.forgets (watch freshService unannounced).server then [_] else _) at hhost
    rw [hforgets, if_pos rfl, List.mem_singleton] at hhost
    rw [hhost]
    exact Host.SameSettingsFiles.refl _
  have hanswered : answered (watch freshService (unannounced ++ [announcement])) =
      some (.dict [("plugins", .dict [("pycodestyle", .dict [("maxLineLength", .int 99)])])]) := by decide +kernel
  obtain ⟨c, hc, -⟩ := Option.bind_eq_some_iff.mp hanswered
  refine ⟨by decide +kernel, hanswered, hundisturbed, c, hc, ?_⟩
  exact (settings_as_if_uncached rfl rfl _).1 hundisturbed 0 c .plain hc

end EditorService.Memory
