import EditorService.Proofs.Homes
import EditorService.Proofs.SettingsMemory

/-!
# One set of client settings

The client sends its settings once for the whole service, but each folder has a configuration of its own that holds
them. A message with settings gives them to the configuration of the service, to that of every folder, and to that of
the home of every open document; a folder that is opened later takes them over from the service.

**The law** (`client_settings_agree`): the service and all its folders hold the settings that the client sent last,
through all messages, folder events and changes of the root, as long as no configuration refuses settings that are sent
to it. A folder event needs no such assumption: a folder whose configuration refuses the settings is not opened.
-/

namespace EditorService

namespace Server

/-- A configuration holds the client's settings `v`. -/
def HasClient (s : Server) (id : Option ConfigId) (v : Value) : Prop := ∃ c, s.configAt? id = some c ∧ c.client = v

/-- **The service and its folders hold the same settings of the client.** -/
structure Uniform (v : Value) (s : Server) : Prop where
  equipped : s.Equipped
  numbered : s.Numbered
  own : s.HasClient s.config v
  each : ∀ {uri id w}, (uri, id) ∈ s.folders → s.layout.bare id = some w → s.HasClient w.config v

/-- The configurations of a service, and which of them is its own. -/
def governing (s : Server) : Option ConfigId × Table ConfigId Config × ConfigId := (s.config, s.configs, s.nextConfig)

/-- The folders stay as they are, and so do the settings that are held. -/
theorem Uniform.of_clients {s t : Server} {v : Value} (h : Uniform v s) (hsteady : Steady s t) (hnumbered : t.Numbered)
    (hkept : ∀ {id}, s.HasClient id v → t.HasClient id v) : Uniform v t where
  equipped := h.equipped.of_steady hsteady
  numbered := hnumbered
  own := by
    rw [hsteady.config]
    exact hkept h.own
  each {uri id w} hmem hw := by
    rw [Service.folders_of_steady h.equipped hsteady] at hmem
    rw [hsteady.layout h.equipped.sound] at hw
    exact hkept (h.each hmem hw)

theorem Uniform.of_governing {s t : Server} {v : Value} (h : Uniform v s) (hsteady : Steady s t)
    (hsame : t.governing = s.governing) : Uniform v t := by
  have hconfigs : t.configs = s.configs := congrArg (·.2.1) hsame
  have hnext : t.nextConfig = s.nextConfig := congrArg (·.2.2) hsame
  refine h.of_clients hsteady (h.numbered.of_same hconfigs (Nat.le_of_eq hnext.symm)) fun hclient => ?_
  simpa only [HasClient, configAt?, hconfigs] using hclient

/-- A number is given out. -/
theorem Uniform.next {s : Server} {v : Value} (h : Uniform v s) (bench : Bench) :
    Uniform v { s with nextConfig := s.nextConfig + 1, bench } :=
  h.of_clients ⟨fun _ => rfl, rfl, rfl, fun hc => hc⟩ (h.numbered.of_same rfl (Nat.le_succ _)) fun hclient => hclient

/-- A new configuration is put under its number. -/
theorem Uniform.putNew {s : Server} {v : Value} (h : Uniform v s) (bench : Bench) {c : Config}
    (hid : c.id = s.nextConfig) :
    Uniform v (({ s with nextConfig := s.nextConfig + 1, bench } : Server).putConfig c) := by
  have hlt : c.id < s.nextConfig + 1 := Nat.lt_succ_of_le (Nat.le_of_eq hid)
  refine (h.next bench).of_clients (steady_putConfig _ c) ((h.next bench).numbered.put hlt) fun {id} hclient => ?_
  obtain ⟨c', hc', hv⟩ := hclient
  cases id with
  | none => exact nomatch hc'
  | some id =>
    have hne : id ≠ c.id := fun heq => Nat.lt_irrefl _ (heq.trans hid ▸ h.numbered.given hc')
    rw [HasClient, configAt?_putConfig, if_neg hne]
    exact ⟨c', hc', hv⟩

/-- A new folder, with a configuration that holds the settings. -/
theorem Uniform.withFolder {s : Server} {v : Value} (h : Uniform v s) (uri : String) {w : Workspace}
    (hid : w.id = s.nextWorkspace) (hempty : w.documents = []) (hconfig : s.HasClient w.config v) :
    Uniform v (s.withFolder uri w) where
  equipped := by
    obtain ⟨c, hc, -⟩ := hconfig
    exact (opening_withFolder h.equipped uri hid hempty (Option.isSome_iff_exists.mpr ⟨c, hc⟩)).equipped
  numbered := h.numbered.of_same rfl (Nat.le_refl _)
  own := h.own
  each {u id w'} hmem hw := by
    have hbare := bare_withFolder s uri w id
    rw [hw] at hbare
    split at hbare
    · cases hbare
      exact hconfig
    · next hne =>
      rcases Table.mem_put hmem with heq | hold
      · exact absurd (congrArg Prod.snd heq) hne
      · exact h.each hold hbare.symm

/-- **Some configurations have been given the settings `v`**, and nothing else changed but timers. -/
structure Told (v : Value) (s t : Server) : Prop where
  steady : Steady s t
  store : t.store = s.store
  host : t.bench.host = s.bench.host
  numbered : s.Numbered → t.Numbered
  configs : ∀ {id c}, s.configAt? (some id) = some c → ∃ client disabled,
    t.configAt? (some id) = some { c with client, disabled } ∧ (c.client = v → client = v)

/-- No configuration has been given them. -/
theorem told_of_same {s t : Server} {v : Value} (hholdings : t.holdings = s.holdings)
    (hnext : t.nextConfig = s.nextConfig) (hhost : t.bench.host = s.bench.host) : Told v s t where
  steady := Service.steady_of_holdings hholdings
  store := congrArg Holdings.store hholdings
  host := hhost
  numbered h := h.of_same (congrArg Holdings.configs hholdings) (Nat.le_of_eq hnext.symm)
  configs {id c} hc := by
    have hconfigs : t.configs = s.configs := congrArg Holdings.configs hholdings
    refine ⟨c.client, c.disabled, ?_, fun h => h⟩
    rw [configAt?, hconfigs]
    exact hc

instance (v : Value) : Service.Drift (Told v) where
  rest s := told_of_same rfl rfl rfl
  chain hst htu :=
    { steady := Service.Drift.chain hst.steady htu.steady
      store := htu.store.trans hst.store
      host := htu.host.trans hst.host
      numbered := fun h => htu.numbered (hst.numbered h)
      configs := fun hc => by
        obtain ⟨client, disabled, ht, hclient⟩ := hst.configs hc
        obtain ⟨client', disabled', hu, hclient'⟩ := htu.configs ht
        exact ⟨client', disabled', hu, fun h => hclient' (hclient h)⟩ }

theorem HasClient.of_told {s t : Server} {id : Option ConfigId} {v : Value} (h : s.HasClient id v)
    (htold : Told v s t) : t.HasClient id v := by
  obtain ⟨c, hc, hclient⟩ := h
  cases id with
  | none => exact nomatch hc
  | some id =>
    obtain ⟨client, disabled, ht, hkept⟩ := htold.configs hc
    exact ⟨_, ht, hkept hclient⟩

theorem Uniform.of_told {s t : Server} {v : Value} (h : Uniform v s) (htold : Told v s t) : Uniform v t :=
  h.of_clients htold.steady (htold.numbered h.numbered) fun hclient => hclient.of_told htold

theorem told_putConfig {s : Server} (hs : s.Numbered) {id : ConfigId} {c : Config} (v : Value) {bench : Bench}
    (disabled : List (Option String)) (hc : s.configAt? (some id) = some c) (hhost : bench.host = s.bench.host) :
    Told v s (({ s with bench } : Server).putConfig { c with client := v, disabled }) ∧
      (({ s with bench } : Server).putConfig { c with client := v, disabled }).HasClient (some id) v := by
  have hid : c.id = id := hs.own hc
  have hat : ∀ other, (({ s with bench } : Server).putConfig { c with client := v, disabled }).configAt? (some other) =
      if other = id then some { c with client := v, disabled } else s.configAt? (some other) := by
    intro other
    rw [configAt?_putConfig]
    exact if_congr (by rw [← hid]) rfl rfl
  refine ⟨⟨?_, rfl, hhost, fun _ => ?_, fun {other c'} hc' => ?_⟩, { c with client := v, disabled }, ?_, rfl⟩
  · exact Service.Drift.chain (Service.Idle.bench s bench) (steady_putConfig _ _)
  · have hbench : ({ s with bench } : Server).Numbered := hs.of_same rfl (Nat.le_refl _)
    refine hbench.put ?_
    change c.id < s.nextConfig
    rw [hid]
    exact hs.given hc
  · rw [hat]
    split
    · next heq =>
      cases heq
      cases hc.symm.trans hc'
      exact ⟨v, disabled, rfl, fun _ => rfl⟩
    · exact ⟨c'.client, c'.disabled, hc', fun h => h⟩
  · rw [hat, if_pos rfl]

/-- The drift of a folder event. -/
def Unifies (v : Value) (s t : Server) : Prop := Uniform v s → Uniform v t

instance (v : Value) : Service.Idle (Unifies v) where
  rest _ hs := hs
  chain hst htu hs := htu (hst hs)
  bench s bench hs := hs.of_governing (Service.Idle.bench s bench) rfl

end Server

namespace Service

open EditorService.Server

instance : Idle (Same Server.governing) where
  bench _ _ := rfl

variable {v : Value}

/-! ## Folder events -/

theorem unifies_closeFolder (entry : Value) : Moves (Unifies v) (closeFolder entry) := by
  intro s hs
  have hequipped := equips_closeFolder entry s hs.equipped
  unfold closeFolder at hequipped ⊢
  split
  · exact ⟨hequipped, hs.numbered.of_same rfl (Nat.le_refl _), hs.own, fun hmem hw =>
      hs.each (List.mem_filter.mp hmem).1 hw⟩
  · exact hs
  · exact hs
  · exact hs

theorem unifies_moveRoot (uri : String) : Moves (Unifies v) (moveRoot uri) := by
  intro s hs
  have hequipped := equips_moveRoot uri s hs.equipped
  cases hfolder : Table.get? s.folders uri with
  | none =>
    simp only [moveRoot, perform_bind, perform_modify, perform_get, hfolder] at hequipped ⊢
    exact ⟨hequipped, hs.numbered.of_same rfl (Nat.le_refl _), hs.own, hs.each⟩
  | some id =>
    obtain ⟨w, hw⟩ := workspace_of_live hs.equipped.sound (Or.inr ⟨uri, hfolder⟩)
    have hown : s.HasClient w.emptied.config v := hs.each (Table.mem_of_get? hfolder) (bare_of_get hw)
    simp only [moveRoot, perform_bind, perform_modify, perform_get, hfolder, hw, perform_present_some] at hequipped ⊢
    exact ⟨hequipped, hs.numbered.of_same rfl (Nat.le_refl _), hown, hs.each⟩

/-- A new configuration has no settings of the client yet, but nothing refers to it. -/
theorem uniform_newConfig {s t : Server} (hs : Uniform v s) {rootUri : String}
    {initOptions processId capabilities : Value} {r : Except Fault Config}
    (h : (newConfig rootUri initOptions processId capabilities).perform s = (r, t)) :
    Uniform v t ∧ ∀ c, r = .ok c → t.configAt? (some c.id) = some c := by
  obtain ⟨bench, ⟨f, hrun⟩ | ⟨c, hid, -, hrun⟩⟩ := newConfig_cases rootUri initOptions processId capabilities s
  · cases h.symm.trans hrun
    exact ⟨hs.next bench, nofun⟩
  · cases h.symm.trans hrun
    refine ⟨hs.putNew bench hid, ?_⟩
    rintro _ ⟨⟩
    rw [configAt?_putConfig, if_pos rfl]

/-- A configuration is given settings. It has them even if it refuses them. -/
theorem told_updateConfig {s : Server} (hs : s.Numbered) {id : ConfigId} {c : Config}
    (hc : s.configAt? (some id) = some c) (v : Value) :
    Told v s ((updateConfig id v).perform s).2 ∧ ((updateConfig id v).perform s).2.HasClient (some id) v := by
  obtain ⟨disabled, hupdated⟩ := c.updated_snd s.bench.host v
  rw [perform_updateConfig hc, hupdated]
  exact told_putConfig (c := c) hs v disabled hc (c.run_update v s.bench).2.host

/-- A folder is opened with the settings that the service has. -/
theorem unifies_openFolder (uri : String) : Moves (Unifies v) (openFolder uri) := by
  refine Moves.get_bind fun s => Drift.present_bind fun own hown hs => ?_
  have hclient : own.client = v := by
    obtain ⟨c, hc, hv⟩ := hs.own
    cases hown.symm.trans hc
    exact hv
  rw [perform_bind]
  rcases hnew : (newConfig uri own.initOptions own.processId own.capabilities).perform s with ⟨r, t⟩
  obtain ⟨ht, hthere⟩ := uniform_newConfig hs hnew
  cases r with
  | error f => exact ht
  | ok c =>
    obtain ⟨htold, hhas⟩ := told_updateConfig ht.numbered (hthere c rfl) v
    rw [hclient]
    change Uniform v ((updateConfig c.id v >>= fun _ => newWorkspace uri c.id >>= register uri).perform t).2
    rw [perform_bind]
    rcases hupdate : (updateConfig c.id v).perform t with ⟨r, u⟩
    rw [hupdate] at htold hhas
    have hu : Uniform v u := ht.of_told htold
    cases r with
    | error f => exact hu
    | ok _ =>
      change Uniform v ((newWorkspace uri c.id >>= register uri).perform u).2
      rcases perform_newFolder uri c.id u with hsame | ⟨w, hcreate, hopened⟩
      · rw [hsame]
        exact hu
      · obtain ⟨hid, hempty, hconfig⟩ := create_eq_ok hcreate
        rw [hopened]
        exact hu.withFolder uri hid hempty (hconfig ▸ hhas)

theorem unifies_changeFolders (event : Value) : Moves (Unifies v) (changeFolders event) := by
  have harranged := moves_arrangeFolders (unifies_closeFolder (v := v)) unifies_openFolder unifies_moveRoot event
  refine Moves.bind harranged fun _ s hs => ?_
  obtain ⟨t, hrun, hsteady⟩ := steady_moveDocuments hs.equipped.sound
  have hsame : Keeps Server.governing moveDocuments := moves_moveDocuments fun _ _ => rfl
  have hkept := hsame s
  rw [hrun] at hkept ⊢
  exact hs.of_governing hsteady hkept

/-! ## Messages without settings -/

theorem keeps_close_governing : Keeps Server.governing close :=
  Moves.bind (Moves.modify fun _ => rfl) fun _ => Moves.modify fun _ => rfl

theorem keeps_handle_governing {method : Method} (hstart : method ≠ .start) (hfolders : method ≠ .didChangeFolders)
    (hsettings : method ≠ .didChangeConfiguration) (params : Params) : Keeps Server.governing (handle method params) :=
  moves_handle (R := Same Server.governing) {
    writes := fun _ _ _ _ _ _ _ => rfl
    lints := fun _ _ => Moves.modify fun _ => rfl
    updates := fun h => absurd h hsettings
    stops := fun _ _ => rfl
    ends := fun _ => keeps_close_governing } hstart hfolders params

end Service

/-! ## Settings -/

namespace Config

/-- Whether settings are refused does not depend on those that a configuration had. -/
theorem updated_fst (c : Config) (before : Value) (disabled : List (Option String)) (host : Host) (client : Value) :
    (({ c with client := before, disabled } : Config).updated host client).1 = (c.updated host client).1 := by
  have hafresh : (({ c with client := before, disabled } : Config).withClient client).disabledAfresh host =
      (c.withClient client).disabledAfresh host := rfl
  simp only [updated, hafresh]
  cases (c.withClient client).disabledAfresh host <;> rfl

end Config

namespace Server

/-- The configuration of the home of a document. -/
def configOf? (s : Server) (d : Document) : Option ConfigId := (Table.get? s.workspaces d.home).bind (·.config)

/-- The configurations that are given the settings for a workspace: its own, and those of the homes of its documents. -/
def addressedFor (s : Server) (w : Workspace) : List ConfigId :=
  w.config.toList ++ w.documents.values.flatMap fun d => (s.configOf? d).toList

/-- **The configurations that are given the settings of a message.** -/
def addressed (s : Server) : List ConfigId :=
  s.config.toList ++ s.registered.flatMap fun entry => s.addressedFor entry.2

/-- **Each of these configurations accepts the settings `v`**: its update with them succeeds. -/
def accepts (s : Server) (host : Host) (v : Value) : Bool :=
  s.addressed.all fun id => (s.configAt? (some id)).all fun c =>
    (Id.run ((c.update v).run { s.bench with host })).1.1.isOk

theorem mem_registered {s : Server} {uri : String} {w : Workspace} :
    (uri, w) ∈ s.registered ↔ ∃ id, (uri, id) ∈ s.folders ∧ Table.get? s.workspaces id = some w := by
  simp [registered]

theorem registered_of_store {s t : Server} (h : t.store = s.store) : t.registered = s.registered := by
  have hfolders : t.folders = s.folders := congrArg Store.folders h
  have hworkspaces : t.workspaces = s.workspaces := congrArg Store.workspaces h
  rw [registered, registered, hfolders, hworkspaces]

theorem isSome_of_configAt? {s : Server} {id : Option ConfigId} (h : (s.configAt? id).isSome) : id.isSome := by
  cases id with
  | none => exact nomatch h
  | some id => rfl

/-- Every workspace has a configuration that is there. -/
theorem Equipped.of_workspace {s : Server} (hs : s.Equipped) {id : WorkspaceId} {w : Workspace}
    (hw : Table.get? s.workspaces id = some w) : (s.configAt? w.config).isSome :=
  hs.each (w := w.emptied) (bare_of_get hw)

/-- The configurations that are given settings are there. -/
theorem Equipped.of_addressed {s : Server} (hs : s.Equipped) {id : ConfigId} (hid : id ∈ s.addressed) :
    (s.configAt? (some id)).isSome := by
  have hthere : ∀ {i w}, Table.get? s.workspaces i = some w → w.config = some id → (s.configAt? (some id)).isSome :=
    fun hw hconfig => hconfig ▸ hs.of_workspace hw
  rcases List.mem_append.mp hid with hid | hid
  · have hown := hs.own
    rwa [ownConfig?, Option.mem_toList.mp hid] at hown
  · obtain ⟨⟨uri, w⟩, hw, hid⟩ := List.mem_flatMap.mp hid
    obtain ⟨i, -, hi⟩ := mem_registered.mp hw
    rcases List.mem_append.mp hid with hid | hid
    · exact hthere hi (Option.mem_toList.mp hid)
    · obtain ⟨d, -, hid⟩ := List.mem_flatMap.mp hid
      obtain ⟨home, hhome, hconfig⟩ := Option.bind_eq_some_iff.mp (Option.mem_toList.mp hid)
      exact hthere hhome hconfig

theorem updated_of_accepts {s : Server} {host : Host} {v : Value} (h : s.accepts host v = true) {id : ConfigId}
    (hid : id ∈ s.addressed) {c : Config} (hc : s.configAt? (some id) = some c) : (c.updated host v).1 = .ok () := by
  have hok := List.all_eq_true.mp h id hid
  rw [hc, Option.all_some, (c.run_update v _).1] at hok
  cases hresult : (c.updated host v).1 with
  | ok _ => rfl
  | error f =>
    rw [hresult] at hok
    exact nomatch hok

end Server

namespace Service

open EditorService.Server

variable {v : Value} {s : Server}

/-- **A step gives settings to configurations**, and succeeds, wherever others have been given them before. -/
def Tells (v : Value) (s : Server) (ids : List ConfigId) (step : Service Unit) : Prop :=
  ∀ t, Told v s t → ∃ u, step.perform t = (.ok (), u) ∧ Told v t u ∧ ∀ id ∈ ids, u.HasClient (some id) v

namespace Tells

theorem bind {ids later : List ConfigId} {first : Service Unit} {second : Unit → Service Unit}
    (h : Tells v s ids first) (k : Tells v s later (second ())) : Tells v s (ids ++ later) (first >>= second) := by
  intro t ht
  obtain ⟨u, hfirst, hu, hids⟩ := h t ht
  obtain ⟨w, hsecond, hw, hlater⟩ := k u (Drift.chain ht hu)
  refine ⟨w, perform_bind_eq_ok.mpr ⟨(), u, hfirst, hsecond⟩, Drift.chain hu hw, fun id hid => ?_⟩
  rcases List.mem_append.mp hid with hid | hid
  · exact (hids id hid).of_told hw
  · exact hlater id hid

/-- A part that only looks. -/
theorem look_bind {α : Type} {ids : List ConfigId} {first : Service α} {second : α → Service Unit}
    (h : ∀ t, Told v s t → ∃ a, first.perform t = (.ok a, t) ∧ Tells v s ids (second a)) :
    Tells v s ids (first >>= second) := by
  intro t ht
  obtain ⟨a, hfirst, hsecond⟩ := h t ht
  obtain ⟨u, hrun, hu⟩ := hsecond t ht
  exact ⟨u, perform_bind_eq_ok.mpr ⟨a, t, hfirst, hrun⟩, hu⟩

theorem fewer {ids fewer : List ConfigId} {step : Service Unit} (h : Tells v s ids step)
    (hsub : ∀ id ∈ fewer, id ∈ ids) : Tells v s fewer step := by
  intro t ht
  obtain ⟨u, hrun, hu, hids⟩ := h t ht
  exact ⟨u, hrun, hu, fun id hid => hids id (hsub id hid)⟩

theorem pure : Tells v s [] (pure ()) := fun t _ => ⟨t, rfl, Drift.rest t, nofun⟩

theorem forM {α : Type} {ids : α → List ConfigId} {step : α → Service Unit} {xs : List α}
    (h : ∀ x ∈ xs, Tells v s (ids x) (step x)) : Tells v s (xs.flatMap ids) (xs.forM step) := by
  induction xs with
  | nil => exact pure
  | cons x rest ih =>
    have hrest := ih fun y hy => h y (List.mem_cons_of_mem x hy)
    exact (h x List.mem_cons_self).bind hrest

end Tells

theorem tells_lintLater (uri : String) (saved : Bool) : Tells v s [] (lintLater uri saved) :=
  fun _ _ => ⟨_, rfl, told_of_same rfl rfl rfl, nofun⟩

theorem tells_lintAll (w : Workspace) (except : List String) : Tells v s [] (lintAll w except) :=
  (Tells.forM fun uri _ => tells_lintLater uri false).fewer nofun

/-- One configuration is given the settings. -/
theorem tells_updateConfig (hs : s.Numbered) {id : ConfigId} {c : Config} (hc : s.configAt? (some id) = some c)
    (haccepts : (c.updated s.bench.host v).1 = .ok ()) : Tells v s [id] (updateConfig id v) := by
  intro t ht
  obtain ⟨client, disabled, hthere, -⟩ := ht.configs hc
  obtain ⟨htold, hhas⟩ := told_updateConfig (ht.numbered hs) hthere v
  refine ⟨_, Prod.ext ?_ rfl, htold, fun other hother => ?_⟩
  · rw [perform_updateConfig hthere, ht.host, Config.updated_fst, haccepts]
  · cases List.mem_singleton.mp hother
    exact hhas

/-- The configurations for a workspace are given the settings. -/
theorem tells_updateWorkspace {settings : Value} (hv : ownSettings settings = ofExcept (.ok v)) {w : Workspace}
    (hown : w.config.isSome) (hhomes : ∀ d ∈ w.documents.values, (s.configOf? d).isSome)
    (hgive : ∀ id ∈ s.addressedFor w, Tells v s [id] (updateConfig id v)) :
    Tells v s (s.addressedFor w) (updateWorkspace w settings) := by
  obtain ⟨own, hown⟩ := Option.isSome_iff_exists.mp hown
  have hfor : s.addressedFor w = [own] ++ w.documents.values.flatMap fun d => (s.configOf? d).toList := by
    rw [addressedFor, hown]
    rfl
  rw [hfor] at hgive ⊢
  rw [updateWorkspace, hown, hv]
  refine Tells.look_bind fun _ _ => ⟨own, rfl, Tells.look_bind fun _ _ => ⟨v, rfl, ?_⟩⟩
  refine (hgive own (List.mem_append_left _ List.mem_cons_self)).bind (Tells.forM fun d hd => ?_)
  obtain ⟨home, hhome⟩ := Option.isSome_iff_exists.mp (hhomes d hd)
  have hmem : home ∈ (s.configOf? d).toList := Option.mem_toList.mpr hhome
  refine Tells.look_bind fun t ht => ⟨some home, ?_, ?_⟩
  · have hworkspaces : t.workspaces = s.workspaces := congrArg Store.workspaces ht.store
    simp only [documentConfig, perform_bind, perform_get, perform_pure, hworkspaces]
    exact congrArg (fun found => (Except.ok found, t)) hhome
  · refine Tells.look_bind fun _ _ => ⟨home, rfl, Tells.look_bind fun _ _ => ⟨v, rfl, ?_⟩⟩
    rw [hhome]
    exact hgive home (List.mem_append_right _ (List.mem_flatMap.mpr ⟨d, hd, hmem⟩))

/-- **A message with settings**: all configurations that it addresses are given them. -/
theorem tells_didChangeConfiguration (hs : s.Equipped) (hhoused : s.Housed) (hnumbered : s.Numbered) {settings : Value}
    (hv : ownSettings settings = ofExcept (.ok v)) (haccepts : s.accepts s.bench.host v = true) :
    Tells v s s.addressed (didChangeConfiguration settings) := by
  have hgive : ∀ id ∈ s.addressed, Tells v s [id] (updateConfig id v) := by
    intro id hid
    obtain ⟨c, hc⟩ := Option.isSome_iff_exists.mp (hs.of_addressed hid)
    exact tells_updateConfig hnumbered hc (updated_of_accepts haccepts hid hc)
  obtain ⟨own, hown⟩ := Option.isSome_iff_exists.mp (isSome_of_configAt? hs.own)
  have haddressed : s.addressed = [own] ++ s.registered.flatMap fun entry => s.addressedFor entry.2 := by
    rw [addressed, hown]
    rfl
  rw [haddressed] at hgive ⊢
  refine Tells.look_bind fun t ht => ⟨t, rfl, ?_⟩
  rw [ht.steady.config, hown, hv]
  refine Tells.look_bind fun _ _ => ⟨own, rfl, Tells.look_bind fun _ _ => ⟨v, rfl, ?_⟩⟩
  refine (hgive own (List.mem_append_left _ List.mem_cons_self)).bind ?_
  refine Tells.look_bind fun t ht => ⟨t, rfl, ?_⟩
  rw [registered_of_store ht.store]
  refine Tells.forM fun entry hentry => ?_
  obtain ⟨id, -, hid⟩ := mem_registered.mp hentry
  have hworkspace : Tells v s (s.addressedFor entry.2) (updateWorkspace entry.2 settings) := by
    refine tells_updateWorkspace hv (isSome_of_configAt? (hs.of_workspace hid)) (fun d hd => ?_) fun id hid => ?_
    · obtain ⟨home, hhome⟩ := Option.isSome_iff_exists.mp (hhoused.home hid hd)
      rw [configOf?, hhome]
      exact isSome_of_configAt? (hs.of_workspace hhome)
    · exact hgive id (List.mem_append_right _ (List.mem_flatMap.mpr ⟨entry, hentry, hid⟩))
  exact (hworkspace.bind (tells_lintAll entry.2 [])).fewer fun id hid => List.mem_append_left _ hid

/-- **After a message with settings**, the service and its folders hold them. -/
theorem uniform_didChangeConfiguration {before : Value} (hs : Uniform before s) (hhoused : s.Housed) {settings : Value}
    (hv : ownSettings settings = ofExcept (.ok v)) (haccepts : s.accepts s.bench.host v = true) :
    Uniform v ((didChangeConfiguration settings).perform s).2 := by
  obtain ⟨t, hrun, htold, hall⟩ :=
    tells_didChangeConfiguration hs.equipped hhoused hs.numbered hv haccepts s (Drift.rest s)
  have hgiven : ∀ id, (s.configAt? id).isSome → (∀ c, id = some c → c ∈ s.addressed) → t.HasClient id v := by
    intro id hthere hmem
    obtain ⟨c, rfl⟩ := Option.isSome_iff_exists.mp (isSome_of_configAt? hthere)
    exact hall c (hmem c rfl)
  rw [hrun]
  refine ⟨hs.equipped.of_steady htold.steady, htold.numbered hs.numbered, ?_, fun {uri id w} hmem hw => ?_⟩
  · rw [htold.steady.config]
    exact hgiven s.config hs.equipped.own fun c hc => List.mem_append_left _ (Option.mem_toList.mpr hc)
  · rw [folders_of_steady hs.equipped htold.steady] at hmem
    rw [htold.steady.layout hs.equipped.sound] at hw
    obtain ⟨w, hget, rfl⟩ := Option.map_eq_some_iff.mp hw
    refine hgiven w.config (hs.equipped.of_workspace hget) fun c hc => ?_
    refine List.mem_append_right _ (List.mem_flatMap.mpr ?_)
    exact ⟨(uri, w), mem_registered.mpr ⟨id, hmem, hget⟩, List.mem_append_left _ (Option.mem_toList.mpr hc)⟩

end Service

/-! ## The start -/

namespace Server

/-- **No configuration has settings of the client yet.** -/
structure Untold (s : Server) : Prop where
  numbered : s.Numbered
  empty : ∀ id c, s.configAt? id = some c → c.client = .dict []

/-- The drift of a service that has been sent no settings. -/
def StaysUntold (s t : Server) : Prop := s.Untold → t.Untold

theorem staysUntold_of_configs {s t : Server} (hconfigs : t.configs = s.configs) (hnext : s.nextConfig ≤ t.nextConfig) :
    StaysUntold s t := fun hs =>
  ⟨hs.numbered.of_same hconfigs hnext, fun id c hc => hs.empty id c (by simpa only [configAt?, hconfigs] using hc)⟩

instance : Service.Idle StaysUntold where
  rest _ hs := hs
  chain hst htu hs := htu (hst hs)
  bench _ _ := staysUntold_of_configs rfl (Nat.le_refl _)

end Server

namespace Service

open EditorService.Server

theorem staysUntold_newConfig (rootUri : String) (initOptions processId capabilities : Value) :
    Moves StaysUntold (newConfig rootUri initOptions processId capabilities) := by
  intro s hs
  obtain ⟨bench, hrun⟩ := newConfig_cases rootUri initOptions processId capabilities s
  have hnext : ({ s with nextConfig := s.nextConfig + 1, bench } : Server).Untold :=
    staysUntold_of_configs (s := s) rfl (Nat.le_succ _) hs
  rcases hrun with ⟨f, hrun⟩ | ⟨c, hid, hempty, hrun⟩
  · rw [hrun]
    exact hnext
  · rw [hrun]
    refine ⟨hnext.numbered.put (Nat.lt_succ_of_le (Nat.le_of_eq hid)), fun id c' hc' => ?_⟩
    cases id with
    | none => exact nomatch hc'
    | some id =>
      rw [configAt?_putConfig] at hc'
      split at hc'
      · cases hc'
        exact hempty
      · exact hs.empty _ _ hc'

theorem staysUntold_openRoot (rootUri : String) (initOptions processId capabilities : Value) :
    Moves StaysUntold (openRoot rootUri initOptions processId capabilities) := by
  have hkept : ∀ {s t : Server}, t.configs = s.configs → t.nextConfig = s.nextConfig → StaysUntold s t :=
    fun hconfigs hnext => staysUntold_of_configs hconfigs (Nat.le_of_eq hnext.symm)
  refine Moves.bind (Moves.modify fun _ => hkept rfl rfl) fun _ => ?_
  refine Moves.bind (staysUntold_newConfig rootUri initOptions processId capabilities) fun c => ?_
  refine Moves.bind (Moves.modify fun _ => hkept rfl rfl) fun _ => ?_
  refine Moves.bind (Moves.get_bind fun s => Drift.ofExcept_bind fun w _ => hkept rfl rfl) fun w => ?_
  exact Moves.bind (Moves.modify fun _ => hkept rfl rfl) fun _ => Moves.modify fun _ => hkept rfl rfl

theorem keeps_watchParent_governing (pid : Value) : Keeps Server.governing (watchParent pid) := by
  refine Moves.bind (moves_job _) fun alive => ?_
  split
  · exact Moves.modify fun _ => rfl
  · exact keeps_close_governing

end Service

namespace Client

open EditorService.Service
open EditorService.Server

/-- **A service that has been started** holds no settings of the client, and nor does its folder. -/
theorem Started.uniform {s : Server} (h : Started s) : Uniform (.dict []) s := by
  have hequipped : s.Equipped := fromFirst_equipped.of_started h
  have huntold : s.Untold := by
    obtain ⟨-, plugins, sources, watchesParent, bench, params, rfl⟩ := h
    refine start_moves (R := StaysUntold) (fun _ _ _ _ => staysUntold_openRoot _ _ _ _ _)
      (fun _ _ => staysUntold_of_configs rfl (Nat.le_refl _)) (fun _ => staysUntold_of_configs rfl (Nat.le_refl _))
      (fun pid t => ?_) params ⟨⟨nofun, nofun⟩, ?_⟩
    · have hkept := keeps_watchParent_governing pid t
      exact staysUntold_of_configs (congrArg (·.2.1) hkept) (Nat.le_of_eq (congrArg (·.2.2) hkept).symm)
    · intro id c hc
      cases id <;> exact nomatch hc
  have hhas : ∀ {id : Option ConfigId}, (s.configAt? id).isSome → s.HasClient id (.dict []) := by
    intro id hthere
    obtain ⟨c, hc⟩ := Option.isSome_iff_exists.mp hthere
    exact ⟨c, hc, huntold.empty _ _ hc⟩
  exact ⟨hequipped, huntold.numbered, hhas hequipped.own, fun _ hw => hhas (hequipped.each hw)⟩

/-! ## The law -/

/-- **The settings that a turn brings**: those under the name of this service in the settings of the client. A message
with other parameters, or with settings that cannot have a part of that name, brings none. -/
def Turn.given? : Turn → Option Value
  | .message _ .didChangeConfiguration params =>
    if params.any (·.1 != "settings") then none
    else
      let settings := param params "settings"
      ((if settings.truthy then settings else .dict []).getD "pyls" (.dict [])).toOption
  | _ => none

/-- The settings that turns brought last. Before there are any, the settings are empty. -/
def lastGiven (run : List Turn) : Value := (run.filterMap Turn.given?).getLast?.getD (.dict [])

/-- **All settings that turns bring are accepted** by the configurations that they are given to. -/
def acceptedAlong (s : Server) : List Turn → Bool
  | [] => true
  | turn :: rest => turn.given?.all (s.accepts turn.host) && acceptedAlong (turn.serve s).2 rest

/-- A turn that handles a settings message. -/
theorem serve_settings {turn : Turn} (h : turn.method? = some .didChangeConfiguration) (s : Server) :
    match turn.given? with
    | some v => ∃ settings, ownSettings settings = ofExcept (.ok v) ∧
        (turn.serve s).2 = ((didChangeConfiguration settings).perform (s.under turn.host)).2
    | none => (turn.serve s).2.governing = s.governing := by
  cases turn with
  | expiry host number => exact nomatch h
  | message host method params =>
    cases h
    have hserve : ((Turn.message host .didChangeConfiguration params).serve s).2 =
        ((handle .didChangeConfiguration params).perform (s.under host)).2 :=
      congrArg Prod.snd (perform_answer _ _ _)
    rw [hserve]
    have hnames : (params.any fun p => !List.contains ["settings"] p.1) = params.any (·.1 != "settings") := by
      simp [bne, beq_eq_decide]
    by_cases hothers : params.any (·.1 != "settings") = true
    · simp only [Turn.given?, handle, onlyParams, hnames, if_pos hothers, perform_bind, perform_throw]
      rfl
    · have hhandle : ((handle .didChangeConfiguration params).perform (s.under host)).2 =
          ((didChangeConfiguration (param params "settings")).perform (s.under host)).2 := by
        simp only [handle, onlyParams, hnames, if_neg hothers]
        exact congrArg Prod.snd (perform_answer _ _ _)
      rw [hhandle]
      simp only [Turn.given?, if_neg hothers]
      generalize param params "settings" = settings
      cases hpart : (if settings.truthy then settings else .dict []).getD "pyls" (.dict []) with
      | ok v => exact ⟨settings, congrArg Service.ofExcept hpart, rfl⟩
      | error f =>
        have hrefused : Keeps Server.governing (didChangeConfiguration settings) := by
          refine Moves.get_bind fun t => Drift.present_bind fun own _ => ?_
          rw [ownSettings, hpart]
          rfl
        exact hrefused (s.under host)

/-- A turn that neither starts the service, nor brings a folder event or a settings message. -/
theorem serve_governing {turn : Turn} (hstart : turn.method? ≠ some .start)
    (hfolders : turn.method? ≠ some .didChangeFolders) (hsettings : turn.method? ≠ some .didChangeConfiguration)
    (s : Server) : (turn.serve s).2.governing = s.governing := by
  cases turn with
  | expiry host number =>
    have hexpire : Keeps Server.governing (expire number) :=
      moves_expire (fun _ _ => rfl) (fun _ _ => rfl) keeps_watchParent_governing number
    exact hexpire (s.under host)
  | message host method params =>
    have hhandle : Keeps Server.governing (handle method params) :=
      keeps_handle_governing (fun h => hstart (congrArg some h)) (fun h => hfolders (congrArg some h))
        (fun h => hsettings (congrArg some h)) params
    exact Moves.bind hhandle (fun _ => Moves.pure _) (s.under host)

/-- Only a settings message brings settings. -/
theorem given?_eq_none {turn : Turn} (h : turn.method? ≠ some .didChangeConfiguration) : turn.given? = none := by
  unfold Turn.given?
  split
  · exact absurd rfl h
  · rfl

/-- **One turn.** The settings that are held are those that it brings, if it brings any. -/
theorem uniform_serve {s : Server} {v : Value} (hs : Uniform v s) (hhoused : s.Housed) {turn : Turn}
    (hstart : turn.method? ≠ some .start) (haccepts : turn.given?.all (s.accepts turn.host) = true) :
    Uniform (turn.given?.getD v) (turn.serve s).2 := by
  have hunder : ∀ host, Uniform v (s.under host) := fun host => hs.of_governing (steady_under s host) rfl
  by_cases hsettings : turn.method? = some .didChangeConfiguration
  · have hserve := serve_settings hsettings s
    cases hgiven : turn.given? with
    | none =>
      rw [hgiven] at hserve
      exact hs.of_governing (steady_serve hstart (by simp [hsettings]) s) hserve
    | some w =>
      rw [hgiven] at hserve haccepts
      obtain ⟨settings, hw, hserve⟩ := hserve
      rw [hserve]
      exact uniform_didChangeConfiguration (hunder turn.host) (hhoused.of_store rfl) hw haccepts
  rw [given?_eq_none hsettings]
  by_cases hfolders : turn.method? = some .didChangeFolders
  · rcases serve_folderEvent hfolders s with ⟨-, hserve⟩ | hserve
    · rw [hserve]
      exact hunder turn.host
    · rw [hserve]
      exact unifies_changeFolders turn.event _ (hunder turn.host)
  · exact hs.of_governing (steady_serve hstart hfolders s) (serve_governing hstart hfolders hsettings s)

/-- **Many turns.** -/
theorem uniform_afterTurns {s : Server} {v : Value} (hs : Uniform v s) (hhoused : s.Housed) {run : List Turn}
    (hlater : ∀ turn ∈ run, turn.method? ≠ some .start) (haccepted : acceptedAlong s run = true) :
    Uniform ((run.filterMap Turn.given?).getLast?.getD v) (afterTurns s run) := by
  induction run generalizing s v with
  | nil => exact hs
  | cons turn rest ih =>
    obtain ⟨haccepts, hrest⟩ := (Bool.and_eq_true _ _).mp haccepted
    have hstart := hlater turn List.mem_cons_self
    have hafter := ih (uniform_serve hs hhoused hstart haccepts) (housed_serve hhoused hstart)
      (fun k hk => hlater k (List.mem_cons_of_mem turn hk)) hrest
    have hlast : ((turn :: rest).filterMap Turn.given?).getLast?.getD v =
        (rest.filterMap Turn.given?).getLast?.getD (turn.given?.getD v) := by
      cases hgiven : turn.given? with
      | none => rw [List.filterMap_cons_none hgiven, Option.getD_none]
      | some w => rw [List.filterMap_cons_some hgiven, List.getLast?_cons, Option.getD_some, Option.getD_some]
    rw [hlast]
    exact hafter

/-- **The client's settings are the same everywhere.** After any turns, in which all settings that the client sends are
accepted, the service and every registered folder hold the settings that the client sent last. -/
theorem client_settings_agree {s : Server} (h : Started s) {run : List Turn}
    (hlater : ∀ turn ∈ run, turn.method? ≠ some .start) (haccepted : acceptedAlong s run = true) :
    (∃ own, (afterTurns s run).ownConfig? = some own ∧ own.client = lastGiven run) ∧
      ∀ uri w, (uri, w) ∈ (afterTurns s run).registered →
        ∃ c, (afterTurns s run).configAt? w.config = some c ∧ c.client = lastGiven run := by
  have hafter := uniform_afterTurns h.uniform h.housed hlater haccepted
  refine ⟨hafter.own, fun uri w hw => ?_⟩
  obtain ⟨id, hmem, hget⟩ := mem_registered.mp hw
  exact hafter.each (w := w.emptied) hmem (bare_of_get hget)

/-- A service with a linter, started at a root. -/
def withLinter : Server :=
  ((handle .start [("rootUri", .str "file:///ws")]).perform { plugins := [.builtIn .pycodestyle] }).2

/-- The client's settings for that linter. -/
def lineLimit (n : Int) : Value :=
  .dict [("plugins", .dict [("pycodestyle", .dict [("maxLineLength", .int n)])])]

/-- A turn with a message that has such settings. -/
def Turn.limiting (n : Int) : Turn :=
  .message {} .didChangeConfiguration [("settings", .dict [("pyls", lineLimit n)])]

/-- A document is opened in the root. Another folder takes the place of the root, and there are settings before and
after that. -/
def limitedTwice : List Turn :=
  [.message {} .didOpen (Notice.opening {} "file:///ws/a.py" "x" .null).params, .limiting 80,
    .refolding ["file:///b"] ["file:///ws"], .limiting 100, .refolding ["file:///c"] []]

/-- Both folders hold the later settings. -/
theorem client_settings_agree_after_root_moved :
    Started withLinter ∧ acceptedAlong withLinter limitedTwice = true ∧
      (afterTurns withLinter limitedTwice).registered.map Prod.fst = ["file:///b", "file:///c"] ∧
      ∀ uri w, (uri, w) ∈ (afterTurns withLinter limitedTwice).registered →
        ∃ c, (afterTurns withLinter limitedTwice).configAt? w.config = some c ∧ c.client = lineLimit 100 := by
  have hstart : Started withLinter :=
    ⟨by decide +kernel, _, _, _, _, _, rfl⟩
  have haccepted : acceptedAlong withLinter limitedTwice = true := by decide +kernel
  have hlast : lastGiven limitedTwice = lineLimit 100 := by decide +kernel
  refine ⟨hstart, haccepted, by decide +kernel, fun uri w hw => ?_⟩
  rw [← hlast]
  exact (client_settings_agree hstart (by decide) haccepted).2 uri w hw

end Client

end EditorService
