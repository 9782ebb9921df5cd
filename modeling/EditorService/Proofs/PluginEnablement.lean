import EditorService.Proofs.FileLayers
import EditorService.Proofs.SettingsCoherence
import Mathlib.Data.List.Induction

/-!
# Which plugins are enabled, whatever the files say

A plugin is disabled by a setting of its own, and no row of a source writes that setting. So settings files have no say in
it, although the settings are merged with them in the very dictionaries where the setting stands.

**The law** compares two runs (`enablement_independent_of_files`): two sets of files, all of which can be read, give a
configuration the same disabled plugins, or the same fault. It supposes that plugins are set up by dictionaries, in the
defaults and in what the client sends (`Shaped`). A configuration works its disabled plugins out when it is made and when
it gets new settings, and not when files change. By the law it need not: through any run, what it has is what it would work
out now.
-/

namespace EditorService

namespace Settings

variable {a b v : Value} {place : List String}

/-! ## Places that a layer leaves alone -/

/-- Where a node of a merged layer comes from. -/
theorem node_mergeValue_cases {node : Value} (h : nodeAt? place (mergeValue a b) = some node) :
    nodeAt? place a = some node ∨ nodeAt? place b = some node ∨
      ∃ v w, nodeAt? place a = some v ∧ nodeAt? place b = some w ∧ mergeValue v w = node := by
  induction place generalizing a b with
  | nil => exact .inr (.inr ⟨a, b, rfl, rfl, Option.some.inj h⟩)
  | cons k place ih =>
    by_cases hnull : b = .null
    · rw [hnull, mergeValue_null] at h
      exact .inl h
    · by_cases hplain : a.isDict = false ∨ b.isDict = false
      · rw [mergeValue_of_plain hplain hnull] at h
        exact .inr (.inl h)
      · cases a with
        | dict x =>
          cases b with
          | dict y =>
            rw [mergeValue_dict, nodeAt?] at h
            obtain ⟨merged, hmerged, hnode⟩ := Option.bind_eq_some_iff.mp h
            rw [get?_merge] at hmerged
            obtain hx | hy | ⟨v, w, hx, hy, rfl⟩ := mergeEntry_eq_some hmerged
            · exact .inl ((nodeAt?_below hx place).trans hnode)
            · exact .inr (.inl ((nodeAt?_below hy place).trans hnode))
            · rw [nodeAt?_below hx, nodeAt?_below hy]
              exact ih hnode
          | _ => simp [Value.isDict] at hplain
        | _ => simp [Value.isDict] at hplain

/-- **A place that the later layer is silent about stays as it was**, if that layer has no nulls. -/
theorem nodeAt?_mergeValue_of_silent (hb : NullFree b) (h : isSilent place b = true) :
    nodeAt? place (mergeValue a b) = nodeAt? place a := by
  have habsent : nodeAt? place b = none := ((isSilent_iff hb).mp h).1
  induction place generalizing a b with
  | nil => cases habsent
  | cons k place ih =>
    by_cases hplain : a.isDict = false
    · rw [mergeValue_of_plain (.inl hplain) hb.ne_null, habsent, nodeAt?_cons_of_plain hplain]
    · cases a with
      | dict x =>
        cases b with
        | dict y =>
          rw [mergeValue_dict, nodeAt?, nodeAt?, get?_merge]
          cases hy : Table.get? y k with
          | none => rw [mergeEntry_none_right]
          | some w =>
            have hw : NullFree w := hb.below hy
            have hsilent : isSilent place w = true := by simpa [isSilent, hy] using h
            rw [nodeAt?_below hy] at habsent
            cases Table.get? x k with
            | some v => exact ih hw hsilent habsent
            | none =>
              rw [mergeEntry_none_left (fun heq => hw.ne_null (Option.some.inj heq))]
              exact habsent
        | null => exact absurd rfl hb.ne_null
        | _ => cases h
      | _ => exact absurd rfl hplain

/-- **A place is open**: there is a dictionary, or nothing. -/
def isOpen (place : List String) (v : Value) : Bool := (nodeAt? place v).all Value.isDict

theorem isOpen_iff : isOpen place v = true ↔ ∀ node, nodeAt? place v = some node → node.isDict = true := by
  rw [isOpen]
  cases nodeAt? place v <;> simp

theorem isOpen_mergeValue (ha : isOpen place a = true) (hb : isOpen place b = true) :
    isOpen place (mergeValue a b) = true := by
  rw [isOpen_iff] at ha hb ⊢
  intro node hnode
  obtain hold | hnew | ⟨v, w, hv, hw, rfl⟩ := node_mergeValue_cases hnode
  · exact ha node hold
  · exact hb node hnew
  · have hdict : w.isDict = true := hb w hw
    rw [isDict_mergeValue (fun hnull => by rw [hnull] at hdict; exact nomatch hdict)]
    exact hdict

/-! ## What the rows of the sources leave alone -/

theorem rows_places (s : Source) : ∀ row ∈ s.rows,
    (placeKeys row.place).length = 3 ∧ (placeKeys row.place).getLast? ≠ some "enabled" := by
  cases s <;> decide +kernel

/-- A row's place is three keys long, so what stands above is open. -/
theorem FromRows.isOpen {s : Source} (h : FromRows s.rows v) (hplace : place.length < 3) :
    Settings.isOpen place v = true := by
  refine isOpen_iff.mpr fun node hnode => ?_
  rcases h place node hnode with ⟨-, -, row, hrow, rfl⟩ | ⟨hdict, -⟩
  · rw [(rows_places s row hrow).1] at hplace
    exact absurd hplace (Nat.lt_irrefl 3)
  · exact hdict

/-- **No settings file says whether a plugin is enabled.** -/
theorem FromRows.silent_enabled {s : Source} (h : FromRows s.rows v) (name : String) :
    isSilent ["plugins", name, "enabled"] v = true := by
  have hleaf : ∀ front leaf, front <+: ["plugins", name, "enabled"] → nodeAt? front v = some leaf →
      leaf.isDict = true := by
    intro front leaf hfront hnode
    rcases h front leaf hnode with ⟨-, -, row, hrow, rfl⟩ | ⟨hdict, -⟩
    · obtain ⟨hlength, hlast⟩ := rows_places s row hrow
      rw [hfront.eq_of_length hlength] at hlast
      exact absurd rfl hlast
    · exact hdict
  refine (isSilent_iff h.nullFree).mpr ⟨?_, ?_⟩
  · cases hnode : nodeAt? ["plugins", name, "enabled"] v with
    | none => rfl
    | some node =>
      -- Rows have no deeper place, so there is no dictionary either.
      rcases h _ node hnode with ⟨hplain, -⟩ | ⟨-, hempty | ⟨row, hrow, hfront, hne⟩⟩
      · exact nomatch hplain.symm.trans (hleaf _ node (List.prefix_refl _) hnode)
      · exact nomatch hempty
      · exact absurd (hfront.eq_of_length (rows_places s row hrow).1.symm) hne
  · rintro ⟨front, leaf, hfront, -, hnode⟩
    exact nomatch hnode.plain.symm.trans (hleaf front leaf hfront hnode.node)

/-- Layers that are silent about a place and have no nulls, merged on top, leave it as it was. -/
theorem nodeAt?_mergeAll_of_silent {above below : List (List (String × Value))}
    (h : ∀ layer ∈ above, NullFree (.dict layer) ∧ isSilent place (.dict layer) = true) :
    nodeAt? place (.dict (mergeAll (above ++ below))) = nodeAt? place (.dict (mergeAll below)) := by
  induction above with
  | nil => rfl
  | cons layer above ih =>
    have hmerge : Value.dict (mergeAll (layer :: above ++ below)) =
        mergeValue (.dict (mergeAll (above ++ below))) (.dict layer) := (mergeValue_dict _ _).symm
    obtain ⟨hfree, hsilent⟩ := h layer List.mem_cons_self
    rw [hmerge, nodeAt?_mergeValue_of_silent hfree hsilent, ih fun l hl => h l (List.mem_cons_of_mem layer hl)]

theorem isOpen_mergeAll {layers : List (List (String × Value))} (h : ∀ layer ∈ layers, isOpen place (.dict layer) = true) :
    isOpen place (.dict (mergeAll layers)) = true := by
  induction layers with
  | nil => cases place <;> rfl
  | cons layer layers ih =>
    have hmerge : Value.dict (mergeAll (layer :: layers)) = mergeValue (.dict (mergeAll layers)) (.dict layer) :=
      (mergeValue_dict _ _).symm
    rw [hmerge]
    exact isOpen_mergeValue (ih fun l hl => h l (List.mem_cons_of_mem layer hl)) (h layer List.mem_cons_self)

end Settings

namespace Config

open EditorService.Settings

variable {c : Config} {host host' : Host}

/-! ## Enablement as a setting -/

/-- **Whether a plugin is enabled is told by one node**, where plugins and their settings are dictionaries. -/
theorem isEnabled_eq {settings : List (String × Value)} {name : String}
    (hplugins : isOpen ["plugins"] (.dict settings) = true)
    (hown : isOpen ["plugins", name] (.dict settings) = true) :
    isEnabled (.dict settings) name =
      .ok ((nodeAt? ["plugins", name, "enabled"] (.dict settings)).getD (.bool true)).truthy := by
  cases hp : Table.get? settings "plugins" with
  | none => simp [isEnabled, Value.getD, nodeAt?, hp, bind, Except.bind, pure, Except.pure]
  | some plugins =>
    cases plugins with
    | dict plugins =>
      cases ho : Table.get? plugins name with
      | none => simp [isEnabled, Value.getD, nodeAt?, hp, ho, bind, Except.bind, pure, Except.pure]
      | some own =>
        cases own with
        | dict own =>
          cases he : Table.get? own "enabled" with
          | none => simp [isEnabled, Value.getD, nodeAt?, hp, ho, he, bind, Except.bind, pure, Except.pure]
          | some enabled => simp [isEnabled, Value.getD, nodeAt?, hp, ho, he, bind, Except.bind, pure, Except.pure]
        | _ => simp [isOpen, nodeAt?, hp, ho, Value.isDict] at hown
    | _ => simp [isOpen, nodeAt?, hp, Value.isDict] at hplugins

/-- **Plugins are set up by dictionaries**, in the defaults and in what the client sent. -/
structure Shaped (c : Config) : Prop where
  plugins : isOpen ["plugins"] (.dict c.defaults) = true ∧ isOpen ["plugins"] c.client = true
  own : ∀ name ∈ Table.keys c.plugins,
    isOpen ["plugins", name] (.dict c.defaults) = true ∧ isOpen ["plugins", name] c.client = true

instance (c : Config) : Decidable c.Shaped :=
  decidable_of_iff
    ((isOpen ["plugins"] (.dict c.defaults) = true ∧ isOpen ["plugins"] c.client = true) ∧
      ∀ name ∈ Table.keys c.plugins,
        isOpen ["plugins", name] (.dict c.defaults) = true ∧ isOpen ["plugins", name] c.client = true)
    ⟨fun h => ⟨h.1, h.2⟩, fun h => ⟨h.plugins, h.own⟩⟩

/-- Whether a plugin is enabled by the settings that are not in files. -/
def enables (c : Config) (name : String) : Bool :=
  let settings := mergeValue (mergeValue (.dict []) (.dict c.defaults)) c.client
  ((nodeAt? ["plugins", name, "enabled"] settings).getD (.bool true)).truthy

theorem layers_lower {path : Option String} {l : Layers} (h : c.layers host path = .ok l) :
    l.defaults = c.defaults ∧ .dict l.client = c.client := by
  obtain ⟨client, hclient, h⟩ := Fault.bind_eq_ok.mp h
  obtain ⟨names, -, h⟩ := Fault.bind_eq_ok.mp h
  obtain ⟨user, -, h⟩ := Fault.bind_eq_ok.mp h
  obtain ⟨project, -, h⟩ := Fault.bind_eq_ok.mp h
  cases h
  refine ⟨rfl, ?_⟩
  cases hc : c.client with
  | dict entries =>
    rw [hc] at hclient
    cases hclient
    rfl
  | _ =>
    rw [hc] at hclient
    exact nomatch hclient

/-- **Enablement is a matter of the lower layers.** -/
theorem isEnabled_layers (hshape : c.Shaped) {path : Option String} {l : Layers} (h : c.layers host path = .ok l)
    {name : String} (hname : name ∈ Table.keys c.plugins) :
    isEnabled (.dict (mergeAll l.ranked)) name = .ok (c.enables name) := by
  obtain ⟨hdefaults, hclient⟩ := layers_lower h
  have hranked : l.ranked = (l.project ++ l.user) ++ [l.client, l.defaults] := (List.append_assoc ..).symm
  have hopen : ∀ place : List String, place.length < 3 → isOpen place (.dict c.defaults) = true →
      isOpen place c.client = true → isOpen place (.dict (mergeAll l.ranked)) = true := by
    intro place hplace hd hc
    refine isOpen_mergeAll fun layer hlayer => ?_
    rw [hranked] at hlayer
    rcases List.mem_append.mp hlayer with hfile | hlower
    · obtain ⟨s, hrows⟩ := layers_fromRows h hfile
      exact hrows.isOpen hplace
    · simp only [List.mem_cons, List.not_mem_nil, or_false] at hlower
      rcases hlower with rfl | rfl
      · rw [hclient, hc]
      · rw [hdefaults, hd]
  have hlower : Value.dict (mergeAll [l.client, l.defaults]) =
      mergeValue (mergeValue (.dict []) (.dict c.defaults)) c.client := by
    rw [← hclient, ← hdefaults, mergeValue_dict, mergeValue_dict]
    rfl
  obtain ⟨hd, hc⟩ := hshape.own name hname
  rw [isEnabled_eq (hopen _ (by decide) hshape.plugins.1 hshape.plugins.2) (hopen _ (by simp) hd hc), hranked,
    nodeAt?_mergeAll_of_silent, hlower, enables]
  intro layer hlayer
  obtain ⟨s, hrows⟩ := layers_fromRows h hlayer
  exact ⟨hrows.nullFree, hrows.silent_enabled name⟩

/-- **The plugins that are disabled by the settings that are not in files.** -/
def disabledBelow (c : Config) : List (Option String) :=
  c.plugins.filterMap fun (name, plugin) => if c.enables name then none else some (plugin.map Plugin.name)

/-- **The disabled plugins are told without files.** All that files can add is a fault. -/
theorem disabledAfresh_eq (hshape : c.Shaped) (host : Host) :
    c.disabledAfresh host = if c.plugins = [] then .ok [] else (c.layers host none).map fun _ => c.disabledBelow := by
  have hmarks : ∀ l, c.layers host none = .ok l → ∀ entries : Registry, entries ⊆ c.plugins →
      (entries.mapM fun (name, plugin) => do
        let enabled ← isEnabled (← c.compute host none) name
        return if enabled then none else some (plugin.map Plugin.name)) =
      Except.ok (ε := Fault) (entries.map fun (name, plugin) =>
        if c.enables name then none else some (plugin.map Plugin.name)) := by
    intro l hl entries hentries
    induction entries with
    | nil => rfl
    | cons entry entries ih =>
      obtain ⟨name, plugin⟩ := entry
      have hname : name ∈ Table.keys c.plugins := List.mem_map_of_mem (f := (·.1)) (hentries List.mem_cons_self)
      rw [List.mapM_cons, ih (List.subset_of_cons_subset hentries)]
      simp only [compute_eq, hl, Except.map, bind, Except.bind, isEnabled_layers hshape hl hname]
      rfl
  rw [disabledAfresh]
  split
  · next hnone =>
    rw [hnone]
    rfl
  · next hsome =>
    cases hlayers : c.layers host none with
    | ok l =>
      rw [hmarks l hlayers c.plugins (List.Subset.refl _), disabledBelow]
      refine congrArg Except.ok ?_
      rw [List.filterMap_map]
      rfl
    | error f =>
      obtain ⟨entry, entries, hcons⟩ := List.exists_cons_of_ne_nil hsome
      rw [hcons, List.mapM_cons, compute_eq, hlayers]
      rfl

/-! ## Two sets of files -/

/-- **The settings files of a configuration can be read**: the user's, and those that count for the root of the project. -/
def Reads (c : Config) (host : Host) : Prop :=
  ∀ s ∈ c.sources, (s.settingsIn host.files [s.userFile host]).isOk = true ∧
    ∀ found ∈ (host.files.findParents c.rootPath c.rootPath s.projectFiles).toOption,
      (s.settingsIn host.files found).isOk = true

instance (c : Config) (host : Host) : Decidable (c.Reads host) :=
  inferInstanceAs (Decidable (∀ s ∈ c.sources, _ ∧ _))

/-- What a source reads is a dictionary. -/
theorem entries_settingsIn {s : Source} {files : FileTree} {paths : List String}
    (h : (s.settingsIn files paths).isOk = true) :
    ∃ entries, (s.settingsIn files paths >>= Value.entries) = .ok entries := by
  cases hread : s.settingsIn files paths with
  | error f =>
    rw [hread] at h
    exact nomatch h
  | ok v =>
    have hopen : isOpen [] v = true := (Source.fromRows_settingsIn hread).isOpen (by decide)
    have hdict : v.isDict = true := isOpen_iff.mp hopen v rfl
    cases v with
    | dict entries => exact ⟨entries, rfl⟩
    | _ => exact nomatch hdict

theorem projectSettings_eq {s : Source} (hbase : s ≠ .base) (host : Host) (root path : String) :
    s.projectSettings host root path =
      host.files.findParents root path s.projectFiles >>= s.settingsIn host.files := by
  cases s with
  | base => exact absurd rfl hbase
  | _ => rfl

/-- Where files can be read, they are no reason for a source to fail. -/
theorem Reads.userSettings (h : c.Reads host) {s : Source} (hs : s ∈ c.sources) (hbase : s ≠ .base) :
    ∃ entries, (s.userSettings host >>= Value.entries) = .ok entries := by
  cases s with
  | base => exact absurd rfl hbase
  | _ => exact entries_settingsIn (h _ hs).1

theorem Reads.found (h : c.Reads host) {s : Source} (hs : s ∈ c.sources) {found : List String}
    (hfound : host.files.findParents c.rootPath c.rootPath s.projectFiles = .ok found) :
    ∃ entries, (s.settingsIn host.files found >>= Value.entries) = .ok entries := by
  refine entries_settingsIn ((h s hs).2 found ?_)
  rw [hfound]
  rfl

/-- **Two computations share their fate**: both give a result, or both fail with the same fault. -/
def SameFate {α β : Type} (x : Except Fault α) (y : Except Fault β) : Prop :=
  x.map (fun _ => ()) = y.map (fun _ => ())

section

variable {α β γ δ : Type} {x : Except Fault α} {y : Except Fault β}

theorem SameFate.of_ok {a : α} {b : β} (hx : x = .ok a) (hy : y = .ok b) : SameFate x y := by
  rw [hx, hy]
  rfl

theorem SameFate.bind {f : α → Except Fault γ} {g : β → Except Fault δ} (h : SameFate x y)
    (hnext : ∀ a b, x = .ok a → y = .ok b → SameFate (f a) (g b)) : SameFate (x >>= f) (y >>= g) := by
  cases x with
  | error e =>
    cases y with
    | error e' =>
      cases h
      rfl
    | ok b => exact nomatch h
  | ok a =>
    cases y with
    | error e' => exact nomatch h
    | ok b => exact hnext a b rfl rfl

/-- What does not depend on the result is equal. -/
theorem SameFate.map_const (h : SameFate x y) (d : γ) : x.map (fun _ => d) = y.map fun _ => d := by
  cases x with
  | error e =>
    cases y with
    | error e' =>
      cases h
      rfl
    | ok b => exact nomatch h
  | ok a =>
    cases y with
    | error e' => exact nomatch h
    | ok b => rfl

end

/-- Whether files are found, searching fails or does not. -/
theorem sameFate_findParents (files files' : FileTree) (root path : String) (names : List String) :
    SameFate (files.findParents root path names) (files'.findParents root path names) := by
  unfold FileTree.findParents Search.findParents
  dsimp only
  split
  · rfl
  · exact SameFate.bind rfl fun _ _ _ _ => rfl

theorem mem_of_sourceOf? {name : Value} {source : Source} (h : c.sourceOf? name = .ok (some source)) :
    source ∈ c.sources := by
  cases name with
  | str text => exact List.mem_of_find?_eq_some (Except.ok.inj h)
  | _ => exact nomatch h

theorem sameFate_sourceLayers {given given' : Source → Except Fault Value}
    (h : ∀ s ∈ c.sources, SameFate (given s >>= Value.entries) (given' s >>= Value.entries)) (names : List Value) :
    SameFate (c.sourceLayers given names) (c.sourceLayers given' names) := by
  induction names with
  | nil => rfl
  | cons name names ih =>
    refine ih.bind fun below below' _ _ => SameFate.bind ?_ fun _ _ _ _ => rfl
    refine SameFate.bind (rfl : SameFate (c.sourceOf? name) _) fun source? source?' hsource hsource' => ?_
    cases hsource.symm.trans hsource'
    cases source? with
    | none => rfl
    | some source =>
      dsimp only
      rw [← bind_assoc, ← bind_assoc]
      exact (h source (mem_of_sourceOf? hsource)).bind fun _ _ _ _ => rfl

/-- **The layers share their fate.** -/
theorem sameFate_layers (h : c.Reads host) (h' : c.Reads host') : SameFate (c.layers host none) (c.layers host' none) := by
  refine SameFate.bind (rfl : SameFate c.client.entries _) fun _ _ _ _ => ?_
  refine SameFate.bind (rfl : SameFate c.listedSources _) fun names names' hnames hnames' => ?_
  cases hnames.symm.trans hnames'
  refine SameFate.bind (sameFate_sourceLayers (fun s hs => ?_) names) fun _ _ _ _ =>
    SameFate.bind (sameFate_sourceLayers (fun s hs => ?_) names) fun _ _ _ _ => rfl
  · by_cases hbase : s = .base
    · rw [hbase]
      rfl
    · obtain ⟨_, hok⟩ := h.userSettings hs hbase
      obtain ⟨_, hok'⟩ := h'.userSettings hs hbase
      exact .of_ok hok hok'
  · by_cases hbase : s = .base
    · rw [hbase]
      rfl
    · change SameFate (s.projectSettings host c.rootPath c.rootPath >>= _)
        (s.projectSettings host' c.rootPath c.rootPath >>= _)
      rw [projectSettings_eq hbase, projectSettings_eq hbase, bind_assoc, bind_assoc]
      refine (sameFate_findParents ..).bind fun found found' hfound hfound' => ?_
      obtain ⟨_, hok⟩ := h.found hs hfound
      obtain ⟨_, hok'⟩ := h'.found hs hfound'
      exact .of_ok hok hok'

/-- **Files have no say in which plugins are disabled.** -/
theorem disabledAfresh_congr (hshape : c.Shaped) (h : c.Reads host) (h' : c.Reads host') :
    c.disabledAfresh host = c.disabledAfresh host' := by
  rw [disabledAfresh_eq hshape, disabledAfresh_eq hshape, (sameFate_layers h h').map_const]

/-! ## Where nothing fails -/

/-- **Nothing but files can fail**: the client sent a dictionary, the sources it lists have names, each source has files,
and the root of the project has a directory. -/
structure Usable (c : Config) : Prop where
  client : c.client.isDict = true
  listed : ∃ names, c.listedSources = .ok names ∧ ∀ name ∈ names, ∃ source?, c.sourceOf? name = .ok source?
  sources : Source.base ∉ c.sources
  root : c.rootPath = "" ∨ Path.directoryOf c.rootPath ≠ ""

theorem findParents_ok {root : String} (hroot : root = "" ∨ Path.directoryOf root ≠ "") (files : FileTree)
    (names : List String) : ∃ found, files.findParents root root names = .ok found := by
  unfold FileTree.findParents Search.findParents
  dsimp only
  split
  · exact ⟨[], rfl⟩
  · next hstart =>
    have hdirectory : Path.directory root.toList ≠ [] := by
      intro hempty
      rcases hroot with rfl | hne
      · exact hstart rfl
      · exact hne (by rw [Path.directoryOf, hempty])
    simp [Search.chainTo, Path.relative, hdirectory, bind, Except.bind, pure, Except.pure]

theorem sourceLayers_ok {given : Source → Except Fault Value} {names : List Value}
    (hnames : ∀ name ∈ names, ∃ source?, c.sourceOf? name = .ok source?)
    (hgiven : ∀ s ∈ c.sources, ∃ entries, (given s >>= Value.entries) = .ok entries) :
    ∃ layers, c.sourceLayers given names = .ok layers := by
  induction names with
  | nil => exact ⟨[], rfl⟩
  | cons name names ih =>
    obtain ⟨below, hbelow⟩ := ih fun name hname => hnames name (List.mem_cons_of_mem _ hname)
    obtain ⟨source?, hsource⟩ := hnames name List.mem_cons_self
    have hlayer : ∃ layer?, c.sourceLayer given name = .ok layer? := by
      rw [sourceLayer, hsource]
      cases source? with
      | none => exact ⟨none, rfl⟩
      | some source =>
        obtain ⟨entries, hentries⟩ := hgiven source (mem_of_sourceOf? hsource)
        obtain ⟨v, hv, hentries⟩ := Fault.bind_eq_ok.mp hentries
        refine ⟨some entries, ?_⟩
        change (given source >>= fun v => v.entries >>= fun entries => pure (some entries)) = _
        rw [hv]
        change (v.entries >>= fun entries => pure (some entries)) = _
        rw [hentries]
        rfl
    obtain ⟨layer?, hlayer⟩ := hlayer
    refine ⟨layer?.toList ++ below, ?_⟩
    rw [sourceLayers, hbelow, hlayer]
    rfl

/-- **With readable files, the disabled plugins are found.** -/
theorem disabledAfresh_ok (hshape : c.Shaped) (husable : c.Usable) (h : c.Reads host) :
    c.disabledAfresh host = .ok c.disabledBelow := by
  have hlayers : ∃ l, c.layers host none = .ok l := by
    obtain ⟨names, hlisted, hnames⟩ := husable.listed
    have hsome : ∀ s ∈ c.sources, s ≠ .base := fun s hs hbase => husable.sources (hbase ▸ hs)
    obtain ⟨user, huser⟩ := sourceLayers_ok hnames fun s hs => h.userSettings hs (hsome s hs)
    have hfiles : ∀ s ∈ c.sources, ∃ entries,
        (s.projectSettings host c.rootPath c.rootPath >>= Value.entries) = .ok entries := by
      intro s hs
      obtain ⟨found, hfound⟩ := findParents_ok husable.root host.files s.projectFiles
      rw [projectSettings_eq (hsome s hs), hfound]
      exact h.found hs hfound
    obtain ⟨project, hproject⟩ := sourceLayers_ok hnames hfiles
    cases hclient : c.client with
    | dict entries =>
      refine ⟨{ defaults := c.defaults, client := entries, user, project }, ?_⟩
      simp only [layers, hclient, hlisted, huser, searchedFrom, hproject, Value.entries, bind, Except.bind]
      rfl
    | _ =>
      have hdict := husable.client
      rw [hclient] at hdict
      cases hdict
  obtain ⟨l, hl⟩ := hlayers
  rw [disabledAfresh_eq hshape, hl]
  split
  · next hnone =>
    rw [disabledBelow, hnone]
    rfl
  · rfl

/-! ## Configurations in use -/

theorem updated_of_afresh {client : Value} {disabled : List (Option String)}
    (h : (c.withClient client).disabledAfresh host = .ok disabled) :
    c.updated host client = (.ok (), { c.withClient client with disabled }) := by
  simp only [updated, h]

theorem updated_congr {client : Value}
    (h : (c.withClient client).disabledAfresh host = (c.withClient client).disabledAfresh host') :
    c.updated host client = c.updated host' client := by
  simp only [updated, h]

/-- **The disabled plugins of a configuration are those it finds**, if it finds any. -/
def WorkedOut (c : Config) (host : Host) : Prop :=
  ∀ disabled, c.disabledAfresh host = .ok disabled → c.disabled = disabled

theorem workedOut_updated (c : Config) (host : Host) (client : Value) : (c.updated host client).2.WorkedOut host := by
  intro disabled hafresh
  unfold updated at hafresh ⊢
  dsimp only at hafresh ⊢
  cases hfound : (c.withClient client).disabledAfresh host with
  | ok d =>
    rw [hfound] at hafresh
    exact Except.ok.inj (hfound.symm.trans hafresh)
  | error f =>
    rw [hfound] at hafresh
    exact nomatch hfound.symm.trans hafresh

/-- What is worked out already stays, when the client sends the same settings again. -/
theorem WorkedOut.updated (h : c.WorkedOut host) : (c.updated host c.client).2 = c := by
  have hclient : c.withClient c.client = c := rfl
  cases hafresh : c.disabledAfresh host with
  | error f => simp only [Config.updated, hclient, hafresh]
  | ok disabled =>
    rw [updated_of_afresh hafresh, hclient, ← h disabled hafresh]

section

variable {id : ConfigId} {rootUri : String} {initOptions processId capabilities : Value} {sources : List Source}
  {plugins : List Plugin}

theorem created_of_drafted (h : drafted host id rootUri initOptions processId capabilities sources plugins = .ok c) :
    created host id rootUri initOptions processId capabilities sources plugins =
      (c.disabledAfresh host).map fun disabled => { c with disabled } := by
  rw [created, h]
  change (c.disabledAfresh host >>= _) = _
  cases c.disabledAfresh host <;> rfl

theorem created_of_fault {f : Fault}
    (h : drafted host id rootUri initOptions processId capabilities sources plugins = .error f) :
    created host id rootUri initOptions processId capabilities sources plugins = .error f := by
  rw [created, h]
  rfl

/-- Of its surroundings, a new configuration needs to know whether there are drives. -/
theorem created_congr (hdrives : host.drives = host'.drives)
    (h : ∀ c, drafted host id rootUri initOptions processId capabilities sources plugins = .ok c →
      c.disabledAfresh host = c.disabledAfresh host') :
    created host id rootUri initOptions processId capabilities sources plugins =
      created host' id rootUri initOptions processId capabilities sources plugins := by
  have hsame : drafted host id rootUri initOptions processId capabilities sources plugins =
      drafted host' id rootUri initOptions processId capabilities sources plugins := by
    simp only [drafted, hdrives]
  cases hdraft : drafted host id rootUri initOptions processId capabilities sources plugins with
  | error f => rw [created_of_fault hdraft, created_of_fault (hsame ▸ hdraft)]
  | ok c => rw [created_of_drafted hdraft, created_of_drafted (hsame ▸ hdraft), h c hdraft]

theorem workedOut_created (h : created host id rootUri initOptions processId capabilities sources plugins = .ok c) :
    c.WorkedOut host := by
  obtain ⟨drafted, -, h⟩ := Fault.bind_eq_ok.mp h
  obtain ⟨found, hfound, h⟩ := Fault.bind_eq_ok.mp h
  cases h
  intro disabled hafresh
  exact Except.ok.inj (hfound.symm.trans hafresh)

end

end Config

namespace Memory

open EditorService.Service

theorem configs_ask (id : ConfigId) (query : Settings.Query) (s : Server) :
    ((Act.ask id query).step.perform s).2.configs = s.configs := by
  have hkeeps : Keeps Server.holdings (Act.ask id query).step :=
    Moves.bind Moves.get fun _ => Moves.bind (Moves.present _) fun _ => Moves.bind (moves_job _) fun _ => Moves.pure _
  exact congrArg Holdings.configs (hkeeps s)

/-- **One act** leaves a configuration as it was, or works its disabled plugins out. -/
theorem workedOut_next {w : Watched} (h : Coherent w) (act : Act) {id : ConfigId} {c : Config}
    (hc : (Act.next w act).server.configAt? (some id) = some c) :
    w.server.configAt? (some id) = some c ∨ c.WorkedOut (Act.next w act).server.bench.host := by
  have hsame : (Act.next w act).server.configs = w.server.configs → w.server.configAt? (some id) = some c := by
    intro hconfigs
    rw [← hc, Server.configAt?, Server.configAt?, hconfigs]
  cases act with
  | make rootUri initOptions processId capabilities =>
    have hnew : ∀ query v, ((w.server.nextConfig, query), v) ∉ w.server.bench.settings :=
      fun query v hmem => Nat.lt_irrefl _ (h.used hmem)
    obtain ⟨hcreated, hhost, -⟩ := Config.perform_create w.server.nextConfig rootUri initOptions processId
      capabilities w.server.sources w.server.plugins hnew
    simp only [Act.next, Act.step, perform_bind, perform_newConfig] at hc hsame ⊢
    rcases hrun : (Config.create w.server.nextConfig rootUri initOptions processId capabilities w.server.sources
      w.server.plugins).perform w.server.bench with ⟨r, bench⟩
    rw [hrun] at hcreated hhost
    simp only [hrun] at hc hsame ⊢
    cases r with
    | error f => exact .inl (hsame rfl)
    | ok made =>
      simp only [perform_pure, Server.configAt?_putConfig] at hc
      split at hc
      · cases hc
        refine .inr ?_
        change c.WorkedOut bench.host
        rw [hhost]
        exact Config.workedOut_created hcreated.symm
      · exact .inl hc
  | update id' client =>
    cases hold : w.server.configAt? (some id') with
    | none =>
      refine .inl (hsame ?_)
      simp only [Act.next, Act.step, perform_updateConfig_none hold]
    | some old =>
      obtain ⟨-, hconsults⟩ := old.run_update client w.server.bench
      simp only [Act.next, Act.step, perform_updateConfig hold, Server.configAt?_putConfig] at hc ⊢
      split at hc
      · cases hc
        refine .inr ?_
        change Config.WorkedOut _ (Id.run ((old.update client).run w.server.bench)).2.host
        rw [hconsults.host]
        exact old.workedOut_updated w.server.bench.host client
      · exact .inl hc
  | ask id' query => exact .inl (hsame (configs_ask id' query w.server))
  | announce changes =>
    have hstore := store_didChangeFiles changes w.server
    simp only [store, Prod.mk.injEq] at hstore
    exact .inl (hsame hstore.1)
  | adopt id' => exact .inl (hsame rfl)
  | move host => exact .inl (hsame rfl)

/-- **Through any run**, each configuration has the disabled plugins that it found at some moment. -/
theorem workedOut_watch {s : Server} (hconfigs : s.configs = []) (hmemory : s.bench.settings = []) (run : List Act)
    {id : ConfigId} {c : Config} (hc : (watch s run).server.configAt? (some id) = some c) :
    ∃ before, before <+: run ∧ c.WorkedOut (watch s before).server.bench.host := by
  induction run using List.reverseRecOn with
  | nil => simp [watch, Server.configAt?, hconfigs] at hc
  | append_singleton run act ih =>
    have hnext : watch s (run ++ [act]) = Act.next (watch s run) act := by simp [watch]
    have hcoherent : Coherent (watch s run) := coherent_watch hconfigs hmemory run
    rw [hnext] at hc
    rcases workedOut_next hcoherent act hc with hold | hnow
    · obtain ⟨before, hbefore, hworked⟩ := ih hold
      exact ⟨before, hbefore.trans (List.prefix_append run [act]), hworked⟩
    · refine ⟨run ++ [act], List.prefix_refl _, ?_⟩
      rw [hnext]
      exact hnow

/-- **Which plugins are enabled is independent of settings files.** Two sets of files, all readable, make no difference to
what new settings of the client do to a configuration, nor to a new configuration; where nothing else can fail, the
disabled plugins are those that the client's settings and the defaults disable. So in any run in which the files stay
readable, although they change, working out once more which plugins of a configuration are disabled changes nothing. -/
theorem enablement_independent_of_files :
    (∀ (c : Config) (client : Value) (b b' : Bench), (c.withClient client).Shaped →
      (c.withClient client).Reads b.host → (c.withClient client).Reads b'.host →
      (Id.run ((c.update client).run b)).1 = (Id.run ((c.update client).run b')).1 ∧
        ((c.withClient client).Usable → (Id.run ((c.update client).run b)).1 =
          (.ok (), { c.withClient client with disabled := (c.withClient client).disabledBelow }))) ∧
    (∀ (id : ConfigId) (rootUri : String) (initOptions processId capabilities : Value)
      (sources : List Settings.Source) (plugins : List Plugin) (b b' : Bench), b.host.drives = b'.host.drives →
      (∀ query v, ((id, query), v) ∉ b.settings) → (∀ query v, ((id, query), v) ∉ b'.settings) →
      (∀ c, Config.drafted b.host id rootUri initOptions processId capabilities sources plugins = .ok c →
        c.Shaped ∧ c.Reads b.host ∧ c.Reads b'.host) →
      ((Config.create id rootUri initOptions processId capabilities sources plugins).perform b).1 =
          ((Config.create id rootUri initOptions processId capabilities sources plugins).perform b').1 ∧
        ∀ c, Config.drafted b.host id rootUri initOptions processId capabilities sources plugins = .ok c → c.Usable →
          ((Config.create id rootUri initOptions processId capabilities sources plugins).perform b).1 =
            .ok { c with disabled := c.disabledBelow }) ∧
    ∀ s : Server, s.configs = [] → s.bench.settings = [] → ∀ run id c,
      (watch s run).server.configAt? (some id) = some c → c.Shaped →
      (∀ before, before <+: run → c.Reads (watch s before).server.bench.host) →
      (Id.run ((c.update c.client).run (watch s run).server.bench)).1.2 = c ∧
        (c.Usable → c.disabled = c.disabledBelow) := by
  refine ⟨?_, ?_, ?_⟩
  · intro c client b b' hshape hb hb'
    have hcongr := Config.disabledAfresh_congr hshape hb hb'
    rw [(c.run_update client b).1, (c.run_update client b').1]
    refine ⟨Config.updated_congr hcongr, fun husable => ?_⟩
    exact Config.updated_of_afresh (Config.disabledAfresh_ok hshape husable hb)
  · intro id rootUri initOptions processId capabilities sources plugins b b' hdrives hnew hnew' hdrafted
    rw [(Config.perform_create id rootUri initOptions processId capabilities sources plugins hnew).1,
      (Config.perform_create id rootUri initOptions processId capabilities sources plugins hnew').1]
    refine ⟨Config.created_congr hdrives fun c hc => ?_, fun c hc husable => ?_⟩
    · obtain ⟨hshape, hb, hb'⟩ := hdrafted c hc
      exact Config.disabledAfresh_congr hshape hb hb'
    · obtain ⟨hshape, hb, -⟩ := hdrafted c hc
      rw [Config.created_of_drafted hc, Config.disabledAfresh_ok hshape husable hb]
      rfl
  · intro s hconfigs hmemory run id c hc hshape hreads
    obtain ⟨before, hbefore, hworked⟩ := workedOut_watch hconfigs hmemory run hc
    have hnow : c.WorkedOut (watch s run).server.bench.host := by
      intro disabled hafresh
      refine hworked disabled (Eq.trans ?_ hafresh)
      exact Config.disabledAfresh_congr hshape (hreads before hbefore) (hreads run (List.prefix_refl run))
    refine ⟨?_, fun husable => hnow _ (Config.disabledAfresh_ok hshape husable (hreads run (List.prefix_refl run)))⟩
    rw [(c.run_update c.client _).1]
    exact hnow.updated

/-- A project with a settings file for a linter. -/
def withStyle (setting : String) : Host where
  files := { files := [("/ws/tox.ini", .text ("[pycodestyle]\n" ++ setting ++ "\n"))] }

/-- A service with three linters, two of which are off by default. -/
def threeLinters : Server where
  plugins := [.builtIn .pycodestyle, .builtIn .flake8, .builtIn .pylint]
  sources := [.pycodestyle]
  bench := { host := withStyle "select=E" }

/-- The client switches one of them on, and then the file tries to switch one off. -/
def switched : List Act :=
  [.make "file:///ws" .null .null .null,
    .update 0 (.dict [("plugins", .dict [("flake8", .dict [("enabled", .bool true)])])]),
    .move (withStyle "enabled=0")]

/-- The file that has changed matters for the settings, and does not disable a linter. -/
theorem enablement_independent_of_files_switched :
    ((Config.create 0 "file:///ws" .null .null .null threeLinters.sources threeLinters.plugins).perform
          { host := withStyle "select=E" }).1 =
        ((Config.create 0 "file:///ws" .null .null .null threeLinters.sources threeLinters.plugins).perform
          { host := withStyle "enabled=0" }).1 ∧
      ∃ c, (watch threeLinters switched).server.configAt? (some 0) = some c ∧
        (c.compute (withStyle "select=E") none).toOption ≠ (c.compute (withStyle "enabled=0") none).toOption ∧
        c.disabled = [some "pylint"] ∧
        (Id.run ((c.update c.client).run (watch threeLinters switched).server.bench)).1.2 = c ∧
        (Id.run ((c.update c.client).run { host := withStyle "select=E" })).1 =
          (Id.run ((c.update c.client).run { host := withStyle "enabled=0" })).1 := by
  obtain ⟨hupdate, hcreate, hrun⟩ := enablement_independent_of_files
  have hdrafted : ∀ c ∈ (Config.drafted (withStyle "select=E") 0 "file:///ws" .null .null .null threeLinters.sources
      threeLinters.plugins).toOption, c.Shaped ∧ c.Reads (withStyle "select=E") ∧ c.Reads (withStyle "enabled=0") := by
    decide +kernel
  have hconfig : ((watch threeLinters switched).server.configAt? (some 0)).map (fun c => decide (
      (c.Shaped ∧ c.Reads (withStyle "select=E") ∧ c.Reads (withStyle "enabled=0")) ∧
        (∀ n ∈ List.range 4, c.Reads (watch threeLinters (switched.take n)).server.bench.host) ∧
        (c.compute (withStyle "select=E") none).toOption ≠ (c.compute (withStyle "enabled=0") none).toOption ∧
        c.disabled = [some "pylint"])) = some true := by
    decide +kernel
  obtain ⟨c, hc, hall⟩ := Option.map_eq_some_iff.mp hconfig
  obtain ⟨⟨hshape, hread, hread'⟩, hreads, hsettings, hdisabled⟩ := of_decide_eq_true hall
  have hprefixes : ∀ before, before <+: switched → c.Reads (watch threeLinters before).server.bench.host := by
    intro before hbefore
    rw [List.prefix_iff_eq_take.mp hbefore]
    refine hreads before.length (List.mem_range.mpr ?_)
    exact Nat.lt_succ_of_le hbefore.length_le
  refine ⟨?_, c, hc, hsettings, hdisabled, ?_, ?_⟩
  · refine (hcreate 0 "file:///ws" .null .null .null threeLinters.sources threeLinters.plugins
      { host := withStyle "select=E" } { host := withStyle "enabled=0" } rfl nofun nofun fun c hc => ?_).1
    refine hdrafted c ?_
    rw [hc]
    rfl
  · exact (hrun threeLinters rfl rfl switched 0 c hc hshape hprefixes).1
  · exact (hupdate c c.client { host := withStyle "select=E" } { host := withStyle "enabled=0" } hshape hread hread').1

end Memory

end EditorService
