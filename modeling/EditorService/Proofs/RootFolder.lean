import EditorService.Proofs.Turns

/-!
# The root is a folder

The service has a root, and the root should be one of its folders: the URI of the root is registered, for the workspace
that is the root, and the service uses the configuration of this workspace (`Rooted`). A folder event may close the
root. Then another folder takes its place: the first one that the event opens, or else the least one that is left.

**The law** (`root_stays_registered`): from the start on, the root is a folder after every turn, as long as events are
fair. An event is fair when it names a URI in everything that it closes, opens nothing that is registered and that it
does not close, and leaves a folder. Only an event that closes the root changes its URI.

There is one exception, and it is exact. The service does what an event asks for step by step. An event that closes the
root and then fails on the way leaves a root that is not registered.
-/

namespace EditorService

namespace Service

open EditorService.Server

/-! ## The entries of a folder event -/

/-- The URI that an entry of a folder event names. -/
def named? (entry : Value) : Option String :=
  match entry.item "uri" with
  | .ok (.str uri) => some uri
  | _ => none

/-- The entries of one side of a folder event; none, where the event has no such side. -/
def foldersOf (event : Value) (side : String) : List Value :=
  ((event.getD side (.list [])).bind Value.elements).toOption.getD []

/-- The URIs that a folder event closes. -/
def closedBy (event : Value) : List String := (foldersOf event "removed").filterMap named?

/-- The URIs that a folder event opens. -/
def openedBy (event : Value) : List String := (foldersOf event "added").filterMap named?

theorem named?_eq_some {entry : Value} {uri : String} :
    named? entry = some uri ↔ entry.item "uri" = .ok (.str uri) := by
  unfold named?
  split
  · next u h => simp [h]
  · next h =>
    refine ⟨nofun, fun hitem => absurd hitem (h uri)⟩

theorem holds_of_item {v x : Value} {key : String} (h : v.item key = .ok x) : v.holds key = .ok true := by
  unfold Value.item at h
  split at h
  · next entries =>
    cases hget : Table.get? entries key with
    | none => simp [hget] at h
    | some y => simp [Value.holds, Table.has, hget]
  · cases h

theorem named?_of_not_holds {entry : Value} (h : entry.holds "uri" = .ok false) : named? entry = none := by
  cases hname : named? entry with
  | none => rfl
  | some uri =>
    rw [holds_of_item (named?_eq_some.mp hname)] at h
    cases h

/-- An entry that the service reads a URI from names it. -/
theorem named?_of_folderUri {entry : Value} {uri : String} {s t : Server}
    (h : (folderUri entry).perform s = (.ok uri, t)) : named? entry = some uri := by
  simp only [folderUri, perform_ofExcept] at h
  obtain ⟨hread, -⟩ := Prod.mk.inj h
  obtain ⟨v, hitem, htext⟩ := Fault.bind_eq_ok.mp hread
  cases v with
  | str u =>
    cases htext
    exact named?_eq_some.mpr hitem
  | _ => exact nomatch htext

theorem perform_folderUri {entry : Value} {uri : String} (h : named? entry = some uri) (s : Server) :
    (folderUri entry).perform s = (.ok uri, s) := by
  rw [folderUri, perform_ofExcept, named?_eq_some.mp h]
  rfl

/-! ## Closing folders -/

theorem perform_closeNamed {entry : Value} {uri : String} (h : named? entry = some uri) (s : Server) :
    (closeFolders [entry]).perform s = (.ok (), { s with folders := Table.erase s.folders uri }) := by
  have hitem := named?_eq_some.mp h
  simp [closeFolders, namesFolder, holds_of_item hitem, hitem, closeFolder]

/-- **Closing folders that are all named**: the step succeeds, these URIs are gone, and all others stay. -/
theorem perform_closeFolders {removed : List Value} (h : ∀ entry ∈ removed, (named? entry).isSome) (s : Server) :
    ∃ folders, (closeFolders removed).perform s = (.ok (), { s with folders }) ∧
      ∀ uri, Table.get? folders uri = if uri ∈ removed.filterMap named? then none else Table.get? s.folders uri := by
  induction removed generalizing s with
  | nil => exact ⟨s.folders, rfl, fun uri => by simp⟩
  | cons entry rest ih =>
    obtain ⟨uri, hname⟩ := Option.isSome_iff_exists.mp (h entry List.mem_cons_self)
    obtain ⟨folders, hrun, hget⟩ := ih (fun e he => h e (List.mem_cons_of_mem entry he))
      { s with folders := Table.erase s.folders uri }
    refine ⟨folders, ?_, fun u => ?_⟩
    · have hfirst : closeFolders (entry :: rest) = closeFolders [entry] >>= fun _ => closeFolders rest := by
        simp [closeFolders]
      rw [hfirst, perform_bind, perform_closeNamed hname]
      exact hrun
    · rw [hget, Table.get?_erase, List.filterMap_cons_some hname]
      by_cases hu : u = uri
      · simp [hu]
      · simp [hu]

/-! ## Opening folders -/

end Service

namespace Server

/-- **From one state to a later one** in which folders have been opened. -/
structure Opening (s t : Server) : Prop where
  equipped : t.Equipped
  rootUri : t.rootUri = s.rootUri
  root : t.root = s.root
  config : t.config = s.config
  bare : ∀ {id}, (s.layout.bare id).isSome → t.layout.bare id = s.layout.bare id
  next : s.nextWorkspace ≤ t.nextWorkspace
  folder : ∀ uri, Table.get? t.folders uri = Table.get? s.folders uri ∨
    ∃ id, s.nextWorkspace ≤ id ∧ Table.get? t.folders uri = some id

/-- The drift of opening folders. -/
def Opens (s t : Server) : Prop := s.Equipped → Opening s t

theorem Opening.trans {s t u : Server} (hst : Opening s t) (htu : Opening t u) : Opening s u where
  equipped := htu.equipped
  rootUri := htu.rootUri.trans hst.rootUri
  root := htu.root.trans hst.root
  config := htu.config.trans hst.config
  bare h := (htu.bare (by rw [hst.bare h]; exact h)).trans (hst.bare h)
  next := Nat.le_trans hst.next htu.next
  folder uri := by
    rcases htu.folder uri with hsame | ⟨id, hid, hnew⟩
    · rw [hsame]
      exact hst.folder uri
    · exact Or.inr ⟨id, Nat.le_trans hst.next hid, hnew⟩

theorem opening_of_steady {s t : Server} (hs : s.Equipped) (h : Steady s t) : Opening s t := by
  have hlayout := h.layout hs.sound
  have hparts := hlayout
  rw [layout, layout, Layout.mk.injEq] at hparts
  obtain ⟨hfolders, hroot, hnext, -⟩ := hparts
  refine ⟨hs.of_steady h, h.rootUri, hroot, h.config, fun _ => by rw [hlayout], Nat.le_of_eq hnext.symm, fun uri => ?_⟩
  rw [hfolders]
  exact Or.inl rfl

/-- A new folder, with a configuration that is there. -/
theorem opening_withFolder {s : Server} (hs : s.Equipped) (uri : String) {w : Workspace} (hid : w.id = s.nextWorkspace)
    (hempty : w.documents = []) (hconfig : (s.configAt? w.config).isSome) : Opening s (s.withFolder uri w) where
  equipped := ⟨(grows_withFolder hs.sound uri hid hempty).sound, hs.own, each_withFolder hs.each uri hconfig⟩
  rootUri := rfl
  root := rfl
  config := rfl
  bare := by
    intro id h
    have hlt : id < s.nextWorkspace := hs.sound.fresh h
    rw [bare_withFolder, if_neg]
    intro hself
    rw [hself, hid] at hlt
    exact Nat.lt_irrefl _ hlt
  next := Nat.le_succ _
  folder u := by
    show Table.get? (Table.put s.folders uri w.id) u = _ ∨ _
    rw [Table.get?_put]
    split
    · exact Or.inr ⟨w.id, Nat.le_of_eq hid.symm, by rw [withFolder, Table.get?_put, if_pos ‹_›]⟩
    · exact Or.inl rfl

instance : Service.Idle Opens where
  rest s hs := opening_of_steady hs (Service.Drift.rest s)
  chain hst htu hs := (hst hs).trans (htu (hst hs).equipped)
  bench s bench hs := opening_of_steady hs (Service.Idle.bench s bench)

end Server

namespace Service

open EditorService.Server

theorem opens_openFolder (uri : String) : Moves Opens (openFolder uri) := by
  refine Moves.get_bind fun s => Drift.present_bind fun own _ => ?_
  refine Drift.bind_ok (fun hs => opening_of_steady hs (steady_newConfig _ _ _ _ s)) fun c t hnew => ?_
  have hc : (t.configAt? (some c.id)).isSome := by
    obtain ⟨nextConfig, bench, rfl⟩ := newConfig_eq_ok hnew
    exact isSome_configAt?_putConfig c (Or.inl rfl)
  have hsteady := steady_updateConfig c.id own.client t
  refine Drift.bind_ok (fun ht => opening_of_steady ht hsteady) fun _ u hupdate hu => ?_
  rw [hupdate] at hsteady
  rcases perform_newFolder uri c.id u with hsame | ⟨w, hcreate, hopened⟩
  · rw [hsame]
    exact opening_of_steady hu (Drift.rest u)
  · obtain ⟨hid, hempty, hconfig⟩ := create_eq_ok hcreate
    rw [hopened]
    refine opening_withFolder hu uri hid hempty ?_
    rw [hconfig]
    exact hsteady.configs hc

/-- A folder that has been opened is registered. -/
theorem openFolder_eq_ok {uri : String} {s t : Server} (h : (openFolder uri).perform s = (.ok (), t)) :
    (Table.get? t.folders uri).isSome := by
  obtain ⟨_, _, -, h⟩ := perform_bind_eq_ok.mp h
  obtain ⟨_, _, -, h⟩ := perform_bind_eq_ok.mp h
  obtain ⟨_, _, -, h⟩ := perform_bind_eq_ok.mp h
  obtain ⟨_, _, -, h⟩ := perform_bind_eq_ok.mp h
  obtain ⟨w, _, -, h⟩ := perform_bind_eq_ok.mp h
  cases h
  rw [Table.get?_put_self]
  rfl

/-- A folder that is opened changes no other one. -/
theorem keeps_openFolder {uri other : String} (h : other ≠ uri) :
    Keeps (fun s => Table.get? s.folders other) (openFolder uri) := by
  have : Idle (Same fun s => Table.get? s.folders other) := { bench := fun _ _ => rfl }
  refine Moves.bind Moves.get fun s => Moves.bind (Moves.present _) fun own => ?_
  refine Moves.bind (moves_newConfig (fun _ _ => rfl) (fun _ _ => rfl) _ _ _ _) fun c => ?_
  refine Moves.bind (moves_updateConfig (fun _ _ => rfl) _ _) fun _ u => ?_
  rcases perform_newFolder uri c.id u with hsame | ⟨w, -, hopened⟩
  · rw [hsame]
    rfl
  · rw [hopened]
    exact Table.get?_put_of_ne u.folders w.id h

theorem keeps_openFolders {added : List Value} {other : String} (h : other ∉ added.filterMap named?) :
    Keeps (fun s => Table.get? s.folders other) (openFolders added) := by
  refine Moves.forM _ fun entry hentry => Moves.bind (Moves.ofExcept _) fun named => ?_
  split
  · intro s
    refine Drift.bind_ok (Moves.ofExcept _ s) fun uri t huri => ?_
    refine keeps_openFolder (fun heq => h ?_) t
    exact List.mem_filterMap.mpr ⟨entry, hentry, heq ▸ named?_of_folderUri huri⟩
  · exact Moves.pure _

/-- **The first folder that was opened**, once all are open: it is the one that the first entry names, if it names one,
and it is registered. -/
theorem perform_firstOpened {added : List Value} {s t : Server} (hs : s.Equipped)
    (h : (openFolders added).perform s = (.ok (), t)) :
    (∀ u, (firstOpened added).perform u = (.ok (added.head?.bind named?), u)) ∧
      ∀ uri, added.head?.bind named? = some uri → (Table.get? t.folders uri).isSome := by
  cases added with
  | nil => exact ⟨fun u => rfl, nofun⟩
  | cons entry rest =>
    obtain ⟨_, v, hentry, hrest⟩ := perform_bind_eq_ok.mp h
    obtain ⟨named, s', hnamed, hentry⟩ := perform_bind_eq_ok.mp hentry
    simp only [namesFolder, perform_ofExcept] at hnamed
    obtain ⟨hholds, rfl⟩ := Prod.mk.inj hnamed
    simp only [List.head?_cons, Option.bind_some]
    cases named with
    | false =>
      rw [named?_of_not_holds hholds]
      exact ⟨fun u => by simp [firstOpened, namesFolder, hholds], nofun⟩
    | true =>
      obtain ⟨uri, s', huri, hopen⟩ := perform_bind_eq_ok.mp hentry
      have hname := named?_of_folderUri huri
      rw [perform_folderUri hname] at huri
      cases huri
      rw [hname]
      refine ⟨fun u => ?_, fun _ heq => ?_⟩
      · simp only [firstOpened, namesFolder, perform_bind, perform_ofExcept, hholds, if_true, perform_folderUri hname,
          perform_pure]
      · cases heq
        -- The folders behind the first one may take its place, but they do not close it.
        have hthere := openFolder_eq_ok hopen
        have hfirst := opens_openFolder uri s hs
        rw [hopen] at hfirst
        have hopening := moves_openFolders opens_openFolder rest v hfirst.equipped
        have hrest' : (openFolders rest).perform v = (.ok (), t) := hrest
        rw [hrest'] at hopening
        rcases hopening.folder uri with hsame | ⟨id, -, hnew⟩
        · rw [hsame]
          exact hthere
        · rw [hnew]
          rfl

/-! ## The next root -/

/-- The least of some texts is one of them, and none is smaller. -/
theorem least?_of_ne_nil {uris : List String} (h : uris ≠ []) :
    ∃ uri ∈ uris, least? uris = some uri ∧ ∀ other ∈ uris, uri ≤ other := by
  induction uris with
  | nil => exact absurd rfl h
  | cons a rest ih =>
    by_cases hrest : rest = []
    · subst hrest
      exact ⟨a, List.mem_cons_self, rfl, fun other hother => by simp_all⟩
    · obtain ⟨b, hb, hleast, hle⟩ := ih hrest
      simp only [least?, hleast]
      by_cases hlt : b < a
      · refine ⟨b, List.mem_cons_of_mem a hb, by rw [if_pos hlt], fun other hother => ?_⟩
        rcases List.mem_cons.mp hother with rfl | hmem
        · exact String.not_lt.mp (String.lt_asymm hlt)
        · exact hle other hmem
      · refine ⟨a, List.mem_cons_self, by rw [if_neg hlt], fun other hother => ?_⟩
        rcases List.mem_cons.mp hother with rfl | hmem
        · exact String.le_refl _
        · exact String.le_trans (String.not_lt.mp hlt) (hle other hmem)

/-- Whether the root was closed, where all entries name a URI. -/
theorem perform_closedRoot {removed : List Value} (h : ∀ entry ∈ removed, (named? entry).isSome) {s : Server}
    {root : String} (hroot : s.rootUri = some root) :
    (closedRoot removed).perform s = (.ok (decide (root ∈ removed.filterMap named?)), s) := by
  induction removed with
  | nil => simp [closedRoot]
  | cons entry rest ih =>
    obtain ⟨uri, hname⟩ := Option.isSome_iff_exists.mp (h entry List.mem_cons_self)
    have hrest := ih fun e he => h e (List.mem_cons_of_mem entry he)
    rw [List.filterMap_cons_some hname]
    simp only [closedRoot, perform_bind, perform_ofExcept, named?_eq_some.mp hname, perform_get, hroot]
    by_cases heq : root = uri
    · simp [heq]
    · simp [heq, hrest]

end Service

/-! ## A root that is a folder -/

namespace Server

/-- **The root is a folder**: its URI is registered, for the workspace that is the root, and the service uses the
configuration of this workspace. -/
structure Rooted (s : Server) : Prop where
  folder : ∃ uri id, s.rootUri = some uri ∧ Table.get? s.folders uri = some id ∧ s.root = some id
  config : ∃ w, s.rootWorkspace? = some w ∧ w.config = s.config ∧ s.ownConfig?.isSome

theorem map_rootWorkspace? (s : Server) :
    s.rootWorkspace?.map Workspace.emptied = s.layout.root.bind s.layout.bare := by
  rw [rootWorkspace?, Option.map_bind]
  rfl

/-- What makes a root a folder: its number, what there is under the number, and the two configurations. -/
theorem Rooted.of_same {s t : Server} (hs : Rooted s) (ht : t.Equipped) (hrootUri : t.rootUri = s.rootUri)
    (hroot : t.root = s.root) (hconfig : t.config = s.config)
    (hfolder : ∀ {uri}, s.rootUri = some uri → Table.get? t.folders uri = Table.get? s.folders uri)
    (hbare : ∀ {id}, s.root = some id → t.layout.bare id = s.layout.bare id) : Rooted t where
  folder := by
    obtain ⟨uri, id, huri, hid, hr⟩ := hs.folder
    exact ⟨uri, id, hrootUri.trans huri, (hfolder huri).trans hid, hroot.trans hr⟩
  config := by
    obtain ⟨w, hw, hwconfig, -⟩ := hs.config
    obtain ⟨_, id, -, -, hr⟩ := hs.folder
    have hsame : t.rootWorkspace?.map Workspace.emptied = s.rootWorkspace?.map Workspace.emptied := by
      rw [map_rootWorkspace?, map_rootWorkspace?]
      show t.root.bind t.layout.bare = s.root.bind s.layout.bare
      rw [hroot, hr, Option.bind_some, Option.bind_some, hbare hr]
    rw [hw, Option.map_some, Option.map_eq_some_iff] at hsame
    obtain ⟨v, hv, hemptied⟩ := hsame
    have hvconfig : v.emptied.config = w.emptied.config := by rw [hemptied]
    exact ⟨v, hv, (show v.config = w.config from hvconfig).trans (hwconfig.trans hconfig.symm), ht.own⟩

theorem Rooted.of_steady {s t : Server} (hs : Rooted s) (he : s.Equipped) (h : Steady s t) : Rooted t := by
  have hopening := opening_of_steady he h
  have hlayout := h.layout he.sound
  refine hs.of_same hopening.equipped hopening.rootUri hopening.root hopening.config (fun _ => ?_) fun _ => by rw [hlayout]
  show Table.get? t.layout.folders _ = Table.get? s.layout.folders _
  rw [hlayout]

/-- The service with the root moved to a workspace. -/
def withRoot (s : Server) (uri : String) (w : Workspace) : Server :=
  { s with rootUri := some uri, config := w.config, root := some w.id }

theorem equipped_withRoot {s : Server} (hs : s.Equipped) (uri : String) {w : Workspace}
    (hw : Table.get? s.workspaces w.id = some w) : (s.withRoot uri w).Equipped := by
  have hbare : s.layout.bare w.id = some w.emptied := bare_of_get hw
  have hown : (s.configAt? w.emptied.config).isSome := hs.each hbare
  refine ⟨⟨⟨w.id, rfl, ?_⟩, hs.sound.folder, hs.sound.own, hs.sound.fresh⟩, hown, hs.each⟩
  show (s.layout.bare w.id).isSome
  rw [hbare]
  rfl

theorem rooted_withRoot {s : Server} (hs : s.Equipped) {uri : String} {w : Workspace}
    (hfolder : Table.get? s.folders uri = some w.id) (hw : Table.get? s.workspaces w.id = some w) :
    Rooted (s.withRoot uri w) where
  folder := ⟨uri, w.id, rfl, hfolder, rfl⟩
  config := ⟨w, hw, rfl, (equipped_withRoot hs uri hw).own⟩

end Server

namespace Service

open EditorService.Server

/-- **The root moves to a folder.** -/
theorem perform_moveRoot {s : Server} (hs : s.Equipped) {uri : String} (h : (Table.get? s.folders uri).isSome) :
    ∃ w, Table.get? s.folders uri = some w.id ∧ Table.get? s.workspaces w.id = some w ∧
      (moveRoot uri).perform s = (.ok (), s.withRoot uri w) := by
  obtain ⟨id, hid⟩ := Option.isSome_iff_exists.mp h
  obtain ⟨w, hw⟩ := workspace_of_live hs.sound (Or.inr ⟨uri, hid⟩)
  have hown := own_id hs.sound hw
  subst hown
  refine ⟨w, hid, hw, ?_⟩
  simp only [moveRoot, perform_bind, perform_modify, perform_get, hid, hw, perform_present_some]
  rfl

/-- Documents move, and the root stays. -/
theorem steady_moveDocuments {s : Server} (hs : s.layout.Sound) :
    ∃ t, moveDocuments.perform s = (.ok (), t) ∧ Steady s t := by
  obtain ⟨root, hroot, -⟩ := hs.root
  obtain ⟨t, hrun, hlayout, -⟩ := perform_moveDocuments hs hroot
  have : Idle (Same fun s => (s.rootUri, s.config, s.configs)) := { bench := fun _ _ => rfl }
  have hsame : Keeps (fun s => (s.rootUri, s.config, s.configs)) moveDocuments := moves_moveDocuments fun _ _ => rfl
  have hview := hsame s
  rw [hrun] at hview
  obtain ⟨hrootUri, hconfig, hconfigs⟩ : t.rootUri = s.rootUri ∧ t.config = s.config ∧ t.configs = s.configs := by
    simpa [Same] using hview
  refine ⟨t, hrun, fun _ => hlayout, hrootUri, hconfig, fun h => ?_⟩
  rw [configAt?, hconfigs]
  exact h

end Service

/-! ## A folder event -/

namespace Server

open EditorService.Service

/-- **Halfway through a folder event**: folders have been closed and opened, and the root is still the one there was. -/
structure Refolded (s t : Server) (event : Value) : Prop where
  equipped : t.Equipped
  rootUri : t.rootUri = s.rootUri
  root : t.root = s.root
  config : t.config = s.config
  bare : ∀ {id}, (s.layout.bare id).isSome → t.layout.bare id = s.layout.bare id
  closed : ∀ {uri id}, uri ∈ closedBy event → Table.get? t.folders uri = some id → s.nextWorkspace ≤ id
  others : ∀ {uri}, uri ∉ closedBy event → uri ∉ openedBy event → Table.get? t.folders uri = Table.get? s.folders uri

/-- Fewer folders are no harm. -/
theorem equipped_withFewer {s : Server} (hs : s.Equipped) {folders : Table String WorkspaceId}
    (h : ∀ {uri id}, Table.get? folders uri = some id → Table.get? s.folders uri = some id) :
    ({ s with folders } : Server).Equipped :=
  ⟨⟨hs.sound.root, fun hfolder => hs.sound.folder (h hfolder), hs.sound.own, hs.sound.fresh⟩, hs.own, hs.each⟩

theorem refolded_of_opening {s t : Server} {event : Value} {folders : Table String WorkspaceId}
    (hfolders : ∀ uri, Table.get? folders uri = if uri ∈ closedBy event then none else Table.get? s.folders uri)
    (h : Opening { s with folders } t)
    (hothers : ∀ {uri}, uri ∉ openedBy event → Table.get? t.folders uri = Table.get? folders uri) :
    Refolded s t event where
  equipped := h.equipped
  rootUri := h.rootUri
  root := h.root
  config := h.config
  bare hid := h.bare hid
  closed {uri id} hclosed hid := by
    rcases h.folder uri with hsame | ⟨new, hnew, hget⟩
    · rw [hid, hfolders, if_pos hclosed] at hsame
      cases hsame
    · cases hget.symm.trans hid
      exact hnew
  others hclosed hopened := by rw [hothers hopened, hfolders, if_neg hclosed]

/-- An event that closes the root and fails on the way leaves a root that is not registered. -/
theorem Refolded.not_rooted {s t : Server} (hs : s.Equipped) {event : Value} (h : Refolded s t event)
    {root : String} (hroot : s.rootUri = some root) (hclosed : root ∈ closedBy event) : ¬ Rooted t := by
  intro ht
  obtain ⟨uri, id, huri, hid, hnumber⟩ := ht.folder
  rw [h.rootUri, hroot] at huri
  cases huri
  -- The URI may be registered again, but for a workspace that is new, and the root is an old one.
  have hnew := h.closed hclosed hid
  rw [h.root] at hnumber
  have hlt : id < s.nextWorkspace := hs.sound.fresh (hs.sound.bare_of_live (Or.inl hnumber))
  exact absurd hlt (Nat.not_lt.mpr hnew)

/-- An event that leaves the root open. -/
theorem Refolded.rooted {s t : Server} (hs : s.Equipped) (hr : Rooted s) {event : Value} (h : Refolded s t event)
    (hfresh : ∀ uri ∈ openedBy event, (Table.get? s.folders uri).isSome → uri ∈ closedBy event) {root : String}
    (hroot : s.rootUri = some root) (hopen : root ∉ closedBy event) : Rooted t := by
  obtain ⟨uri, id, huri, hid, -⟩ := hr.folder
  cases hroot.symm.trans huri
  have hthere : (Table.get? s.folders root).isSome := by
    rw [hid]
    rfl
  refine hr.of_same h.equipped h.rootUri h.root h.config (fun {uri} heq => ?_) fun {id} hnumber => ?_
  · cases hroot.symm.trans heq
    exact h.others hopen fun hadded => hopen (hfresh root hadded hthere)
  · exact h.bare (hs.sound.bare_of_live (Or.inl hnumber))

/-- **The URI that takes the place of the root**: the one that the first entry opens, or else the least that is left. -/
def NextRoot (event : Value) (folders : Table String WorkspaceId) (uri : String) : Prop :=
  match (foldersOf event "added").head?.bind named? with
  | some first => uri = first
  | none => uri ∈ folders.keys ∧ ∀ other ∈ folders.keys, uri ≤ other

end Server

namespace Service

open EditorService.Server

theorem foldersOf_eq {event v : Value} {side : String} {l : List Value} (h : event.getD side (.list []) = .ok v)
    (hl : v.elements = .ok l) : foldersOf event side = l := by
  rw [foldersOf, h]
  show v.elements.toOption.getD [] = l
  rw [hl]
  rfl

theorem foldersOf_eq_nil {event : Value} {side : String} {f : Fault}
    (h : (event.getD side (.list [])).bind Value.elements = .error f) : foldersOf event side = [] := by
  rw [foldersOf, h]
  rfl

/-- An event that closes nothing and opens nothing yet. -/
theorem refolded_rest {s : Server} (hs : s.Equipped) {event : Value} (h : closedBy event = []) :
    Refolded s s event := by
  have hall : ∀ uri, Table.get? s.folders uri = if uri ∈ closedBy event then none else Table.get? s.folders uri := by
    simp [h]
  exact refolded_of_opening hall (opening_of_steady hs (Drift.rest s)) fun _ => rfl

/-- **What the service reads from a folder event.** Where there is no list of folders to close, it does nothing. -/
theorem perform_arrangeFolders_read (event : Value) (s : Server) :
    (closedBy event = [] ∧ ∃ f, (arrangeFolders event).perform s = (.error f, s)) ∨
      ∃ opened : Except Fault (List Value), (∀ added, opened = .ok added → foldersOf event "added" = added) ∧
        (arrangeFolders event).perform s = (do
          closeFolders (foldersOf event "removed")
          let added ← ofExcept opened
          openFolders added
          replaceRoot added (foldersOf event "removed") : Service Unit).perform s := by
  have hnothing : ∀ f, (event.getD "removed" (.list [])).bind Value.elements = .error f → closedBy event = [] := by
    intro f h
    rw [closedBy, foldersOf_eq_nil h]
    rfl
  cases event with
  | dict entries =>
    simp only [arrangeFolders, eventFolders, Value.getD]
    generalize hadded : (Table.get? entries "added").getD (.list []) = added
    generalize hremoved : (Table.get? entries "removed").getD (.list []) = removed
    simp only [Value.getD, hremoved] at hnothing
    cases hgone : removed.elements with
    | error f =>
      refine Or.inl ⟨hnothing f hgone, f, ?_⟩
      simp only [perform_bind, perform_ofExcept, hgone]
    | ok gone =>
      have hgone' : foldersOf (.dict entries) "removed" = gone :=
        foldersOf_eq (by rw [Value.getD, hremoved]) hgone
      refine Or.inr ⟨added.elements, fun opened hopened => foldersOf_eq (by rw [Value.getD, hadded]) hopened, ?_⟩
      simp only [perform_bind, perform_ofExcept, hgone, hgone']
  | _ => exact Or.inl ⟨hnothing _ rfl, _, rfl⟩

/-- **The first half of a folder event.** It ends in a fault, or the service goes on to see about the root. -/
theorem perform_arrangeFolders {s : Server} (hs : s.Equipped) {event : Value}
    (hnamed : ∀ entry ∈ foldersOf event "removed", (named? entry).isSome) :
    ∃ t, Refolded s t event ∧
      ((∃ f, (arrangeFolders event).perform s = (.error f, t)) ∨
        ((arrangeFolders event).perform s =
            (replaceRoot (foldersOf event "added") (foldersOf event "removed")).perform t ∧
          (∀ u, (firstOpened (foldersOf event "added")).perform u =
            (.ok ((foldersOf event "added").head?.bind named?), u)) ∧
          ∀ uri, (foldersOf event "added").head?.bind named? = some uri → (Table.get? t.folders uri).isSome)) := by
  rcases perform_arrangeFolders_read event s with ⟨hclosed, hfault⟩ | ⟨opened, hopened, hrun⟩
  · exact ⟨s, refolded_rest hs hclosed, Or.inl hfault⟩
  · obtain ⟨folders, hclose, hget⟩ := perform_closeFolders hnamed s
    have hfewer : ({ s with folders } : Server).Equipped := by
      refine equipped_withFewer hs fun {uri id} h => ?_
      rw [hget] at h
      split at h
      · cases h
      · exact h
    rw [hrun]
    simp only [perform_bind, hclose, perform_ofExcept]
    cases opened with
    | error f => exact ⟨_, refolded_of_opening hget (opening_of_steady hfewer (Drift.rest _)) fun _ => rfl, Or.inl ⟨f, rfl⟩⟩
    | ok added =>
      have hadded := hopened added rfl
      have hopening := moves_openFolders opens_openFolder added _ hfewer
      have hothers : ∀ {uri}, uri ∉ openedBy event →
          Table.get? ((openFolders added).perform { s with folders }).2.folders uri = Table.get? folders uri := by
        intro uri h
        rw [openedBy, hadded] at h
        exact keeps_openFolders h { s with folders }
      rw [hadded]
      rcases hrest : (openFolders added).perform { s with folders } with ⟨r, t⟩
      rw [hrest] at hopening
      rw [hrest] at hothers
      refine ⟨t, refolded_of_opening hget hopening hothers, ?_⟩
      simp only [hrest]
      cases r with
      | error f => exact Or.inl ⟨f, rfl⟩
      | ok _ => exact Or.inr ⟨rfl, perform_firstOpened hfewer hrest⟩

/-- The root was not closed: it stays. -/
theorem perform_replaceRoot_open {t : Server} {event : Value} {root : String} (hroot : t.rootUri = some root)
    (hnamed : ∀ entry ∈ foldersOf event "removed", (named? entry).isSome)
    (hfirst : ∀ u, (firstOpened (foldersOf event "added")).perform u =
      (.ok ((foldersOf event "added").head?.bind named?), u)) (h : root ∉ closedBy event) :
    (replaceRoot (foldersOf event "added") (foldersOf event "removed")).perform t = (.ok (), t) := by
  have hopen : decide (root ∈ (foldersOf event "removed").filterMap named?) = false := decide_eq_false h
  simp only [replaceRoot, perform_bind, perform_closedRoot hnamed hroot, hfirst, hopen]
  rfl

/-- The root was closed: another folder takes its place, if one is left. -/
theorem perform_replaceRoot_closed {t : Server} (ht : t.Equipped) {event : Value} {root : String}
    (hroot : t.rootUri = some root) (hnamed : ∀ entry ∈ foldersOf event "removed", (named? entry).isSome)
    (hfirst : ∀ u, (firstOpened (foldersOf event "added")).perform u =
      (.ok ((foldersOf event "added").head?.bind named?), u))
    (hthere : ∀ uri, (foldersOf event "added").head?.bind named? = some uri → (Table.get? t.folders uri).isSome)
    (h : root ∈ closedBy event) :
    (t.folders = [] ∧ (replaceRoot (foldersOf event "added") (foldersOf event "removed")).perform t = (.ok (), t)) ∨
      ∃ uri w, NextRoot event t.folders uri ∧ Table.get? t.folders uri = some w.id ∧
        Table.get? t.workspaces w.id = some w ∧
        (replaceRoot (foldersOf event "added") (foldersOf event "removed")).perform t = (.ok (), t.withRoot uri w) := by
  have hclosed : decide (root ∈ (foldersOf event "removed").filterMap named?) = true := decide_eq_true h
  simp only [replaceRoot, perform_bind, perform_closedRoot hnamed hroot, hfirst, hclosed, if_true, perform_get, NextRoot]
  cases hhead : (foldersOf event "added").head?.bind named? with
  | some first =>
    obtain ⟨w, hfolder, hw, hrun⟩ := perform_moveRoot ht (hthere first hhead)
    exact Or.inr ⟨first, w, rfl, hfolder, hw, hrun⟩
  | none =>
    -- There is no first folder: what is left of the step is the choice of the least one.
    show (_ ∧ (match least? t.folders.keys with | some uri => moveRoot uri | none => pure ()).perform t = _) ∨
      ∃ uri w, _ ∧ _ ∧ _ ∧
        (match least? t.folders.keys with | some uri => moveRoot uri | none => pure ()).perform t = _
    by_cases hempty : t.folders = []
    · rw [hempty]
      exact Or.inl ⟨rfl, rfl⟩
    · have hkeys : t.folders.keys ≠ [] := fun hnil => hempty (List.map_eq_nil_iff.mp hnil)
      obtain ⟨uri, hmem, hleast, hle⟩ := least?_of_ne_nil hkeys
      obtain ⟨w, hfolder, hw, hrun⟩ := perform_moveRoot ht ((Table.mem_keys_iff _ _).mp hmem)
      rw [hleast]
      exact Or.inr ⟨uri, w, ⟨hmem, hle⟩, hfolder, hw, hrun⟩

/-- The drift of staying equipped. -/
def Equips (s t : Server) : Prop := s.Equipped → t.Equipped

instance : Idle Equips where
  rest _ hs := hs
  chain hst htu hs := htu (hst hs)
  bench s bench hs := hs.of_steady (Idle.bench s bench)

theorem equips_closeFolder (entry : Value) : Moves Equips (closeFolder entry) := by
  unfold closeFolder
  split
  · refine Moves.modify fun s hs => equipped_withFewer hs fun {uri id} h => ?_
    rw [Table.get?_erase] at h
    split at h
    · cases h
    · exact h
  · exact Moves.throw _
  · exact Moves.throw _
  · exact Moves.pure _

theorem equips_moveRoot (uri : String) : Moves Equips (moveRoot uri) := by
  intro s hs
  cases h : Table.get? s.folders uri with
  | none =>
    simp only [moveRoot, perform_bind, perform_modify, perform_get, h]
    exact ⟨hs.sound, hs.own, hs.each⟩
  | some id =>
    have hthere : (Table.get? s.folders uri).isSome := by
      rw [h]
      rfl
    obtain ⟨w, -, hw, hrun⟩ := perform_moveRoot hs hthere
    rw [hrun]
    exact equipped_withRoot hs uri hw

theorem equips_changeFolders (event : Value) : Moves Equips (changeFolders event) := by
  refine Moves.bind (moves_arrangeFolders equips_closeFolder ?_ equips_moveRoot event) fun _ s hs => ?_
  · exact fun uri s hs => (opens_openFolder uri s hs).equipped
  · obtain ⟨t, hrun, hsteady⟩ := steady_moveDocuments hs.sound
    rw [hrun]
    exact hs.of_steady hsteady

theorem folders_of_steady {s t : Server} (hs : s.Equipped) (h : Steady s t) : t.folders = s.folders := by
  have hfolders : t.layout.folders = s.layout.folders := by rw [h.layout hs.sound]
  exact hfolders

/-- **What a folder event does to the root.** -/
theorem perform_changeFolders {s : Server} (hs : s.Equipped) (hr : Rooted s) {root : String}
    (hroot : s.rootUri = some root) {event : Value}
    (hnamed : ∀ entry ∈ foldersOf event "removed", (named? entry).isSome)
    (hfresh : ∀ uri ∈ openedBy event, (Table.get? s.folders uri).isSome → uri ∈ closedBy event)
    (hleft : ((changeFolders event).perform s).2.folders ≠ []) :
    ∃ r t, (changeFolders event).perform s = (r, t) ∧ t.Equipped ∧
      (root ∉ closedBy event → Rooted t ∧ t.rootUri = some root) ∧
      (root ∈ closedBy event → (∃ f, r = .error f) ∧ ¬ Rooted t ∨
        r = .ok () ∧ Rooted t ∧ ∃ uri, t.rootUri = some uri ∧ NextRoot event t.folders uri) := by
  obtain ⟨t, hrefolded, hcases⟩ := perform_arrangeFolders hs hnamed
  have ht := hrefolded.equipped
  have hrootUri : t.rootUri = some root := hrefolded.rootUri.trans hroot
  rcases hcases with ⟨f, hfault⟩ | ⟨hrun, hfirst, hthere⟩
  · refine ⟨.error f, t, ?_, ht, fun hopen => ?_, fun hclosed => ?_⟩
    · simp only [changeFolders, perform_bind, hfault]
    · exact ⟨hrefolded.rooted hs hr hfresh hroot hopen, hrootUri⟩
    · exact Or.inl ⟨⟨f, rfl⟩, hrefolded.not_rooted hs hroot hclosed⟩
  · by_cases hclosed : root ∈ closedBy event
    · rcases perform_replaceRoot_closed ht hrootUri hnamed hfirst hthere hclosed with
        ⟨hempty, hreplace⟩ | ⟨uri, w, hnext, hfolder, hw, hreplace⟩
      · -- The event has closed all folders, which `hleft` rules out.
        obtain ⟨u, hmove, hsteady⟩ := steady_moveDocuments ht.sound
        refine absurd ?_ hleft
        simp only [changeFolders, perform_bind, hrun, hreplace, hmove, folders_of_steady ht hsteady, hempty]
      · have hequipped := equipped_withRoot ht uri hw
        obtain ⟨u, hmove, hsteady⟩ := steady_moveDocuments hequipped.sound
        refine ⟨.ok (), u, ?_, hequipped.of_steady hsteady, fun hopen => absurd hclosed hopen, fun _ => Or.inr ?_⟩
        · simp only [changeFolders, perform_bind, hrun, hreplace, hmove]
        · refine ⟨rfl, (rooted_withRoot ht hfolder hw).of_steady hequipped hsteady, uri, hsteady.rootUri, ?_⟩
          rw [folders_of_steady hequipped hsteady]
          exact hnext
    · obtain ⟨u, hmove, hsteady⟩ := steady_moveDocuments ht.sound
      have hkept := perform_replaceRoot_open hrootUri hnamed hfirst hclosed
      refine ⟨.ok (), u, ?_, ht.of_steady hsteady, fun hopen => ?_, fun hin => absurd hin hclosed⟩
      · simp only [changeFolders, perform_bind, hrun, hkept, hmove]
      · exact ⟨(hrefolded.rooted hs hr hfresh hroot hopen).of_steady ht hsteady, hsteady.rootUri.trans hrootUri⟩

end Service

/-! ## Turns -/

namespace Client

open EditorService.Service
open EditorService.Server

/-- The folder event that a turn brings; null, where it brings none. -/
def Turn.event : Turn → Value
  | .message _ .didChangeFolders params => param params "event"
  | _ => .null

/-- **A turn closes the root.** -/
def ClosesRoot (s : Server) (turn : Turn) : Prop := ∃ root ∈ closedBy turn.event, s.rootUri = some root

/-- **A fair turn.** It does not start the service again. If it brings a folder event, the event names a URI in all that
it closes, opens nothing that is registered and that it does not close, and leaves a folder. -/
structure Fair (s : Server) (turn : Turn) : Prop where
  later : turn.method? ≠ some .start
  named : ∀ entry ∈ foldersOf turn.event "removed", (named? entry).isSome
  fresh : ∀ uri ∈ openedBy turn.event, (Table.get? s.folders uri).isSome → uri ∈ closedBy turn.event
  left : (turn.serve s).2.folders ≠ []

/-- **All turns of a run are fair**, and those that close the root succeed. -/
def FairAlong (s : Server) : List Turn → Prop
  | [] => True
  | turn :: rest =>
    Fair s turn ∧ (ClosesRoot s turn → (turn.serve s).1 = .ok ()) ∧ FairAlong (turn.serve s).2 rest

variable {s : Server} {turn : Turn}

theorem fromFirst_rooted : FromFirst fun s => s.Equipped ∧ Rooted s where
  opened {t rootUri c w} ht huri hconfig hthere hcreate := by
    have hequipped := fromFirst_equipped.opened ht huri hconfig hthere hcreate
    obtain ⟨-, -, hwconfig⟩ := create_eq_ok hcreate
    refine ⟨hequipped, ⟨rootUri, w.id, huri, Table.get?_put_self _ _ _, rfl⟩, w, ?_, ?_, hequipped.own⟩
    · exact Table.get?_put_self _ _ _
    · exact hwconfig.trans hconfig.symm
  kept h hs := ⟨fromFirst_equipped.kept h hs.1, hs.2.of_steady hs.1 (steady_of_holdings h)⟩

theorem event_eq_null (h : turn.method? ≠ some .didChangeFolders) : turn.event = .null := by
  cases turn with
  | expiry host number => rfl
  | message host method params =>
    cases method with
    | didChangeFolders => exact absurd rfl h
    | _ => rfl

theorem not_closesRoot (h : turn.event = .null) : ¬ ClosesRoot s turn := by
  rintro ⟨root, hroot, -⟩
  rw [h] at hroot
  exact nomatch hroot

/-- A turn that brings a folder event: the service changes its folders, or has no event to see to. -/
theorem serve_folderEvent (h : turn.method? = some .didChangeFolders) (s : Server) :
    (turn.event = .null ∧ (turn.serve s).2 = s.under turn.host) ∨
      turn.serve s = (changeFolders turn.event).perform (s.under turn.host) := by
  cases turn with
  | expiry host number => exact nomatch h
  | message host method params =>
    cases h
    simp only [Turn.serve, Turn.step, Turn.host, Turn.event, handle]
    cases hevent : param params "event" with
    | null => exact Or.inl ⟨rfl, rfl⟩
    | _ =>
      refine Or.inr ?_
      rw [perform_answer, perform_answer]
      rcases (changeFolders _).perform (s.under host) with ⟨r, t⟩
      cases r <;> rfl

/-- **The service stays equipped** in every turn that does not start it, whatever folder events say. -/
theorem equipped_serve (hs : s.Equipped) (hstart : turn.method? ≠ some .start) : (turn.serve s).2.Equipped := by
  by_cases hfolders : turn.method? = some .didChangeFolders
  · have hunder := hs.of_steady (steady_under s turn.host)
    rcases serve_folderEvent hfolders s with ⟨-, hserve⟩ | hserve
    · rw [hserve]
      exact hunder
    · rw [hserve]
      exact equips_changeFolders turn.event _ hunder
  · exact hs.of_steady (steady_serve hstart hfolders s)

theorem equipped_afterTurns (hs : s.Equipped) {run : List Turn} (hrun : ∀ turn ∈ run, turn.method? ≠ some .start) :
    (afterTurns s run).Equipped := by
  induction run generalizing s with
  | nil => exact hs
  | cons turn rest ih =>
    exact ih (equipped_serve hs (hrun turn List.mem_cons_self)) fun k hk => hrun k (List.mem_cons_of_mem turn hk)

/-- **What comes of the root in a turn.** It stays, unless the turn closes it. Then another folder is the root, or the
turn failed and the root is not registered any more. -/
structure RootTurn (s : Server) (turn : Turn) : Prop where
  equipped : (turn.serve s).2.Equipped
  stays : ¬ ClosesRoot s turn → Rooted (turn.serve s).2 ∧ (turn.serve s).2.rootUri = s.rootUri
  moves : ClosesRoot s turn → (∃ f, (turn.serve s).1 = .error f) ∧ ¬ Rooted (turn.serve s).2 ∨
    (turn.serve s).1 = .ok () ∧ Rooted (turn.serve s).2 ∧
      ∃ uri, (turn.serve s).2.rootUri = some uri ∧ NextRoot turn.event (turn.serve s).2.folders uri

theorem rootTurn_of_steady (hs : s.Equipped) (hr : Rooted s) (hnull : turn.event = .null)
    (h : Steady s (turn.serve s).2) : RootTurn s turn where
  equipped := hs.of_steady h
  stays _ := ⟨hr.of_steady hs h, h.rootUri⟩
  moves hcloses := absurd hcloses (not_closesRoot hnull)

/-- **One fair turn.** Without a folder event it is steady; with one it is what `perform_changeFolders` says. -/
theorem rootTurn_of_fair (hs : s.Equipped) (hr : Rooted s) (hfair : Fair s turn) : RootTurn s turn := by
  by_cases hfolders : turn.method? = some .didChangeFolders
  · have hsteady := steady_under s turn.host
    rcases serve_folderEvent hfolders s with ⟨hnull, hserve⟩ | hserve
    · exact rootTurn_of_steady hs hr hnull (by rw [hserve]; exact hsteady)
    · obtain ⟨root, id, hroot, -, -⟩ := hr.folder
      have hleft := hfair.left
      rw [hserve] at hleft
      obtain ⟨r, t, hrun, ht, hopen, hclosed⟩ := perform_changeFolders (hs.of_steady hsteady) (hr.of_steady hs hsteady)
        hroot hfair.named hfair.fresh hleft
      rw [hrun] at hserve
      refine ⟨?_, fun hno => ?_, fun ⟨root', hmem, hroot'⟩ => ?_⟩
      · rw [hserve]
        exact ht
      · rw [hserve, hroot]
        exact hopen fun hmem => hno ⟨root, hmem, hroot⟩
      · rw [hserve]
        cases hroot.symm.trans hroot'
        exact hclosed hmem
  · exact rootTurn_of_steady hs hr (event_eq_null hfolders) (steady_serve hfair.later hfolders s)

/-- **Along a fair run the root is a folder.** -/
theorem rooted_afterTurns (hs : s.Equipped) (hr : Rooted s) {run : List Turn} (hrun : FairAlong s run) :
    (afterTurns s run).Equipped ∧ Rooted (afterTurns s run) := by
  induction run generalizing s with
  | nil => exact ⟨hs, hr⟩
  | cons turn rest ih =>
    obtain ⟨hfair, hsucceeds, hrest⟩ := hrun
    have hturn := rootTurn_of_fair hs hr hfair
    refine ih hturn.equipped ?_ hrest
    by_cases hcloses : ClosesRoot s turn
    · rcases hturn.moves hcloses with ⟨⟨f, hfault⟩, -⟩ | ⟨-, hrooted, -⟩
      · rw [hsucceeds hcloses] at hfault
        exact nomatch hfault
      · exact hrooted
    · exact (hturn.stays hcloses).1

/-- **The root stays registered.** From the start on, after any fair turns, the root is a folder. With the next fair turn
it stays one exactly if the turn does not fail on closing the root. The URI of the root changes only if the turn closes
it, and then it is the first one that was opened, or else the least one that is left. -/
theorem root_stays_registered {s₀ : Server} (hstart : Started s₀) {run : List Turn} (hrun : FairAlong s₀ run) :
    Rooted (afterTurns s₀ run) ∧ ∀ turn, Fair (afterTurns s₀ run) turn →
      let s := afterTurns s₀ run
      let t := (turn.serve s).2
      (Rooted t ↔ (ClosesRoot s turn → (turn.serve s).1 = .ok ())) ∧
        (¬ ClosesRoot s turn → t.rootUri = s.rootUri) ∧
        (ClosesRoot s turn → (turn.serve s).1 = .ok () →
          ∃ uri, t.rootUri = some uri ∧ NextRoot turn.event t.folders uri) := by
  obtain ⟨hequipped, hrooted⟩ := fromFirst_rooted.of_started hstart
  obtain ⟨hs, hr⟩ := rooted_afterTurns hequipped hrooted hrun
  refine ⟨hr, fun turn hfair => ?_⟩
  intro s t
  have hturn := rootTurn_of_fair hs hr hfair
  by_cases hcloses : ClosesRoot s turn
  · rcases hturn.moves hcloses with ⟨⟨f, hfault⟩, hnot⟩ | ⟨hok, hrooted, hnext⟩
    · have hne : ¬ (turn.serve s).1 = .ok () := fun hok => nomatch hfault.symm.trans hok
      exact ⟨⟨fun h => absurd h hnot, fun h => absurd (h hcloses) hne⟩, fun h => absurd hcloses h,
        fun _ hok => absurd hok hne⟩
    · exact ⟨⟨fun _ _ => hok, fun _ => hrooted⟩, fun h => absurd hcloses h, fun _ _ => hnext⟩
  · obtain ⟨hrooted, hsame⟩ := hturn.stays hcloses
    exact ⟨⟨fun _ h => absurd h hcloses, fun _ => hrooted⟩, fun _ => hsame, fun h => absurd h hcloses⟩

/-- A turn that opens and closes folders. -/
def Turn.refolding (added removed : List String) : Turn :=
  .message {} .didChangeFolders (Notice.refolding {} added removed).params

/-- Two folders are opened, and the root is closed. -/
def rootClosed : List Turn :=
  [Turn.refolding ["file:///b", "file:///a"] [], Turn.refolding [] ["file:///ws"]]

theorem fairAlong_rootClosed : FairAlong (startedAt "file:///ws") rootClosed := by
  refine ⟨⟨by decide, ?_, ?_, ?_⟩, fun _ => ?_, ⟨by decide, ?_, ?_, ?_⟩, fun _ => ?_, trivial⟩
  all_goals decide +kernel

/-- The least folder is the root, and then the one that is opened when it is closed too. -/
theorem root_stays_registered_two_moves :
    Started (startedAt "file:///ws") ∧ FairAlong (startedAt "file:///ws") rootClosed ∧
      Fair (afterTurns (startedAt "file:///ws") rootClosed) (Turn.refolding ["file:///d"] ["file:///a"]) ∧
      Rooted (afterTurns (startedAt "file:///ws") rootClosed) ∧
      Rooted ((Turn.refolding ["file:///d"] ["file:///a"]).serve (afterTurns (startedAt "file:///ws") rootClosed)).2 := by
  have hstart : Started (startedAt "file:///ws") := started_startedAt (by decide +kernel)
  have hfair : Fair (afterTurns (startedAt "file:///ws") rootClosed) (Turn.refolding ["file:///d"] ["file:///a"]) :=
    ⟨by decide, by decide +kernel, by decide +kernel, by decide +kernel⟩
  obtain ⟨hrooted, hnext⟩ := root_stays_registered hstart fairAlong_rootClosed
  refine ⟨hstart, fairAlong_rootClosed, hfair, hrooted, (hnext _ hfair).1.mpr fun _ => ?_⟩
  decide +kernel

/-- An event that closes the root and opens two folders. The second of them has a URI that cannot be taken apart. -/
def failedEvent : Turn := Turn.refolding ["file:///c", "file://[x"] ["file:///ws"]

/-- **A fair event that fails on closing the root.** When it fails, the root is closed and one folder has been opened, but
it has not become the root. -/
theorem root_unregistered_by_failed_event :
    Started (startedAt "file:///ws") ∧ Fair (startedAt "file:///ws") failedEvent ∧
      ¬ Rooted (failedEvent.serve (startedAt "file:///ws")).2 := by
  have hroot : (failedEvent.serve (startedAt "file:///ws")).2.rootUri = some "file:///ws" := by decide +kernel
  have hclosed : Table.get? (failedEvent.serve (startedAt "file:///ws")).2.folders "file:///ws" = none := by
    decide +kernel
  refine ⟨started_startedAt (by decide +kernel), ⟨by decide, ?_, ?_, ?_⟩, fun hrooted => ?_⟩
  case refine_4 =>
    obtain ⟨uri, id, huri, hid, -⟩ := hrooted.folder
    cases hroot.symm.trans huri
    cases hclosed.symm.trans hid
  all_goals decide +kernel

end Client

end EditorService
