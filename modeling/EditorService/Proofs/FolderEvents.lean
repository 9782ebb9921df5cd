import EditorService.Proofs.Layout

/-!
# What a folder event does to workspaces and documents

A folder event has two parts. The first closes folders, opens folders and may find another root; documents stay in
their workspaces. The second takes every document of the root to the workspace that its URI belongs to now.

* **The first part is a drift** (`Arranges`). From a sound layout it leads to a sound one, it changes nothing that is
  stored, and a workspace that can be reached behind it could be reached before or is new and so has nothing in it. A
  fault on the way does not harm this.
* **The second part cannot fail** in a sound layout, it changes no layout, and where each document is after it has a
  closed form (`relocated`).

Only documents of the root move. So a document in any other workspace stays behind when its URI comes to belong
elsewhere, and the service does not find it any more. Both laws are exact about this.
-/

namespace EditorService

namespace Server

/-! ## The first part -/

/-- **From one state to a later one**, as far as folders go. -/
structure Grows (s t : Server) : Prop where
  sound : t.layout.Sound
  stored : t.stored? = s.stored?
  kept : ∀ {id}, (s.layout.bare id).isSome → (t.layout.bare id).isSome
  live : ∀ {id}, t.layout.Live id → s.layout.Live id ∨ s.layout.bare id = none

/-- The drift of the first part: in a sound layout the state grows. -/
def Arranges (s t : Server) : Prop := s.layout.Sound → Grows s t

theorem Grows.trans {s t u : Server} (hst : Grows s t) (htu : Grows t u) : Grows s u where
  sound := htu.sound
  stored := htu.stored.trans hst.stored
  kept h := htu.kept (hst.kept h)
  live h := by
    rcases htu.live h with hlive | hnone
    · exact hst.live hlive
    · refine Or.inr (Option.not_isSome_iff_eq_none.mp fun hsome => ?_)
      have hthere := hst.kept hsome
      rw [hnone] at hthere
      exact Bool.false_ne_true hthere

theorem grows_of_layout {s t : Server} (hs : s.layout.Sound) (hlayout : t.layout = s.layout)
    (hstored : t.stored? = s.stored?) : Grows s t where
  sound := by rwa [hlayout]
  stored := hstored
  kept h := by rwa [hlayout]
  live h := by
    rw [hlayout] at h
    exact Or.inl h

/-- The service with a new workspace, registered under a URI. -/
def withFolder (s : Server) (uri : String) (w : Workspace) : Server :=
  { s with
    nextWorkspace := s.nextWorkspace + 1
    workspaces := Table.put s.workspaces w.id w
    folders := Table.put s.folders uri w.id }

theorem bare_withFolder (s : Server) (uri : String) (w : Workspace) (id : WorkspaceId) :
    (s.withFolder uri w).layout.bare id = if id = w.id then some w.emptied else s.layout.bare id := by
  show (Table.get? (Table.put s.workspaces w.id w) id).map Workspace.emptied = _
  rw [Table.get?_put]
  by_cases h : id = w.id
  · rw [if_pos h, if_pos h, Option.map_some]
  · rw [if_neg h, if_neg h]
    rfl

theorem stored?_withFolder {s : Server} (uri : String) {w : Workspace} (hnew : Table.get? s.workspaces w.id = none)
    (hempty : w.documents = []) : (s.withFolder uri w).stored? = s.stored? := by
  funext id u
  show (Table.get? (Table.put s.workspaces w.id w) id).bind (·.open? u) = _
  rw [Table.get?_put, stored?]
  by_cases h : id = w.id
  · rw [if_pos h, Option.bind_some, Workspace.open?, hempty, h, hnew]
    rfl
  · rw [if_neg h]

/-- **A new folder**: its workspace has the next number, and nothing in it. -/
theorem grows_withFolder {s : Server} (hs : s.layout.Sound) (uri : String) {w : Workspace}
    (hid : w.id = s.nextWorkspace) (hempty : w.documents = []) : Grows s (s.withFolder uri w) := by
  have hnew : s.layout.bare w.id = none := by
    refine Option.not_isSome_iff_eq_none.mp fun hsome => ?_
    have hlt : w.id < s.nextWorkspace := hs.fresh hsome
    rw [hid] at hlt
    exact Nat.lt_irrefl _ hlt
  have hkept : ∀ {id}, (s.layout.bare id).isSome → ((s.withFolder uri w).layout.bare id).isSome := by
    intro id h
    rw [bare_withFolder]
    split
    · rfl
    · exact h
  have hfolder : ∀ {u id}, Table.get? (s.withFolder uri w).layout.folders u = some id →
      id = w.id ∨ Table.get? s.folders u = some id := by
    intro u id h
    change Table.get? (Table.put s.folders uri w.id) u = some id at h
    rw [Table.get?_put] at h
    split at h
    · exact Or.inl (Option.some.inj h).symm
    · exact Or.inr h
  have hself : ((s.withFolder uri w).layout.bare w.id).isSome := by
    rw [bare_withFolder, if_pos rfl]
    rfl
  refine ⟨⟨?_, ?_, ?_, ?_⟩, stored?_withFolder uri (Option.map_eq_none_iff.mp hnew) hempty, hkept, ?_⟩
  · obtain ⟨r, hr, hbare⟩ := hs.root
    exact ⟨r, hr, hkept hbare⟩
  · intro u id h
    rcases hfolder h with rfl | hold
    · exact hself
    · exact hkept (hs.folder hold)
  · intro id v h
    rw [bare_withFolder] at h
    split at h
    · next hself =>
      cases h
      exact hself.symm
    · exact hs.own h
  · intro id h
    show id < s.nextWorkspace + 1
    rw [bare_withFolder] at h
    split at h
    · next hself =>
      rw [hself, hid]
      exact Nat.lt_succ_self _
    · exact Nat.lt_succ_of_lt (hs.fresh h)
  · intro id h
    rcases h with hroot | ⟨u, hu⟩
    · exact Or.inl (Or.inl hroot)
    · rcases hfolder hu with rfl | hold
      · exact Or.inr hnew
      · exact Or.inl (Or.inr ⟨u, hold⟩)

instance : Service.Idle Arranges where
  rest _ hs := grows_of_layout hs rfl rfl
  chain hst htu hs := (hst hs).trans (htu (hst hs).sound)
  bench _ _ hs := grows_of_layout hs rfl rfl

end Server

namespace Service

open EditorService.Server

variable {α : Type}

/-- A step that leaves the workspaces as they are moves along the drift. -/
theorem arranges_of_keeps {step : Service α} (h : Keeps Server.store step) : Moves Arranges step :=
  fun s hs => grows_of_layout hs (layout_of_store (h s)) (stored?_of_store (h s))

/-- A closed folder is not reached by its URI any more; its workspace keeps its number and its documents. -/
theorem arranges_closeFolder (entry : Value) : Moves Arranges (closeFolder entry) := by
  unfold closeFolder
  split
  · next uri =>
    refine Moves.modify fun s hs => ?_
    have hfolder : ∀ {u id}, Table.get? (Table.erase s.folders uri) u = some id → Table.get? s.folders u = some id := by
      intro u id h
      rw [Table.get?_erase] at h
      split at h
      · exact nomatch h
      · exact h
    exact {
      sound := { root := hs.root, folder := fun h => hs.folder (hfolder h), own := hs.own, fresh := hs.fresh }
      stored := rfl
      kept := fun h => h
      live := fun h => Or.inl (h.imp_right fun ⟨u, hu⟩ => ⟨u, hfolder hu⟩) }
  · exact Moves.throw _
  · exact Moves.throw _
  · exact Moves.pure _

theorem create_eq_ok {drives : Bool} {id : WorkspaceId} {rootUri : String} {config : Option ConfigId} {w : Workspace}
    (h : Workspace.create drives id rootUri config = .ok w) : w.id = id ∧ w.documents = [] ∧ w.config = config := by
  obtain ⟨_, _, h⟩ := Fault.bind_eq_ok.mp h
  obtain ⟨_, _, h⟩ := Fault.bind_eq_ok.mp h
  cases h
  exact ⟨rfl, rfl, rfl⟩

/-- A new workspace, registered at once: nothing happens, or there is a new folder. -/
theorem perform_newFolder (uri : String) (config : ConfigId) (s : Server) :
    ((newWorkspace uri config >>= register uri).perform s).2 = s ∨
      ∃ w, Workspace.create s.bench.host.drives s.nextWorkspace uri (some config) = .ok w ∧
        (newWorkspace uri config >>= register uri).perform s = (.ok (), s.withFolder uri w) := by
  simp only [newWorkspace, register, perform_bind, perform_get, perform_ofExcept]
  cases hcreate : Workspace.create s.bench.host.drives s.nextWorkspace uri (some config) with
  | error f => exact Or.inl rfl
  | ok w => exact Or.inr ⟨w, rfl, rfl⟩

theorem arranges_openFolder (uri : String) : Moves Arranges (openFolder uri) := by
  refine Moves.bind Moves.get fun s => Moves.bind (Moves.present _) fun own => ?_
  refine Moves.bind (arranges_of_keeps (keeps_newConfig _ _ _ _)) fun c => ?_
  refine Moves.bind (arranges_of_keeps (keeps_updateConfig _ _)) fun _ => ?_
  intro t ht
  rcases perform_newFolder uri c.id t with hsame | ⟨w, hcreate, hnew⟩
  · rw [hsame]
    exact grows_of_layout ht rfl rfl
  · obtain ⟨hid, hempty, -⟩ := create_eq_ok hcreate
    rw [hnew]
    exact grows_withFolder ht uri hid hempty

/-- The root moves to a folder, and every folder is a workspace that can be reached. -/
theorem arranges_moveRoot (uri : String) : Moves Arranges (moveRoot uri) := by
  refine Moves.bind (arranges_of_keeps (Moves.modify fun _ => rfl)) fun _ => Moves.get_bind fun s hs => ?_
  cases hfolder : Table.get? s.folders uri with
  | none => exact grows_of_layout hs rfl rfl
  | some id =>
    cases hw : Table.get? s.workspaces id with
    | none =>
      simp only [hw]
      exact grows_of_layout hs rfl rfl
    | some w =>
      simp only [hw, perform_bind, perform_present_some, perform_modify]
      refine ⟨⟨⟨id, rfl, hs.folder hfolder⟩, hs.folder, hs.own, hs.fresh⟩, rfl, fun h => h, ?_⟩
      rintro j (hroot | hother)
      · cases hroot
        exact Or.inl (Or.inr ⟨uri, hfolder⟩)
      · exact Or.inl (Or.inr hother)

/-- **The first part of a folder event moves along its drift.** -/
theorem arranges_arrangeFolders (event : Value) : Moves Arranges (arrangeFolders event) :=
  moves_arrangeFolders arranges_closeFolder arranges_openFolder arranges_moveRoot event

end Service

/-! ## The second part -/

namespace Server

/-- **Where the documents are once those of the root have moved**: a document of the root is in the workspace that its
URI belongs to and not in the root any more, unless the two are the same. All others are where they were. -/
def relocated (s : Server) (root id : WorkspaceId) (uri : String) : Option Document :=
  match s.stored? root uri with
  | none => s.stored? id uri
  | some d => if s.workspaceIdOf? uri = some id then some d else if id = root then none else s.stored? id uri

theorem relocated_none {s : Server} {root : WorkspaceId} {uri : String} (h : s.stored? root uri = none)
    (id : WorkspaceId) : s.relocated root id uri = s.stored? id uri := by
  rw [relocated, h]

theorem relocated_some {s : Server} {root : WorkspaceId} {uri : String} {d : Document}
    (h : s.stored? root uri = some d) (id : WorkspaceId) :
    s.relocated root id uri =
      if s.workspaceIdOf? uri = some id then some d else if id = root then none else s.stored? id uri := by
  rw [relocated, h]

theorem stored?_of_get {s : Server} {id : WorkspaceId} {w : Workspace} (hw : Table.get? s.workspaces id = some w)
    (uri : String) : s.stored? id uri = w.open? uri := by
  rw [stored?, hw, Option.bind_some]

theorem relocated_congr {s t : Server} (hlayout : t.layout = s.layout) (root id : WorkspaceId) {uri : String}
    (h : ∀ j, t.stored? j uri = s.stored? j uri) : t.relocated root id uri = s.relocated root id uri := by
  rw [relocated, relocated, h root, h id, workspaceIdOf?_of_layout hlayout]

/-- A document that has moved does not move again. -/
theorem relocated_relocated {s t : Server} (hlayout : t.layout = s.layout) (root id : WorkspaceId) {uri : String}
    (h : ∀ j, t.stored? j uri = s.relocated root j uri) : t.relocated root id uri = s.relocated root id uri := by
  cases hd : s.stored? root uri with
  | none =>
    refine relocated_congr hlayout root id fun j => ?_
    rw [h, relocated_none hd]
  | some d =>
    by_cases hhome : s.workspaceIdOf? uri = some root
    · have hstays : t.stored? root uri = some d := by rw [h, relocated_some hd, if_pos hhome]
      rw [relocated_some hstays, relocated_some hd, workspaceIdOf?_of_layout hlayout, hhome]
      by_cases hid : id = root
      · rw [hid, if_pos rfl, if_pos rfl]
      · have hne : ¬ some root = some id := fun heq => hid (Option.some.inj heq).symm
        rw [if_neg hne, if_neg hne, if_neg hid, if_neg hid, h, relocated_some hd, hhome, if_neg hne, if_neg hid]
    · have hleft : t.stored? root uri = none := by rw [h, relocated_some hd, if_neg hhome, if_pos rfl]
      rw [relocated_none hleft, h]

end Server

namespace Service

open EditorService.Server

/-- One document moves: the step succeeds, and it concerns no other URI. -/
theorem perform_moveDocument {s : Server} (hs : s.layout.Sound) {root : WorkspaceId} (hroot : s.root = some root)
    (uri : String) :
    ∃ t, (moveDocument uri).perform s = (.ok (), t) ∧ t.layout = s.layout ∧
      ∀ id u, t.stored? id u = if u = uri then s.relocated root id u else s.stored? id u := by
  obtain ⟨w, hw, hrootWorkspace⟩ := workspace_of_root hs hroot
  have hstored := stored?_of_get hw
  simp only [moveDocument, perform_bind, perform_get, hrootWorkspace, perform_present_some]
  cases hd : w.open? uri with
  | none =>
    refine ⟨s, rfl, rfl, fun id u => ?_⟩
    split
    · next hu => rw [hu, relocated_none ((hstored uri).trans hd)]
    · rfl
  | some d =>
    -- The document leaves the root first, and then goes to the workspace that its URI belongs to.
    obtain ⟨hlayout, hleft⟩ := putDocuments hw (own_id hs hw) (Table.erase w.documents uri)
    generalize hleave : s.putWorkspace { w with documents := Table.erase w.documents uri } = left at hlayout hleft
    obtain ⟨id, target, hid, -, htarget, hown, hof⟩ := workspace_of_uri (s := left) (by rwa [hlayout]) uri
    obtain ⟨hlayout', harrived⟩ := putDocuments htarget hown (Table.put target.documents uri d)
    refine ⟨left.putWorkspace { target with documents := Table.put target.documents uri d }, ?_,
      hlayout'.trans hlayout, ?_⟩
    · simp only [perform_bind, perform_modify, perform_get, hleave, hof, perform_present_some]
    · intro j u
      rw [workspaceIdOf?_of_layout hlayout] at hid
      have hthere : Table.get? target.documents u = left.stored? id u := (stored?_of_get htarget u).symm
      rw [harrived, Table.get?_put, hthere, hleft, hleft, Table.get?_erase]
      by_cases hu : u = uri
      · subst hu
        rw [if_pos rfl, if_pos rfl, if_pos rfl, relocated_some ((hstored u).trans hd), hid]
        by_cases hj : j = id
        · rw [if_pos hj, hj, if_pos rfl]
        · rw [if_neg hj, if_neg fun h => hj (Option.some.inj h).symm]
      · have hroot' : Table.get? w.documents u = s.stored? root u := (hstored u).symm
        rw [if_neg hu, if_neg hu, if_neg hu, hroot']
        by_cases hj : j = id
        · subst hj
          rw [if_pos rfl]
          split
          · next h => rw [h]
          · rfl
        · rw [if_neg hj]
          split
          · next h => rw [h]
          · rfl

/-- Documents move one after the other, and each has to move once. -/
theorem perform_moveAll {s : Server} (hs : s.layout.Sound) {root : WorkspaceId} (hroot : s.root = some root)
    (uris : List String) :
    ∃ t, (uris.forM moveDocument).perform s = (.ok (), t) ∧ t.layout = s.layout ∧
      ∀ id u, t.stored? id u = if u ∈ uris then s.relocated root id u else s.stored? id u := by
  induction uris generalizing s with
  | nil => exact ⟨s, rfl, rfl, fun id u => (if_neg List.not_mem_nil).symm⟩
  | cons uri rest ih =>
    obtain ⟨t, hrun, hlayout, hstored⟩ := perform_moveDocument hs hroot uri
    have hroot' : t.root = some root := by
      have hsame : t.layout.root = s.layout.root := by rw [hlayout]
      exact hsame.trans hroot
    obtain ⟨u, hrun', hlayout', hstored'⟩ := ih (s := t) (by rwa [hlayout]) hroot'
    refine ⟨u, ?_, hlayout'.trans hlayout, fun id v => ?_⟩
    · show (moveDocument uri >>= fun _ => rest.forM moveDocument).perform s = _
      rw [perform_bind, hrun]
      exact hrun'
    · rw [hstored' id v, hstored id v]
      by_cases hv : v = uri
      · subst hv
        have hmoved : ∀ j, t.stored? j v = s.relocated root j v := fun j => by rw [hstored, if_pos rfl]
        rw [if_pos rfl, if_pos List.mem_cons_self, relocated_relocated hlayout root id hmoved, ite_self]
      · have hsame : ∀ j, t.stored? j v = s.stored? j v := fun j => by rw [hstored, if_neg hv]
        rw [if_neg hv, relocated_congr hlayout root id hsame]
        simp only [List.mem_cons, hv, false_or]

/-- **The second part of a folder event**: it succeeds, it changes no layout, and all documents of the root move. -/
theorem perform_moveDocuments {s : Server} (hs : s.layout.Sound) {root : WorkspaceId} (hroot : s.root = some root) :
    ∃ t, moveDocuments.perform s = (.ok (), t) ∧ t.layout = s.layout ∧
      ∀ id uri, t.stored? id uri = s.relocated root id uri := by
  obtain ⟨w, hw, hrootWorkspace⟩ := workspace_of_root hs hroot
  obtain ⟨t, hrun, hlayout, hstored⟩ := perform_moveAll hs hroot w.documents.keys
  refine ⟨t, ?_, hlayout, fun id uri => ?_⟩
  · simp only [moveDocuments, perform_bind, perform_get, hrootWorkspace, perform_present_some]
    exact hrun
  · rw [hstored]
    split
    · rfl
    · next hnot =>
      rw [Table.mem_keys_iff, Option.not_isSome_iff_eq_none] at hnot
      have hnone : s.stored? root uri = none := (stored?_of_get hw uri).trans hnot
      rw [relocated_none hnone]

/-! ## Both parts -/

/-- **A folder event as a whole.** Either both parts are done and the documents of the root have moved, or nothing that
is stored has changed: the first part ended in a fault, or there was no event in the message and so no part at all. -/
theorem perform_didChangeFolders {s : Server} (hs : s.layout.Sound) (params : Params) :
    ∃ r t u, (handle .didChangeFolders params).perform s = (r, u) ∧ Grows s t ∧ u.layout = t.layout ∧
      ((r = .ok .null ∧ ∃ root, t.root = some root ∧ ∀ id uri, u.stored? id uri = t.relocated root id uri) ∨
        (u.stored? = s.stored? ∧ (u.layout = s.layout ∨ ∃ f, r = .error f))) := by
  simp only [handle]
  generalize param params "event" = event
  split
  · exact ⟨.ok .null, s, s, rfl, grows_of_layout hs rfl rfl, rfl, Or.inr ⟨rfl, Or.inl rfl⟩⟩
  · have hgrows := arranges_arrangeFolders event s hs
    rcases harrange : (arrangeFolders event).perform s with ⟨r, t⟩
    rw [harrange] at hgrows
    simp only [changeFolders, perform_bind, harrange]
    cases r with
    | error f => exact ⟨_, t, t, rfl, hgrows, rfl, Or.inr ⟨hgrows.stored, Or.inr ⟨f, rfl⟩⟩⟩
    | ok _ =>
      obtain ⟨root, hroot, -⟩ := hgrows.sound.root
      obtain ⟨u, hmove, hlayout, hstored⟩ := perform_moveDocuments hgrows.sound hroot
      simp only [hmove]
      exact ⟨_, t, u, rfl, hgrows, hlayout, Or.inl ⟨rfl, root, hroot, hstored⟩⟩

end Service

end EditorService
