import EditorService.Proofs.RootFolder

/-!
# The homes of documents

A document remembers the workspace that it was opened in, and it keeps this home when folder events take it elsewhere.
Workspaces keep their numbers for good, so the home of a document is always there: a service that has been started is
**housed** (`housed_serve`, `Started.housed`), whatever messages say.
-/

namespace EditorService

namespace Server

/-- **Every document has a home**: the workspace that it was opened in is there. -/
structure Housed (s : Server) : Prop where
  sound : s.layout.Sound
  home : ∀ {id w d}, Table.get? s.workspaces id = some w → d ∈ w.documents.values →
    (Table.get? s.workspaces d.home).isSome

/-- The drift of staying housed. -/
def Houses (s t : Server) : Prop := s.Housed → t.Housed

theorem Housed.of_workspaces {s t : Server} (hs : s.Housed) (hsound : t.layout.Sound)
    (h : t.workspaces = s.workspaces) : t.Housed := by
  refine ⟨hsound, fun hw hd => ?_⟩
  rw [h] at hw ⊢
  exact hs.home hw hd

theorem Housed.of_store {s t : Server} (hs : s.Housed) (h : t.store = s.store) : t.Housed := by
  refine hs.of_workspaces ?_ (congrArg Store.workspaces h)
  rw [layout_of_store h]
  exact hs.sound

instance : Service.Idle Houses where
  rest _ hs := hs
  chain hst htu hs := htu (hst hs)
  bench _ _ hs := hs.of_store rfl

theorem isSome_putWorkspace {s : Server} (w : Workspace) {id : WorkspaceId} (h : (Table.get? s.workspaces id).isSome) :
    (Table.get? (s.putWorkspace w).workspaces id).isSome := by
  rw [putWorkspace, Table.get?_put]
  split
  · rfl
  · exact h

/-- Other documents in a workspace, each with a home. -/
theorem Housed.write {s : Server} (hs : s.Housed) {id : WorkspaceId} {w : Workspace}
    (hw : Table.get? s.workspaces id = some w) {documents : Table String Document}
    (h : ∀ d ∈ documents.values, (Table.get? s.workspaces d.home).isSome) :
    (s.putWorkspace { w with documents }).Housed := by
  refine ⟨?_, fun {j v d} hv hd => isSome_putWorkspace _ ?_⟩
  · rw [(putDocuments hw (own_id hs.sound hw) documents).1]
    exact hs.sound
  · rw [putWorkspace, Table.get?_put] at hv
    split at hv
    · cases hv
      exact h d hd
    · exact hs.home hv hd

end Server

namespace Service

open EditorService.Server

variable {α : Type}

theorem houses_of_keeps {step : Service α} (h : Keeps Server.store step) : Moves Houses step :=
  fun s hs => hs.of_store (h s)

theorem houses_writable : Writable Houses := by
  intro s uri w documents hw hrewrites hs
  obtain ⟨id, -, hid⟩ := Option.bind_eq_some_iff.mp hw
  refine hs.write hid fun d hd => ?_
  rcases hrewrites d hd with hown | ⟨before, hbefore, hhome⟩
  · rw [hown, own_id hs.sound hid, hid]
    rfl
  · rw [← hhome]
    exact hs.home hid hbefore

/-! ## Folder events -/

theorem houses_closeFolder (entry : Value) : Moves Houses (closeFolder entry) := by
  have hkeeps : Keeps Server.workspaces (closeFolder entry) := by
    unfold closeFolder
    split
    · exact Moves.modify fun _ => rfl
    · exact Moves.throw _
    · exact Moves.throw _
    · exact Moves.pure _
  exact fun s hs => hs.of_workspaces (arranges_closeFolder entry s hs.sound).sound (hkeeps s)

theorem houses_moveRoot (uri : String) : Moves Houses (moveRoot uri) := by
  have hkeeps : Keeps Server.workspaces (moveRoot uri) := by
    refine Moves.bind (Moves.modify fun _ => rfl) fun _ => Moves.bind Moves.get fun s => ?_
    split
    · exact Moves.throw _
    · exact Moves.bind (Moves.present _) fun w => Moves.modify fun _ => rfl
  exact fun s hs => hs.of_workspaces (arranges_moveRoot uri s hs.sound).sound (hkeeps s)

theorem houses_openFolder (uri : String) : Moves Houses (openFolder uri) := by
  refine Moves.bind Moves.get fun s => Moves.bind (Moves.present _) fun own => ?_
  refine Moves.bind (houses_of_keeps (keeps_newConfig _ _ _ _)) fun c => ?_
  refine Moves.bind (houses_of_keeps (keeps_updateConfig _ _)) fun _ t ht => ?_
  rcases perform_newFolder uri c.id t with hsame | ⟨w, hcreate, hnew⟩
  · rw [hsame]
    exact ht
  · obtain ⟨hid, hempty, -⟩ := create_eq_ok hcreate
    rw [hnew]
    refine ⟨(grows_withFolder ht.sound uri hid hempty).sound, fun {id v d} hv hd => isSome_putWorkspace (s := t) w ?_⟩
    change Table.get? (Table.put t.workspaces w.id w) id = some v at hv
    rw [Table.get?_put] at hv
    split at hv
    · cases hv
      rw [hempty] at hd
      exact nomatch hd
    · exact ht.home hv hd

/-- A document takes its home along. -/
theorem houses_moveDocument (uri : String) : Moves Houses (moveDocument uri) := by
  refine Moves.get_bind fun s => Drift.present_bind fun root hroot hs => ?_
  obtain ⟨id, -, hid⟩ := Option.bind_eq_some_iff.mp hroot
  cases hd : root.open? uri with
  | none => exact hs
  | some d =>
    have hhome : (Table.get? s.workspaces d.home).isSome :=
      hs.home hid (List.mem_map_of_mem (Table.mem_of_get? hd))
    have hleft : (s.putWorkspace { root with documents := Table.erase root.documents uri }).Housed := by
      refine hs.write hid fun other hother => ?_
      obtain ⟨e, he, rfl⟩ := List.mem_map.mp hother
      exact hs.home hid (List.mem_map_of_mem (List.mem_filter.mp he).1)
    simp only [perform_bind, perform_modify, perform_get]
    generalize hleave : s.putWorkspace { root with documents := Table.erase root.documents uri } = left at hleft ⊢
    cases htarget : left.workspaceOf? uri with
    | none => exact hleft
    | some target =>
      obtain ⟨j, -, hj⟩ := Option.bind_eq_some_iff.mp htarget
      refine hleft.write hj fun other hother => ?_
      obtain ⟨e, he, rfl⟩ := List.mem_map.mp hother
      rcases Table.mem_put he with rfl | hold
      · rw [← hleave]
        exact isSome_putWorkspace _ hhome
      · exact hleft.home hj (List.mem_map_of_mem hold)

theorem houses_changeFolders (event : Value) : Moves Houses (changeFolders event) := by
  refine Moves.bind (moves_arrangeFolders houses_closeFolder houses_openFolder houses_moveRoot event) fun _ => ?_
  refine Moves.bind Moves.get fun s => Moves.bind (Moves.present _) fun root => ?_
  exact Moves.forM _ fun uri _ => houses_moveDocument uri

/-! ## Turns -/

theorem houses_handle {method : Method} (hstart : method ≠ .start) (hfolders : method ≠ .didChangeFolders)
    (params : Params) : Moves Houses (handle method params) :=
  moves_handle {
    writes := fun _ => houses_writable
    lints := fun _ uri => houses_of_keeps (keeps_lintLater uri _)
    updates := fun _ id client => houses_of_keeps (keeps_updateConfig id client)
    stops := fun _ _ hs => hs.of_store rfl
    ends := fun _ s hs => hs.of_store (congrArg Holdings.store (keeps_close s)) } hstart hfolders params

end Service

namespace Client

open EditorService.Service
open EditorService.Server

/-- **Documents keep their homes** in every turn that does not start the service. -/
theorem housed_serve {s : Server} (hs : s.Housed) {turn : Turn} (hstart : turn.method? ≠ some .start) :
    (turn.serve s).2.Housed := by
  have hunder : (s.under turn.host).Housed := hs.of_store rfl
  by_cases hfolders : turn.method? = some .didChangeFolders
  · rcases serve_folderEvent hfolders s with ⟨-, hserve⟩ | hserve
    · rw [hserve]
      exact hunder
    · rw [hserve]
      exact houses_changeFolders turn.event _ hunder
  · cases turn with
    | message host method params =>
      have hhandle : Moves Houses (handle method params) :=
        houses_handle (fun h => hstart (congrArg some h)) (fun h => hfolders (congrArg some h)) params
      exact Moves.bind hhandle (fun _ => Moves.pure _) (s.under host) hunder
    | expiry host number => exact houses_of_keeps (keeps_expire number) (s.under host) hunder

theorem Started.housed {s : Server} (h : Started s) : s.Housed := by
  refine ⟨h.founded.sound, fun {id w d} hw hd => ?_⟩
  obtain ⟨⟨uri, d⟩, he, rfl⟩ := List.mem_map.mp hd
  have hopen : (Table.get? w.documents uri).isSome := (Table.mem_keys_iff _ _).mp (List.mem_map_of_mem he)
  have hnone : Table.get? w.documents uri = none := (stored?_of_get hw uri).symm.trans (h.founded.empty id uri)
  rw [hnone] at hopen
  exact nomatch hopen

end Client

end EditorService
