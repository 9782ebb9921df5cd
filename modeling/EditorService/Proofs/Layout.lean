import EditorService.Proofs.Steps

/-!
# Where the documents are

The service keeps its documents in workspaces and its workspaces under numbers. A message about a document says only
its URI. So two things decide what happens to it: the **layout**, which is everything about the workspaces but their
documents, and what each workspace **stores** at a URI. The laws about documents and folders are stated through these
two views alone.

A layout is **sound** when every number that the service may come to leads to a workspace: the root does, every folder
does, every workspace stands under its own number, and no number that is still to be given is taken. In a sound layout
every URI belongs to a workspace (`Server.workspace_of_uri`), so no message finds the service without one.

`Live` says which workspaces can be reached. A workspace whose folder was closed still has its number, but nothing leads
to it any more.
-/

namespace EditorService

/-! ## Layouts -/

/-- A workspace without its documents. -/
def Workspace.emptied (w : Workspace) : Workspace := { w with documents := [] }

/-- **The layout of a service**: folders, root and workspaces, documents apart. -/
structure Layout where
  folders : Table String WorkspaceId
  root : Option WorkspaceId
  nextWorkspace : WorkspaceId
  bare : WorkspaceId → Option Workspace

namespace Layout

/-- **A workspace can be reached**: it is the root, or a folder names it. -/
def Live (l : Layout) (id : WorkspaceId) : Prop := l.root = some id ∨ ∃ uri, Table.get? l.folders uri = some id

/-- **A sound layout.** -/
structure Sound (l : Layout) : Prop where
  root : ∃ id, l.root = some id ∧ (l.bare id).isSome
  folder : ∀ {uri id}, Table.get? l.folders uri = some id → (l.bare id).isSome
  own : ∀ {id w}, l.bare id = some w → w.id = id
  fresh : ∀ {id}, (l.bare id).isSome → id < l.nextWorkspace

theorem Sound.bare_of_live {l : Layout} (h : l.Sound) {id : WorkspaceId} (hlive : l.Live id) : (l.bare id).isSome := by
  rcases hlive with hroot | ⟨uri, hfolder⟩
  · obtain ⟨r, hr, hbare⟩ := h.root
    cases hr.symm.trans hroot
    exact hbare
  · exact h.folder hfolder

end Layout

namespace Server

/-- The layout of a service. -/
def layout (s : Server) : Layout :=
  { folders := s.folders
    root := s.root
    nextWorkspace := s.nextWorkspace
    bare := fun id => (Table.get? s.workspaces id).map Workspace.emptied }

/-- **What a workspace stores at a URI.** -/
def stored? (s : Server) (id : WorkspaceId) (uri : String) : Option Document :=
  (Table.get? s.workspaces id).bind (·.open? uri)

/-- **The document that the service finds at a URI**: in the workspace that the URI belongs to. -/
def held? (s : Server) (uri : String) : Option Document := (s.workspaceOf? uri).bind (·.open? uri)

theorem layout_of_store {s t : Server} (h : t.store = s.store) : t.layout = s.layout := by
  rw [store, store, Store.mk.injEq] at h
  rw [layout, layout, h.1, h.2.1, h.2.2.1, h.2.2.2]

theorem stored?_of_store {s t : Server} (h : t.store = s.store) : t.stored? = s.stored? := by
  rw [store, store, Store.mk.injEq] at h
  funext id uri
  rw [stored?, stored?, h.2.1]

theorem workspaceIdOf?_of_layout {s t : Server} (h : t.layout = s.layout) : t.workspaceIdOf? = s.workspaceIdOf? := by
  rw [layout, layout, Layout.mk.injEq] at h
  funext uri
  rw [workspaceIdOf?, workspaceIdOf?, h.1, h.2.1]

theorem held?_eq (s : Server) (uri : String) : s.held? uri = (s.workspaceIdOf? uri).bind (s.stored? · uri) := by
  rw [held?, workspaceOf?, Option.bind_assoc]
  rfl

theorem isSome_bare (s : Server) (id : WorkspaceId) :
    (s.layout.bare id).isSome = (Table.get? s.workspaces id).isSome := Option.isSome_map

/-- What is stored is stored in a workspace that is there. -/
theorem isSome_bare_of_stored? {s : Server} {id : WorkspaceId} {uri : String} (h : (s.stored? id uri).isSome) :
    (s.layout.bare id).isSome := by
  rw [isSome_bare]
  rw [stored?] at h
  cases hw : Table.get? s.workspaces id with
  | none =>
    rw [hw] at h
    exact h
  | some w => rfl

theorem bare_of_get {s : Server} {id : WorkspaceId} {w : Workspace} (hw : Table.get? s.workspaces id = some w) :
    s.layout.bare id = some w.emptied := by
  show (Table.get? s.workspaces id).map Workspace.emptied = _
  rw [hw]
  rfl

theorem own_id {s : Server} (hs : s.layout.Sound) {id : WorkspaceId} {w : Workspace}
    (hw : Table.get? s.workspaces id = some w) : w.id = id := by
  have hown : w.emptied.id = id := hs.own (bare_of_get hw)
  exact hown

/-- The number that a URI belongs to can be reached. -/
theorem live_of_workspaceIdOf? {s : Server} {uri : String} {id : WorkspaceId} (h : s.workspaceIdOf? uri = some id) :
    s.layout.Live id := by
  rw [workspaceIdOf?] at h
  split at h
  · next folder _ =>
    cases hfolder : Table.get? s.folders folder with
    | none =>
      rw [hfolder] at h
      exact Or.inl h
    | some found =>
      rw [hfolder] at h
      cases h
      exact Or.inr ⟨folder, hfolder⟩
  · exact Or.inl h

/-- A workspace that can be reached is there. -/
theorem workspace_of_live {s : Server} (hs : s.layout.Sound) {id : WorkspaceId} (hlive : s.layout.Live id) :
    ∃ w, Table.get? s.workspaces id = some w := by
  have hbare := hs.bare_of_live hlive
  rw [isSome_bare] at hbare
  exact Option.isSome_iff_exists.mp hbare

theorem workspace_of_root {s : Server} (hs : s.layout.Sound) {root : WorkspaceId} (hroot : s.root = some root) :
    ∃ w, Table.get? s.workspaces root = some w ∧ s.rootWorkspace? = some w := by
  obtain ⟨w, hw⟩ := workspace_of_live hs (Or.inl hroot)
  exact ⟨w, hw, by rw [rootWorkspace?, hroot, Option.bind_some, hw]⟩

/-- **In a sound layout every URI belongs to a workspace**, one that can be reached and stands under its own number. -/
theorem workspace_of_uri {s : Server} (hs : s.layout.Sound) (uri : String) :
    ∃ id w, s.workspaceIdOf? uri = some id ∧ s.layout.Live id ∧ Table.get? s.workspaces id = some w ∧ w.id = id ∧
      s.workspaceOf? uri = some w := by
  have hid : ∃ id, s.workspaceIdOf? uri = some id := by
    obtain ⟨r, hr, _⟩ := hs.root
    have hroot : s.root = some r := hr
    rw [workspaceIdOf?]
    split
    · cases Table.get? s.folders _ with
      | none => exact ⟨r, hroot⟩
      | some found => exact ⟨found, rfl⟩
    · exact ⟨r, hroot⟩
  obtain ⟨id, hid⟩ := hid
  have hlive := live_of_workspaceIdOf? hid
  obtain ⟨w, hw⟩ := workspace_of_live hs hlive
  refine ⟨id, w, hid, hlive, hw, own_id hs hw, ?_⟩
  rw [workspaceOf?, hid, Option.bind_some, hw]

/-- New documents in a workspace change no layout, and nothing that another workspace stores. -/
theorem putDocuments {s : Server} {id : WorkspaceId} {w : Workspace} (hw : Table.get? s.workspaces id = some w)
    (hid : w.id = id) (documents : Table String Document) :
    (s.putWorkspace { w with documents }).layout = s.layout ∧
      ∀ j uri, (s.putWorkspace { w with documents }).stored? j uri =
        if j = id then Table.get? documents uri else s.stored? j uri := by
  subst hid
  have hget : ∀ j, Table.get? (s.putWorkspace { w with documents }).workspaces j =
      if j = w.id then some { w with documents } else Table.get? s.workspaces j :=
    fun j => Table.get?_put s.workspaces w.id j _
  constructor
  · simp only [layout, putWorkspace, Layout.mk.injEq, true_and]
    funext j
    have hj := hget j
    simp only [putWorkspace] at hj
    rw [hj]
    by_cases h : j = w.id
    · rw [if_pos h, h, hw]
      rfl
    · rw [if_neg h]
  · intro j uri
    rw [stored?, hget j]
    by_cases h : j = w.id
    · rw [if_pos h, if_pos h]
      rfl
    · rw [if_neg h, if_neg h, stored?]

end Server

end EditorService
