import EditorService.Proofs.FolderEvents
import EditorService.Proofs.Splice
import Mathlib.Data.List.Forall2

/-!
# What the handlers for documents do

Three handlers write documents: one opens, one changes, one closes. Each **writes one entry** (`Server.Writes`): the
layout stays, and of all that is stored only the entry of the URI changes, in the workspace that the URI belongs to.
Every other handler but those for the start and for folders leaves all workspaces as they are (`keeps_handle`).

* Opening stores a document with the text and version of the client, unless the workspace cannot take a document with
  that URI. Then it fails, and nothing is changed (`perform_didOpen`). `Workspace.refusal?` says why it cannot; one of the
  reasons is that the attempt never ends.
* Changing puts the edits into the text one after the other. It fails exactly when there is an edit to make and no
  document to make it in, and then nothing is changed (`perform_didChange`).
* Closing removes the entry, and fails exactly when there is none (`perform_didClose`).
-/

namespace EditorService

/-! ## Which documents a workspace takes -/

/-- Whether the directories between a root and a path can be searched. A path without a directory cannot be reached
from a root, unless the search finds out before that the two do not start alike. -/
def Search.searchable (root path : String) : Bool :=
  root.toList.isEmpty || path.toList.isEmpty || root.toList.head? != path.toList.head? ||
    !(Path.directory path.toList).isEmpty

theorem Search.findParents_searchable (there : String → Bool) {root path : String} (names : List String)
    (h : searchable root path = true) : ∃ found, findParents there root path names = .ok found := by
  rw [searchable, Bool.or_eq_true] at h
  rw [findParents]
  split
  · exact ⟨[], rfl⟩
  · next hnot =>
    have hdirectory := h.resolve_left hnot
    rw [Bool.not_eq_true'] at hdirectory
    simp only [chainTo, Path.relative, hdirectory]
    exact ⟨_, rfl⟩

theorem Search.findParents_not_searchable (there : String → Bool) {root path : String} (names : List String)
    (h : searchable root path = false) : findParents there root path names = .error .pathMissing := by
  rw [searchable, Bool.or_eq_false_iff, Bool.not_eq_false'] at h
  rw [findParents, if_neg (by rw [h.1]; exact Bool.false_ne_true)]
  simp only [chainTo, Path.relative, h.2]
  rfl

namespace Workspace

/-- **Why a workspace does not take a document**: its URI names no path, or one that cannot be searched from the root. Or
the packages around the path do not end, and then the attempt does not end either. -/
def refusal? (w : Workspace) (host : Host) (uri : String) : Option Fault :=
  match Uri.toPath host.drives uri with
  | .error f => some f
  | .ok path =>
    if Search.searchable w.rootPath path = false then some .pathMissing
    else if (host.files.dottedName? path).isNone then some .endless
    else none

/-- **Whether a workspace takes a document.** -/
def takes (w : Workspace) (host : Host) (uri : String) : Bool := (w.refusal? host uri).isNone

/-- **A new document**: either there is a reason not to take it, or it is made with its text and version. -/
theorem newDocument_cases (w : Workspace) (host : Host) (uri : String) (source : Option String) (version : Value) :
    (∃ f, w.refusal? host uri = some f ∧ w.newDocument host uri source version = .error f) ∨
      ∃ d, w.refusal? host uri = none ∧ w.newDocument host uri source version = .ok d ∧ d.source = source ∧
        d.version = version := by
  rw [refusal?]
  cases hpath : Uri.toPath host.drives uri with
  | error f => exact .inl ⟨f, rfl, by rw [newDocument, hpath]; rfl⟩
  | ok path =>
    cases hsearch : Search.searchable w.rootPath path with
    | false =>
      refine .inl ⟨_, if_pos hsearch, ?_⟩
      rw [newDocument, hpath]
      show (w.sourceRoots host.files path >>= _) = _
      rw [sourceRoots, sourceRootsWhere, Search.findParents_not_searchable _ _ hsearch]
      rfl
    | true =>
      obtain ⟨found, hfound⟩ := Search.findParents_searchable host.files.has ["setup.py", "pyproject.toml"] hsearch
      obtain ⟨roots, hroots⟩ : ∃ roots, w.sourceRoots host.files path = .ok roots := by
        rw [sourceRoots, sourceRootsWhere, hfound]
        exact ⟨_, rfl⟩
      have hnew : w.newDocument host uri source version =
          Document.create host.files host.drives w.id uri source version roots := by
        rw [newDocument, hpath]
        show (w.sourceRoots host.files path >>= _) = _
        rw [hroots]
        rfl
      dsimp only
      rw [hnew, if_neg (by rw [hsearch]; decide)]
      cases hname : host.files.dottedName? path with
      | none => exact .inl ⟨_, rfl, Document.create_of_endless hpath hname⟩
      | some dottedName =>
        exact .inr ⟨_, rfl, Document.create_eq_ok_iff.mpr ⟨path, dottedName, hpath, hname, rfl⟩, rfl, rfl⟩

-- Two unsaved documents next to a root on a drive. The name of the first starts with the letter of the drive. Where the
-- current directory is a package, the second one never gets a name.
example :
    let w : Workspace := { id := 0, rootUri := "file:///c:/ws", rootPath := "c:/ws", scheme := "file" }
    w.takes {} "untitled:config.py" = false ∧ w.takes {} "untitled:main.py" = true ∧
      w.refusal? { files := { files := [("/__init__.py", .text "")] } } "untitled:main.py" = some .endless := by
  decide +kernel

end Workspace

namespace Server

/-- Why the workspace that a URI belongs to does not take a document with that URI. -/
def refusal? (s : Server) (host : Host) (uri : String) : Option Fault := (s.workspaceOf? uri).bind (·.refusal? host uri)

/-- Whether the workspace that a URI belongs to takes a document with that URI. -/
def takes (s : Server) (host : Host) (uri : String) : Bool := (s.workspaceOf? uri).any (·.takes host uri)

/-! ## Writing one entry -/

/-- **One entry is written.** -/
structure Writes (s t : Server) (uri : String) (entry : Option Document) : Prop where
  layout : t.layout = s.layout
  stored : ∀ id u, t.stored? id u = if u = uri ∧ s.workspaceIdOf? uri = some id then entry else s.stored? id u

/-- **Documents are settled** when what is stored in a workspace that can be reached belongs there. -/
def Settled (s : Server) : Prop :=
  ∀ {id uri}, s.layout.Live id → (s.stored? id uri).isSome → s.workspaceIdOf? uri = some id

namespace Writes

variable {s t u : Server} {uri : String} {entry : Option Document}

theorem of_store (h : t.store = s.store) (uri : String) : Writes s t uri (s.held? uri) where
  layout := layout_of_store h
  stored id u := by
    rw [stored?_of_store h]
    split
    · next hu => rw [held?_eq, hu.2, hu.1, Option.bind_some]
    · rfl

/-- New documents in the workspace of a URI, different at the URI only. -/
theorem of_put (hs : s.layout.Sound) {w : Workspace} (hw : s.workspaceOf? uri = some w)
    {documents : Table String Document} (hentry : Table.get? documents uri = entry)
    (hother : ∀ v, v ≠ uri → Table.get? documents v = w.open? v)
    (ht : t.store = (s.putWorkspace { w with documents }).store) : Writes s t uri entry := by
  obtain ⟨id, found, hid, -, hfound, hown, hof⟩ := workspace_of_uri hs uri
  cases hw.symm.trans hof
  obtain ⟨hlayout, hstored⟩ := putDocuments hfound hown documents
  refine ⟨(layout_of_store ht).trans hlayout, fun j v => ?_⟩
  rw [stored?_of_store ht, hstored, hid]
  by_cases hj : j = id
  · rw [if_pos hj, hj]
    by_cases hv : v = uri
    · rw [if_pos ⟨hv, rfl⟩, hv, hentry]
    · rw [if_neg fun h => hv h.1, hother v hv, stored?_of_get hfound]
  · rw [if_neg hj, if_neg fun h => hj (Option.some.inj h.2).symm]

theorem trans {entry' : Option Document} (hst : Writes s t uri entry) (htu : Writes t u uri entry') :
    Writes s u uri entry' where
  layout := htu.layout.trans hst.layout
  stored id v := by
    rw [htu.stored, hst.stored, workspaceIdOf?_of_layout hst.layout]
    by_cases h : v = uri ∧ s.workspaceIdOf? uri = some id
    · rw [if_pos h, if_pos h]
    · rw [if_neg h, if_neg h, if_neg h]

/-- What the service finds after an entry was written. -/
theorem held (h : Writes s t uri entry) (hs : s.layout.Sound) (v : String) :
    t.held? v = if v = uri then entry else s.held? v := by
  obtain ⟨id, w, hid, -⟩ := workspace_of_uri hs v
  rw [held?_eq, held?_eq, workspaceIdOf?_of_layout h.layout, hid, Option.bind_some, Option.bind_some, h.stored]
  by_cases hv : v = uri
  · rw [if_pos hv, if_pos ⟨hv, hv ▸ hid⟩]
  · rw [if_neg hv, if_neg fun hboth => hv hboth.1]

theorem settled (h : Writes s t uri entry) (hs : s.Settled) : t.Settled := by
  intro id v hlive hsome
  rw [h.layout] at hlive
  rw [workspaceIdOf?_of_layout h.layout]
  rw [h.stored] at hsome
  split at hsome
  · next hboth => rw [hboth.1, hboth.2]
  · exact hs hlive hsome

theorem sound (h : Writes s t uri entry) (hs : s.layout.Sound) : t.layout.Sound := by
  rwa [h.layout]

end Writes

end Server

/-- The methods whose handlers may change workspaces or what is stored in them. -/
def Method.changesStore : Method → Bool
  | .start | .didOpen | .didChange | .didClose | .didChangeFolders => true
  | _ => false

namespace Service

open EditorService.Server
open EditorService.Document (Edit Change)

/-! ## Handlers that write nothing -/

/-- **All other handlers leave the workspaces as they are.** -/
theorem keeps_handle {method : Method} (h : method.changesStore = false) (params : Params) :
    Keeps Server.store (handle method params) := by
  have hnot : method.writesDocuments = false := by
    revert h
    cases method <;> decide
  have hallows : Allows (Same Server.store) method := {
    writes := fun hwrites => absurd (hnot.symm.trans hwrites) Bool.false_ne_true
    lints := fun _ uri => keeps_lintLater uri _
    updates := fun _ => keeps_updateConfig
    stops := fun _ _ => rfl
    ends := fun _ s => congrArg Holdings.store (keeps_close s) }
  have hother : ∀ other : Method, other.changesStore = true → method ≠ other := by
    rintro other hother rfl
    rw [h] at hother
    exact Bool.false_ne_true hother
  exact moves_handle hallows (hother .start rfl) (hother .didChangeFolders rfl) params

/-! ## Handlers that write -/

variable {s : Server} {params : Params} {uri : String}

theorem perform_uriParam (huri : (documentParam params).item "uri" = .ok (.str uri)) (s : Server) :
    (uriParam params).perform s = (.ok uri, s) := by
  rw [uriParam, huri, perform_ofExcept]
  rfl

/-- **Opening a document** stores it, or fails and changes nothing when the workspace does not take it. -/
theorem perform_didOpen (hs : s.layout.Sound) {text : String} {version : Value}
    (huri : (documentParam params).item "uri" = .ok (.str uri))
    (htext : (documentParam params).item "text" = .ok (.str text))
    (hversion : (documentParam params).getD "version" .null = .ok version) :
    if s.takes s.bench.host uri then
      ∃ d, d.source = some text ∧ d.version = version ∧ Writes s ((didOpen params).perform s).2 uri (some d)
    else ∃ f, s.refusal? s.bench.host uri = some f ∧ (didOpen params).perform s = (.error f, s) := by
  obtain ⟨id, w, -, -, -, -, hof⟩ := workspace_of_uri hs uri
  rw [Server.takes, Server.refusal?, hof, Option.any_some, Option.bind_some, Workspace.takes]
  simp only [didOpen, perform_bind, perform_uriParam huri, perform_get, hof, perform_present_some, perform_ofExcept,
    hversion, htext]
  simp only [bind, Except.bind, Value.text, pure, Except.pure]
  rcases w.newDocument_cases s.bench.host uri (some text) version with
    ⟨f, hrefusal, hf⟩ | ⟨d, hrefusal, hd, hsource, hdversion⟩
  · rw [hrefusal, Option.isNone_some, if_neg Bool.false_ne_true]
    have hopen : w.openDocument s.bench.host uri (some text) version = .error f := by
      rw [Workspace.openDocument, hf]
      rfl
    rw [hopen]
    exact ⟨f, rfl, rfl⟩
  · rw [hrefusal, Option.isNone_none, if_pos rfl]
    have hopen : w.openDocument s.bench.host uri (some text) version =
        .ok { w with documents := Table.put w.documents uri d } := by
      rw [Workspace.openDocument, hd]
      rfl
    have hrest : Keeps Server.store (do let _ ← askPlugins .didOpen (some uri) []; lintLater uri true) :=
      Moves.bind (moves_askPlugins _ _ _) fun _ => keeps_lintLater _ _
    refine ⟨d, hsource, hdversion, ?_⟩
    rw [hopen]
    refine Writes.of_put hs hof (Table.get?_put_self _ _ _) (fun v hv => Table.get?_put_of_ne _ _ hv) ?_
    have hkept := hrest (s.putWorkspace { w with documents := Table.put w.documents uri d })
    simp only [perform_bind] at hkept
    exact hkept

theorem workspace_of_held {d? : Option Document} (hs : s.layout.Sound) (hheld : s.held? uri = d?) :
    ∃ w, s.workspaceOf? uri = some w ∧ w.open? uri = d? := by
  obtain ⟨id, w, -, -, -, -, hof⟩ := workspace_of_uri hs uri
  refine ⟨w, hof, ?_⟩
  rw [← hheld, held?, hof, Option.bind_some]

/-- **One edit of an open document.** -/
theorem perform_changeDocument (hs : s.layout.Sound) {d : Document} {source : String} (hheld : s.held? uri = some d)
    (hsource : d.source = some source) {v : Value} {e : Edit} (hv : Change.ofValue v = .ok e.change) (version : Value) :
    ∃ t, (changeDocument uri version v).perform s = (.ok (), t) ∧
      Writes s t uri (some { d with source := some (e.made source), version }) := by
  obtain ⟨w, hof, hopen⟩ := workspace_of_held hs hheld
  generalize hedited : ({ d with source := some (e.made source), version } : Document) = edited
  have hchange : w.changeDocument s.bench.host.files uri v version =
      .ok { w with documents := Table.put w.documents uri edited } := by
    simp only [Workspace.changeDocument, hopen, hv, bind, Except.bind, Edit.applyChange_change hsource, ← hedited]
    rfl
  refine ⟨s.putWorkspace { w with documents := Table.put w.documents uri edited }, ?_, ?_⟩
  · simp only [changeDocument, perform_bind, perform_get, hof, perform_present_some, hchange, perform_ofExcept,
      perform_modify]
  · exact Writes.of_put hs hof (Table.get?_put_self _ _ _) (fun u hu => Table.get?_put_of_ne _ _ hu) rfl

theorem perform_changeDocument_missing (hs : s.layout.Sound) (hheld : s.held? uri = none) (version v : Value) :
    (changeDocument uri version v).perform s = (.error (.keyMissing uri), s) := by
  obtain ⟨w, hof, hopen⟩ := workspace_of_held hs hheld
  have hchange : w.changeDocument s.bench.host.files uri v version = .error (.keyMissing uri) := by
    rw [Workspace.changeDocument, hopen]
  simp only [changeDocument, perform_bind, perform_get, hof, perform_present_some, hchange, perform_ofExcept]

/-- The changes of a message are read as edits. -/
abbrev ReadAs (changes : List Value) (edits : List Edit) : Prop :=
  List.Forall₂ (fun v e => Change.ofValue v = .ok e.change) changes edits

/-- Edits one after the other. Each finds the document that the one before it left. -/
theorem perform_changes {changes : List Value} {edits : List Edit} (hread : ReadAs changes edits) (version : Value)
    (hs : s.layout.Sound) {d : Document} {source : String} (hheld : s.held? uri = some d)
    (hsource : d.source = some source) :
    ∃ t d', (changes.forM (changeDocument uri version)).perform s = (.ok (), t) ∧ Writes s t uri (some d') ∧
      d'.source = some (edits.foldl (fun text e => e.made text) source) ∧
      d'.version = if edits.isEmpty then d.version else version := by
  induction hread generalizing s d source with
  | nil => exact ⟨s, d, rfl, hheld ▸ Writes.of_store rfl uri, hsource, rfl⟩
  | @cons v e changes edits hv _ ih =>
    obtain ⟨t, hrun, hwrites⟩ := perform_changeDocument hs hheld hsource hv version
    have hheld' := hwrites.held hs uri
    rw [if_pos rfl] at hheld'
    obtain ⟨u, d', hrun', hwrites', hsource', hversion'⟩ := ih (hwrites.sound hs) hheld' rfl
    refine ⟨u, d', ?_, hwrites.trans hwrites', hsource', ?_⟩
    · show (changeDocument uri version v >>= fun _ => changes.forM (changeDocument uri version)).perform s = _
      rw [perform_bind, hrun]
      exact hrun'
    · rw [hversion']
      exact ite_self version

section

variable {changes : List Value} {edits : List Edit} {version : Value}

/-- **Changing a document that is open.** -/
theorem perform_didChange (hs : s.layout.Sound) (huri : (documentParam params).item "uri" = .ok (.str uri))
    (hchanges : (param params "contentChanges").elements = .ok changes) (hread : ReadAs changes edits)
    (hversion : (documentParam params).getD "version" .null = .ok version) {d : Document} {source : String}
    (hheld : s.held? uri = some d) (hsource : d.source = some source) :
    ∃ t d', (didChange params).perform s = (.ok (), t) ∧ Writes s t uri (some d') ∧
      d'.source = some (edits.foldl (fun text e => e.made text) source) ∧
      d'.version = if edits.isEmpty then d.version else version := by
  obtain ⟨t, d', hrun, hwrites, hsource', hversion'⟩ := perform_changes hread version hs hheld hsource
  refine ⟨((lintLater uri false).perform t).2, d', ?_, hwrites.trans ?_, hsource', hversion'⟩
  · simp only [didChange, perform_bind, perform_uriParam huri, hchanges, hversion, perform_ofExcept, hrun]
    rfl
  · have hheld' := hwrites.held hs uri
    rw [if_pos rfl] at hheld'
    exact hheld' ▸ Writes.of_store (keeps_lintLater uri false t) uri

/-- A message without changes changes nothing, whether the document is open or not. -/
theorem perform_didChange_nothing (huri : (documentParam params).item "uri" = .ok (.str uri))
    (hchanges : (param params "contentChanges").elements = .ok [])
    (hversion : (documentParam params).getD "version" .null = .ok version) (s : Server) :
    ∃ t, (didChange params).perform s = (.ok (), t) ∧ t.store = s.store := by
  refine ⟨((lintLater uri false).perform s).2, ?_, keeps_lintLater uri false s⟩
  simp only [didChange, perform_bind, perform_uriParam huri, hchanges, hversion, perform_ofExcept]
  rfl

/-- **Changing a document that is not open** fails, and changes nothing. -/
theorem perform_didChange_missing (hs : s.layout.Sound) (huri : (documentParam params).item "uri" = .ok (.str uri))
    (hchanges : (param params "contentChanges").elements = .ok changes) (hsome : changes ≠ [])
    (hversion : (documentParam params).getD "version" .null = .ok version) (hheld : s.held? uri = none) :
    (didChange params).perform s = (.error (.keyMissing uri), s) := by
  obtain ⟨v, rest, rfl⟩ := List.exists_cons_of_ne_nil hsome
  have hfirst : ((v :: rest).forM (changeDocument uri version)).perform s = (.error (.keyMissing uri), s) := by
    show (changeDocument uri version v >>= fun _ => rest.forM (changeDocument uri version)).perform s = _
    rw [perform_bind, perform_changeDocument_missing hs hheld]
  simp only [didChange, perform_bind, perform_uriParam huri, hchanges, hversion, perform_ofExcept, hfirst]

end

/-- **Closing a document that is open.** -/
theorem perform_didClose (hs : s.layout.Sound) (huri : (documentParam params).item "uri" = .ok (.str uri))
    {d : Document} (hheld : s.held? uri = some d) :
    ∃ t, (didClose params).perform s = (.ok (), t) ∧ Writes s t uri none := by
  obtain ⟨w, hof, hopen⟩ := workspace_of_held hs hheld
  have hclose : w.closeDocument uri = .ok { w with documents := Table.erase w.documents uri } := by
    rw [Workspace.closeDocument, if_pos]
    exact Option.isSome_iff_exists.mpr ⟨d, hopen⟩
  refine ⟨s.putWorkspace { w with documents := Table.erase w.documents uri }, ?_, ?_⟩
  · simp only [didClose, perform_bind, perform_uriParam huri, perform_get, hof, perform_present_some, hclose,
      perform_ofExcept, perform_modify]
  · exact Writes.of_put hs hof (Table.get?_erase_self _ _) (fun v hv => Table.get?_erase_of_ne _ hv) rfl

/-- **Closing a document that is not open** fails, and changes nothing. -/
theorem perform_didClose_missing (hs : s.layout.Sound) (huri : (documentParam params).item "uri" = .ok (.str uri))
    (hheld : s.held? uri = none) : (didClose params).perform s = (.error (.keyMissing uri), s) := by
  obtain ⟨w, hof, hopen⟩ := workspace_of_held hs hheld
  have hclose : w.closeDocument uri = .error (.keyMissing uri) := by
    have hnot : ¬ Table.has w.documents uri = true := by
      rw [Table.has, show Table.get? w.documents uri = none from hopen]
      exact Bool.false_ne_true
    rw [Workspace.closeDocument, if_neg hnot]
  simp only [didClose, perform_bind, perform_uriParam huri, perform_get, hof, perform_present_some, hclose,
    perform_ofExcept]

end Service

end EditorService
