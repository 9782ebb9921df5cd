import EditorService.Proofs.DocumentSteps

/-!
# Messages of a client

A client speaks of documents through messages that open, change and close them, and it opens and closes folders. All
else that it sends are questions and settings. `Reads` takes this from a message: which of these it is, and with which
text, version and edits. A message that does not carry what its method needs says nothing and is not considered here.

`Notice.serve` is one message handled by the service. The files, the tools and everything else around the service may
have changed since the message before. So each notice comes with the surroundings that the service finds when it
handles it.

A service **has been started** when it has a root (`Started`). Its layout is then sound and nothing is stored in it
(`Started.founded`). From there on the layout stays sound, and every stored document has a text that a client sent
(`proper_after`).
-/

namespace EditorService

namespace Client

open EditorService.Service
open EditorService.Document (Edit)

/-- **What a message says about documents.** -/
inductive Event where
  | opened (uri text : String) (version : Value)
  | changed (uri : String) (edits : List Edit) (version : Value)
  | closed (uri : String)
  | folders
  | other

namespace Event

/-- The document that a message is about. -/
def uri? : Event → Option String
  | .opened uri _ _ => some uri
  | .changed uri _ _ => some uri
  | .closed uri => some uri
  | .folders => none
  | .other => none

/-- **The document that must be open** for a message to be handled. A message without edits asks for none. -/
def needs? : Event → Option String
  | .changed uri (_ :: _) _ => some uri
  | .closed uri => some uri
  | _ => none

end Event

/-- **A message is read as an event.** -/
inductive Reads : Method → Params → Event → Prop
  | opened {params : Params} {uri text : String} {version : Value}
      (huri : (documentParam params).item "uri" = .ok (.str uri))
      (htext : (documentParam params).item "text" = .ok (.str text))
      (hversion : (documentParam params).getD "version" .null = .ok version) :
      Reads .didOpen params (.opened uri text version)
  | changed {params : Params} {uri : String} {changes : List Value} {edits : List Edit} {version : Value}
      (huri : (documentParam params).item "uri" = .ok (.str uri))
      (hchanges : (param params "contentChanges").elements = .ok changes) (hread : ReadAs changes edits)
      (hversion : (documentParam params).getD "version" .null = .ok version) :
      Reads .didChange params (.changed uri edits version)
  | closed {params : Params} {uri : String} (huri : (documentParam params).item "uri" = .ok (.str uri)) :
      Reads .didClose params (.closed uri)
  | folders (params : Params) : Reads .didChangeFolders params .folders
  | other {method : Method} (h : method.changesStore = false) (params : Params) : Reads method params .other

/-- **A message of a client**, with what it says and with the surroundings at the time. -/
structure Notice where
  host : Host
  method : Method
  params : Params
  event : Event
  reads : Reads method params event

/-! ## Every event can be said -/

/-- An edit as a message carries it. -/
def editValue (e : Edit) : Value :=
  match e.range with
  | none => .dict [("text", .str e.text)]
  | some (a, b) => .dict [("range", (a.upTo b).toValue), ("text", .str e.text)]

theorem ofValue_editValue (e : Edit) : Document.Change.ofValue (editValue e) = .ok e.change := by
  obtain ⟨text, range⟩ := e
  cases range with
  | none => rfl
  | some r => rfl

theorem readAs_map_editValue (edits : List Edit) : ReadAs (edits.map editValue) edits := by
  induction edits with
  | nil => exact .nil
  | cons e rest ih => exact .cons (ofValue_editValue e) ih

/-- The entry of the parameters that names a document. -/
def documentEntry (uri : String) (entries : List (String × Value)) : String × Value :=
  ("textDocument", .dict (("uri", .str uri) :: entries))

namespace Notice

/-- The notice that opens a document. -/
def opening (host : Host) (uri text : String) (version : Value) : Notice where
  host
  method := .didOpen
  params := [documentEntry uri [("version", version), ("text", .str text)]]
  event := .opened uri text version
  reads := .opened rfl rfl rfl

/-- The notice that changes a document. -/
def changing (host : Host) (uri : String) (edits : List Edit) (version : Value) : Notice where
  host
  method := .didChange
  params := [documentEntry uri [("version", version)], ("contentChanges", .list (edits.map editValue))]
  event := .changed uri edits version
  reads := .changed rfl rfl (readAs_map_editValue edits) rfl

/-- The notice that closes a document. -/
def closing (host : Host) (uri : String) : Notice where
  host
  method := .didClose
  params := [documentEntry uri []]
  event := .closed uri
  reads := .closed rfl

/-- The notice that opens and closes folders. -/
def refolding (host : Host) (added removed : List String) : Notice where
  host
  method := .didChangeFolders
  params :=
    let entries (uris : List String) : Value := .list (uris.map fun uri => .dict [("uri", .str uri)])
    [("event", .dict [("added", entries added), ("removed", entries removed)])]
  event := .folders
  reads := .folders _

end Notice

end Client

/-- The service in other surroundings. -/
def Server.under (s : Server) (host : Host) : Server := { s with bench := { s.bench with host } }

namespace Client

open EditorService.Service
open EditorService.Server

/-- **The service handles a message.** -/
def Notice.serve (n : Notice) (s : Server) : Except Fault Value × Server :=
  (handle n.method n.params).perform (s.under n.host)

/-- The service after messages. -/
def after (s : Server) : List Notice → Server
  | [] => s
  | n :: rest => after (n.serve s).2 rest

/-! ## The start -/

/-- No workspace is there yet. -/
structure Blank (s : Server) : Prop where
  folders : s.folders = []
  workspaces : s.workspaces = []
  root : s.root = none

/-- **The service has its first workspaces**, and nothing in them. -/
structure Founded (s : Server) : Prop where
  sound : s.layout.Sound
  empty : ∀ id uri, s.stored? id uri = none

theorem Founded.of_store {s t : Server} (hs : Founded s) (h : t.store = s.store) : Founded t where
  sound := by
    rw [layout_of_store h]
    exact hs.sound
  empty := by
    rw [stored?_of_store h]
    exact hs.empty

theorem Blank.of_store {s t : Server} (hs : Blank s) (h : t.store = s.store) : Blank t := by
  rw [store, store, Store.mk.injEq] at h
  exact ⟨h.1.trans hs.folders, h.2.1.trans hs.workspaces, h.2.2.2.trans hs.root⟩

/-- The first workspace, registered and made the root. -/
theorem founded_withFolder {s : Server} (hs : Blank s) (uri : String) {w : Workspace} (hid : w.id = s.nextWorkspace)
    (hempty : w.documents = []) : Founded ({ s with root := some w.id }.withFolder uri w) := by
  have hbare : ∀ id, ({ s with root := some w.id }.withFolder uri w).layout.bare id =
      if id = w.id then some w.emptied else none := by
    intro id
    rw [bare_withFolder]
    have hnone : ({ s with root := some w.id } : Server).layout.bare id = none := by
      simp only [layout, hs.workspaces, Table.get?_nil, Option.map_none]
    rw [hnone]
  have hself : (({ s with root := some w.id }.withFolder uri w).layout.bare w.id).isSome := by
    rw [hbare, if_pos rfl]
    rfl
  have honly : ∀ {id}, (({ s with root := some w.id }.withFolder uri w).layout.bare id).isSome → id = w.id := by
    intro id h
    rw [hbare] at h
    split at h
    · assumption
    · cases h
  refine ⟨⟨⟨w.id, rfl, hself⟩, ?_, ?_, ?_⟩, ?_⟩
  · intro u id h
    change Table.get? (Table.put s.folders uri w.id) u = some id at h
    rw [Table.get?_put, hs.folders, Table.get?_nil] at h
    split at h
    · cases h
      exact hself
    · cases h
  · intro id v h
    have hid := honly (Option.isSome_iff_exists.mpr ⟨v, h⟩)
    rw [hid, hbare, if_pos rfl] at h
    cases h
    exact hid.symm
  · intro id h
    show id < s.nextWorkspace + 1
    rw [honly h, hid]
    exact Nat.lt_succ_self _
  · intro id u
    have hnew : Table.get? ({ s with root := some w.id } : Server).workspaces w.id = none := by
      simp only [hs.workspaces, Table.get?_nil]
    rw [stored?_withFolder uri hnew hempty, stored?]
    simp only [hs.workspaces, Table.get?_nil, Option.bind_none]

/-- **The root is opened in a blank service**: it stays blank, or it has its first workspace, registered and made the
root, with a configuration that is there. -/
theorem perform_openRoot {s : Server} (hs : Blank s) (rootUri : String) (initOptions processId capabilities : Value) :
    Blank ((openRoot rootUri initOptions processId capabilities).perform s).2 ∨
      ∃ t c w, Blank t ∧ t.rootUri = some rootUri ∧ t.config = some c ∧ (Table.get? t.configs c).isSome ∧
        Workspace.create t.bench.host.drives t.nextWorkspace rootUri (some c) = .ok w ∧
        ((openRoot rootUri initOptions processId capabilities).perform s).2 =
          ({ t with root := some w.id } : Server).withFolder rootUri w := by
  simp only [openRoot, perform_bind, perform_modify]
  generalize hforget : ({ s with folders := _, rootUri := some rootUri } : Server) = forgotten
  have hblank : Blank forgotten := by
    rw [← hforget]
    refine ⟨?_, hs.workspaces, hs.root⟩
    simp only [hs.folders]
    cases s.rootUri <;> rfl
  have hrootUri : forgotten.rootUri = some rootUri := by rw [← hforget]
  have hconfig := keeps_newConfig rootUri initOptions processId capabilities forgotten
  rcases hnew : (newConfig rootUri initOptions processId capabilities).perform forgotten with ⟨r, t⟩
  rw [hnew] at hconfig
  have ht : Blank t := hblank.of_store hconfig
  cases r with
  | error f => exact Or.inl ht
  | ok c =>
    have howned : Blank { t with config := some c.id } ∧ t.rootUri = some rootUri ∧ (Table.get? t.configs c.id).isSome := by
      obtain ⟨nextConfig, bench, rfl⟩ := newConfig_eq_ok hnew
      refine ⟨⟨ht.folders, ht.workspaces, ht.root⟩, hrootUri, ?_⟩
      show (Table.get? (Table.put forgotten.configs c.id c) c.id).isSome
      rw [Table.get?_put, if_pos rfl]
      rfl
    simp only [newWorkspace, perform_bind, perform_get, perform_ofExcept]
    cases hcreate : Workspace.create t.bench.host.drives t.nextWorkspace rootUri (some c.id) with
    | error f => exact Or.inl howned.1
    | ok w =>
      exact Or.inr ⟨{ t with config := some c.id }, c.id, w, howned.1, howned.2.1, rfl, howned.2.2, hcreate, rfl⟩

/-- **What a service has from its first workspace on**, as a property of what it has. -/
structure FromFirst (P : Server → Prop) : Prop where
  opened : ∀ {t : Server} {rootUri : String} {c : ConfigId} {w : Workspace}, Blank t → t.rootUri = some rootUri →
    t.config = some c → (Table.get? t.configs c).isSome →
    Workspace.create t.bench.host.drives t.nextWorkspace rootUri (some c) = .ok w →
    P (({ t with root := some w.id } : Server).withFolder rootUri w)
  kept : ∀ {s t : Server}, t.holdings = s.holdings → P s → P t

theorem fromFirst_founded : FromFirst Founded where
  opened ht _ _ _ hcreate := by
    obtain ⟨hid, hempty, -⟩ := create_eq_ok hcreate
    exact founded_withFolder ht _ hid hempty
  kept h hs := hs.of_store (congrArg Holdings.store h)

/-- **A service that has been started**: a new one after its first request, with a root. -/
def Started (s : Server) : Prop :=
  s.root.isSome ∧ ∃ plugins sources watchesParent bench params,
    s = ((handle .start params).perform { plugins, sources, watchesParent, bench }).2

section

variable {P : Server → Prop}

/-- The start: a blank service stays blank, or it has its first workspace. -/
theorem FromFirst.begins (hP : FromFirst P) {s : Server} (hs : Blank s) (params : Params) :
    Blank ((start params).perform s).2 ∨ P ((start params).perform s).2 := by
  let Begins (s t : Server) : Prop := Blank s ∨ P s → Blank t ∨ P t
  have hkept : ∀ {s t : Server}, t.holdings = s.holdings → Begins s t := fun h hs =>
    hs.imp (·.of_store (congrArg Holdings.store h)) (hP.kept h)
  have : Idle Begins :=
    { rest := fun _ hs => hs, chain := fun hst htu hs => htu (hst hs), bench := fun _ _ => hkept rfl }
  have hopen : ∀ rootUri options processId given,
      Begins s ((openRoot rootUri options processId given).perform s).2 := by
    intro rootUri options processId given _
    rcases perform_openRoot hs rootUri options processId given with hblank | ⟨t, c, w, ht, huri, hc, hthere, hw, heq⟩
    · exact Or.inl hblank
    · rw [heq]
      exact Or.inr (hP.opened ht huri hc hthere hw)
  exact start_moves hopen (fun _ _ => hkept rfl) (fun _ => hkept rfl) (fun pid t => hkept (keeps_watchParent pid t)) params
    (Or.inl hs)

theorem FromFirst.of_started (hP : FromFirst P) {s : Server} (h : Started s) : P s := by
  obtain ⟨hroot, plugins, sources, watchesParent, bench, params, rfl⟩ := h
  rcases hP.begins (s := { plugins, sources, watchesParent, bench }) ⟨rfl, rfl, rfl⟩ params with hblank | hfirst
  · have hnone := hblank.root
    change ((handle .start params).perform _).2.root = none at hnone
    rw [hnone] at hroot
    exact nomatch hroot
  · exact hfirst

end

/-- A service without plugins, started at a root. -/
def startedAt (rootUri : String) : Server :=
  ((handle .start [("rootUri", .str rootUri)]).perform { plugins := [], sources := [] }).2

theorem started_startedAt {rootUri : String} (h : (startedAt rootUri).root.isSome) : Started (startedAt rootUri) :=
  ⟨h, [], [], false, {}, [("rootUri", .str rootUri)], rfl⟩

/-- **A service that has been started is founded.** -/
theorem Started.founded {s : Server} (h : Started s) : Founded s := fromFirst_founded.of_started h

/-! ## One notice -/

variable {s : Server} {n : Notice}

/-- **A notice that opens a document.** -/
theorem serve_opened (hs : s.layout.Sound) {uri text : String} {version : Value}
    (hn : n.event = .opened uri text version) :
    if s.takes n.host uri then
      ∃ d, d.source = some text ∧ d.version = version ∧ Writes s (n.serve s).2 uri (some d)
    else (∃ f, s.refusal? n.host uri = some f ∧ (n.serve s).1 = .error f) ∧ (n.serve s).2.store = s.store := by
  obtain ⟨host, method, params, event, reads⟩ := n
  cases hn
  cases reads with
  | opened huri htext hversion =>
    have hopen := perform_didOpen (s := s.under host) hs huri htext hversion
    have hserve := perform_answer (didOpen params) Value.null (s.under host)
    change Notice.serve ⟨host, .didOpen, params, _, .opened huri htext hversion⟩ s = _ at hserve
    rw [hserve]
    split
    · next h =>
      have hthere : (s.under host).takes (s.under host).bench.host uri = true := h
      rw [if_pos hthere] at hopen
      obtain ⟨d, hsource, hdversion, hwrites⟩ := hopen
      exact ⟨d, hsource, hdversion, hwrites.layout, hwrites.stored⟩
    · next h =>
      have hnot : ¬ (s.under host).takes (s.under host).bench.host uri = true := h
      rw [if_neg hnot] at hopen
      obtain ⟨f, hrefusal, hf⟩ := hopen
      rw [hf]
      exact ⟨⟨f, hrefusal, rfl⟩, rfl⟩

/-- **A notice that changes a document that is open.** -/
theorem serve_changed (hs : s.layout.Sound) {uri : String} {edits : List Document.Edit} {version : Value}
    (hn : n.event = .changed uri edits version) {d : Document} {source : String} (hheld : s.held? uri = some d)
    (hsource : d.source = some source) :
    ∃ d', (n.serve s).1 = .ok .null ∧ Writes s (n.serve s).2 uri (some d') ∧
      d'.source = some (edits.foldl (fun text e => e.made text) source) ∧
      d'.version = if edits.isEmpty then d.version else version := by
  obtain ⟨host, method, params, event, reads⟩ := n
  cases hn
  cases reads with
  | changed huri hchanges hread hversion =>
    obtain ⟨t, d', hrun, hwrites, hsource', hversion'⟩ :=
      perform_didChange (s := s.under host) hs huri hchanges hread hversion hheld hsource
    have hserve := perform_answer (didChange params) Value.null (s.under host)
    change Notice.serve ⟨host, .didChange, params, _, .changed huri hchanges hread hversion⟩ s = _ at hserve
    rw [hserve, hrun]
    exact ⟨d', rfl, ⟨hwrites.layout, hwrites.stored⟩, hsource', hversion'⟩

/-- **A notice that closes a document that is open.** -/
theorem serve_closed (hs : s.layout.Sound) {uri : String} (hn : n.event = .closed uri) {d : Document}
    (hheld : s.held? uri = some d) : (n.serve s).1 = .ok .null ∧ Writes s (n.serve s).2 uri none := by
  obtain ⟨host, method, params, event, reads⟩ := n
  cases hn
  cases reads with
  | closed huri =>
    obtain ⟨t, hrun, hwrites⟩ := perform_didClose (s := s.under host) hs huri hheld
    have hserve := perform_answer (didClose params) Value.null (s.under host)
    change Notice.serve ⟨host, .didClose, params, _, .closed huri⟩ s = _ at hserve
    rw [hserve, hrun]
    exact ⟨rfl, ⟨hwrites.layout, hwrites.stored⟩⟩

/-- **A notice that needs a document fails when it is not open**, and leaves all workspaces as they are. -/
theorem serve_missing (hs : s.layout.Sound) {uri : String} (hn : n.event.needs? = some uri)
    (hheld : s.held? uri = none) : (n.serve s).1 = .error (.keyMissing uri) ∧ (n.serve s).2.store = s.store := by
  obtain ⟨host, method, params, event, reads⟩ := n
  cases reads with
  | opened _ _ _ => exact nomatch hn
  | folders _ => exact nomatch hn
  | other _ _ => exact nomatch hn
  | closed huri =>
    cases hn
    have hrun := perform_didClose_missing (s := s.under host) hs huri hheld
    have hserve := perform_answer (didClose params) Value.null (s.under host)
    change Notice.serve ⟨host, .didClose, params, _, .closed huri⟩ s = _ at hserve
    rw [hserve, hrun]
    exact ⟨rfl, rfl⟩
  | changed huri hchanges hread hversion =>
    cases hread with
    | nil => exact nomatch hn
    | cons hv hrest =>
      cases hn
      have hrun := perform_didChange_missing (s := s.under host) hs huri hchanges (List.cons_ne_nil _ _) hversion hheld
      have hserve := perform_answer (didChange params) Value.null (s.under host)
      change Notice.serve ⟨host, .didChange, params, _, .changed huri hchanges (.cons hv hrest) hversion⟩ s = _ at hserve
      rw [hserve, hrun]
      exact ⟨rfl, rfl⟩

/-- A notice that changes a document, but has no edit for it, leaves all workspaces as they are. -/
theorem serve_unchanged {uri : String} {version : Value} (hn : n.event = .changed uri [] version) :
    (n.serve s).1 = .ok .null ∧ (n.serve s).2.store = s.store := by
  obtain ⟨host, method, params, event, reads⟩ := n
  cases hn
  cases reads with
  | changed huri hchanges hread hversion =>
    cases hread
    obtain ⟨t, hrun, hstore⟩ := perform_didChange_nothing huri hchanges hversion (s.under host)
    have hserve := perform_answer (didChange params) Value.null (s.under host)
    change Notice.serve ⟨host, .didChange, params, _, .changed huri hchanges .nil hversion⟩ s = _ at hserve
    rw [hserve, hrun]
    exact ⟨rfl, hstore⟩

/-- **All other notices but those for folders** leave all workspaces as they are. -/
theorem serve_other (hn : n.event = .other) : (n.serve s).2.store = s.store := by
  obtain ⟨host, method, params, event, reads⟩ := n
  cases hn
  cases reads with
  | other h _ => exact keeps_handle h params (s.under host)

/-- **A notice about folders**: what it leaves is what both parts of a folder event leave. -/
theorem serve_folders (hs : s.layout.Sound) (hn : n.event = .folders) :
    ∃ t, Grows s t ∧ (n.serve s).2.layout = t.layout ∧
      (((n.serve s).1 = .ok .null ∧
          ∃ root, t.root = some root ∧ ∀ id uri, (n.serve s).2.stored? id uri = t.relocated root id uri) ∨
        ((n.serve s).2.stored? = s.stored? ∧
          ((n.serve s).2.layout = s.layout ∨ ∃ f, (n.serve s).1 = .error f))) := by
  obtain ⟨host, method, params, event, reads⟩ := n
  cases hn
  cases reads with
  | folders _ =>
    obtain ⟨r, t, u, hrun, hgrows, hlayout, hcases⟩ := perform_didChangeFolders (s := s.under host) hs params
    have hserve : Notice.serve ⟨host, .didChangeFolders, params, _, .folders params⟩ s = (r, u) := hrun
    rw [hserve]
    exact ⟨t, ⟨hgrows.sound, hgrows.stored, hgrows.kept, hgrows.live⟩, hlayout, hcases⟩

/-! ## What every notice keeps -/

/-- **The state is proper**: its layout is sound, and every stored document has a text that a client sent. -/
structure Proper (s : Server) : Prop where
  sound : s.layout.Sound
  text : ∀ {id uri d}, s.stored? id uri = some d → d.source.isSome

theorem Founded.proper (hs : Founded s) : Proper s where
  sound := hs.sound
  text h := by
    rw [hs.empty] at h
    exact nomatch h

theorem Proper.of_store {t : Server} (hs : Proper s) (h : t.store = s.store) : Proper t where
  sound := by
    rw [layout_of_store h]
    exact hs.sound
  text hd := by
    rw [stored?_of_store h] at hd
    exact hs.text hd

theorem Proper.text_of_held (hs : Proper s) {uri : String} {d : Document} (h : s.held? uri = some d) :
    ∃ source, d.source = some source := by
  rw [held?_eq] at h
  obtain ⟨id, -, hd⟩ := Option.bind_eq_some_iff.mp h
  exact Option.isSome_iff_exists.mp (hs.text hd)

theorem Proper.of_writes {t : Server} {uri : String} {entry : Option Document} (hs : Proper s)
    (h : Writes s t uri entry) (hentry : ∀ d, entry = some d → d.source.isSome) : Proper t where
  sound := h.sound hs.sound
  text := by
    intro id u d hd
    rw [h.stored] at hd
    split at hd
    · exact hentry d hd
    · exact hs.text hd

/-- **A notice about one document writes one entry**, whatever comes of it. So nothing else that is stored changes. -/
theorem serve_writes (hs : Proper s) {uri : String} (hn : n.event.uri? = some uri) :
    ∃ entry, Writes s (n.serve s).2 uri entry ∧ ∀ d, entry = some d → d.source.isSome := by
  have hsame : (n.serve s).2.store = s.store →
      ∃ entry, Writes s (n.serve s).2 uri entry ∧ ∀ d, entry = some d → d.source.isSome := fun hstore =>
    ⟨s.held? uri, Writes.of_store hstore uri, fun d hd => Option.isSome_iff_exists.mpr (hs.text_of_held hd)⟩
  cases hevent : n.event with
  | opened u text version =>
    rw [hevent] at hn
    cases hn
    have hopen := serve_opened hs.sound hevent
    split at hopen
    · obtain ⟨d, hsource, -, hwrites⟩ := hopen
      refine ⟨some d, hwrites, fun d' hd' => ?_⟩
      cases hd'
      rw [hsource]
      rfl
    · exact hsame hopen.2
  | changed u edits version =>
    rw [hevent] at hn
    cases hn
    cases hheld : s.held? uri with
    | some d =>
      obtain ⟨source, hsource⟩ := hs.text_of_held hheld
      obtain ⟨d', -, hwrites, hsource', -⟩ := serve_changed hs.sound hevent hheld hsource
      refine ⟨some d', hwrites, fun d'' hd'' => ?_⟩
      cases hd''
      rw [hsource']
      rfl
    | none =>
      cases edits with
      | nil => exact hsame (serve_unchanged hevent).2
      | cons e rest => exact hsame (serve_missing hs.sound (by rw [hevent]; rfl) hheld).2
  | closed u =>
    rw [hevent] at hn
    cases hn
    cases hheld : s.held? uri with
    | some d => exact ⟨none, (serve_closed hs.sound hevent hheld).2, fun _ h => nomatch h⟩
    | none => exact hsame (serve_missing hs.sound (by rw [hevent]; rfl) hheld).2
  | folders =>
    rw [hevent] at hn
    exact nomatch hn
  | other =>
    rw [hevent] at hn
    exact nomatch hn

theorem uri?_eq_none (h : n.event.uri? = none) : n.event = .folders ∨ n.event = .other := by
  cases hevent : n.event with
  | folders => exact Or.inl rfl
  | other => exact Or.inr rfl
  | opened u text version =>
    rw [hevent] at h
    exact nomatch h
  | changed u edits version =>
    rw [hevent] at h
    exact nomatch h
  | closed u =>
    rw [hevent] at h
    exact nomatch h

/-- **Only folder events change a layout.** -/
theorem layout_serve (hs : Proper s) (hn : n.event ≠ .folders) : (n.serve s).2.layout = s.layout := by
  cases huri : n.event.uri? with
  | some uri =>
    obtain ⟨entry, hwrites, -⟩ := serve_writes hs huri
    exact hwrites.layout
  | none => exact layout_of_store (serve_other ((uri?_eq_none huri).resolve_left hn))

theorem proper_serve (hs : Proper s) (n : Notice) : Proper (n.serve s).2 := by
  cases huri : n.event.uri? with
  | some uri =>
    obtain ⟨entry, hwrites, hentry⟩ := serve_writes hs huri
    exact hs.of_writes hwrites hentry
  | none =>
    rcases uri?_eq_none huri with hfolders | hother
    · obtain ⟨t, hgrows, hlayout, hcases⟩ := serve_folders hs.sound hfolders
      refine ⟨by rw [hlayout]; exact hgrows.sound, ?_⟩
      rcases hcases with ⟨-, root, -, hstored⟩ | ⟨hstored, -⟩
      · intro id uri d hd
        rw [hstored, relocated, hgrows.stored] at hd
        split at hd
        · exact hs.text hd
        · next e he =>
          split at hd
          · cases hd
            exact hs.text he
          · split at hd
            · cases hd
            · exact hs.text hd
      · intro id uri d hd
        rw [hstored] at hd
        exact hs.text hd
    · exact hs.of_store (serve_other hother)

/-- **The state stays proper** after any messages whatever. -/
theorem proper_after (hs : Proper s) (run : List Notice) : Proper (after s run) := by
  induction run generalizing s with
  | nil => exact hs
  | cons n rest ih => exact ih (proper_serve hs n)

/-- Folder events put nothing into workspaces that have nothing in them. -/
theorem founded_serve (hs : Founded s) (hn : n.event = .folders) : Founded (n.serve s).2 := by
  refine ⟨(proper_serve hs.proper n).sound, fun id uri => ?_⟩
  obtain ⟨t, hgrows, -, ⟨-, root, -, hstored⟩ | ⟨hstored, -⟩⟩ := serve_folders hs.sound hn
  · have hnone : t.stored? root uri = none := by rw [hgrows.stored, hs.empty]
    rw [hstored, relocated_none hnone, hgrows.stored, hs.empty]
  · rw [hstored, hs.empty]

theorem founded_after (hs : Founded s) {setup : List Notice} (hsetup : ∀ n ∈ setup, n.event = .folders) :
    Founded (after s setup) := by
  induction setup generalizing s with
  | nil => exact hs
  | cons n rest ih =>
    exact ih (founded_serve hs (hsetup n List.mem_cons_self)) fun k hk => hsetup k (List.mem_cons_of_mem n hk)

end Client

end EditorService
