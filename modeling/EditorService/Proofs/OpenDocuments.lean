import EditorService.Proofs.Notices

/-!
# The open documents are those that the client speaks of

A client that opens, changes and closes documents has a picture of what is open: a text and a version for each URI
(`Documents`). This picture is the reference. It knows no workspaces, no folders and no lines of text but those that
a range is counted in. The service keeps the documents in workspaces, finds the workspace of a URI anew for every
message, and makes range changes line by line.

**The law** (`documents_follow_reference`): after any messages that leave the folders alone, the workspaces hold what
the picture shows. Each document is in the workspace that its URI belongs to, and in no other.

The picture has one condition in it. A document is opened only where the workspace takes its URI, and
`Workspace.refusal?` says why it may not: a URI that names no path, or a bare file name next to a root that starts with the
same character, makes the handler fail before it has stored anything. And where the packages around the path do not end,
the handler does not end either. Then the service gets to no further message, so the law is about the messages before
(`handled`).

The simulation goes notice by notice (`shows_serve`, `settled_serve`) and uses of each handler only what `Notices` says
about it. It is stated for any layout, and for edits as the service makes them. That they are splices is needed in the
last step only.
-/

namespace EditorService

namespace Client

open EditorService.Server
open EditorService.Document (Edit)

/-! ## The picture of the client -/

/-- **What a client knows of an open document.** -/
structure Held where
  text : String
  version : Value
  deriving DecidableEq, Repr

/-- **The picture of a client**: what is open, by URI. -/
abbrev Documents := String → Option Held

/-- Nothing is open. -/
def nothing : Documents := fun _ => none

/-- A document after edits of its text. The version is the one of the message, if it has an edit at all. -/
def Held.edited (h : Held) (edit : Edit → String → String) (edits : List Edit) (version : Value) : Held where
  text := edits.foldl (fun text e => edit e text) h.text
  version := if edits.isEmpty then h.version else version

namespace Documents

/-- The picture with one entry changed. -/
def set (m : Documents) (uri : String) (h : Option Held) : Documents := fun u => if u = uri then h else m u

/-- **The picture after a notice.** `takes` says which documents can be opened, `edit` what an edit does to a text. -/
def step (takes : Host → String → Bool) (edit : Edit → String → String) (m : Documents) (n : Notice) : Documents :=
  match n.event with
  | .opened uri text version => if takes n.host uri then m.set uri (some ⟨text, version⟩) else m
  | .changed uri edits version => m.set uri ((m uri).map fun h => h.edited edit edits version)
  | .closed uri => m.set uri none
  | .folders => m
  | .other => m

/-- The picture after notices. -/
def run (takes : Host → String → Bool) (edit : Edit → String → String) (m : Documents) : List Notice → Documents
  | [] => m
  | n :: rest => run takes edit (m.step takes edit n) rest

/-- The edits of a notice fit the picture. -/
def Fit (m : Documents) (n : Notice) : Prop :=
  ∀ uri edits version h, n.event = .changed uri edits version → m uri = some h → Edit.FitAll h.text edits

/-- **All edits fit the picture** at their time: ranges run forward and start no later than just past the last line. -/
def FitRun (takes : Host → String → Bool) (m : Documents) : List Notice → Prop
  | [] => True
  | n :: rest => m.Fit n ∧ FitRun takes (m.step takes Edit.apply n) rest

theorem set_self (m : Documents) (uri : String) : m.set uri (m uri) = m := by
  funext u
  rw [set]
  split
  · next h => rw [h]
  · rfl

theorem fit_opening (m : Documents) (host : Host) (uri text : String) (version : Value) :
    m.Fit (Notice.opening host uri text version) := by
  intro u edits v h hevent
  exact nomatch hevent

theorem fit_changing {m : Documents} {uri : String} {h : Held} (hm : m uri = some h) {edits : List Edit}
    (hfit : Edit.FitAll h.text edits) (host : Host) (version : Value) :
    m.Fit (Notice.changing host uri edits version) := by
  intro u edits' v h' hevent hm'
  cases hevent
  cases hm.symm.trans hm'
  exact hfit

/-- Edits that fit do what they do in the service. -/
theorem step_made {takes : Host → String → Bool} {m : Documents} {n : Notice} (h : m.Fit n) :
    m.step takes Edit.made n = m.step takes Edit.apply n := by
  unfold step
  split
  · rfl
  · next uri edits version hevent =>
    refine congrArg (m.set uri) ?_
    cases hm : m uri with
    | none => rfl
    | some held =>
      rw [Option.map_some, Option.map_some, Held.edited, Held.edited,
        Edit.foldl_made_eq_apply (h uri edits version held hevent hm)]
  · rfl
  · rfl
  · rfl

end Documents

/-! ## The documents of the service -/

/-- What the service knows of a document and the client can know too. -/
def seen (d : Document) : Option String × Value := (d.source, d.version)

/-- The same, of the client's side. -/
def Held.seen (h : Held) : Option String × Value := (some h.text, h.version)

/-- **The service shows the picture**: what it finds at a URI is what the picture has there. -/
def Shows (s : Server) (m : Documents) : Prop := ∀ uri, (s.held? uri).map seen = (m uri).map Held.seen

/-- **The workspaces hold the picture.** What is stored in a workspace that can be reached are the documents of the
picture that belong there. -/
def Mirrors (s : Server) (m : Documents) : Prop :=
  ∀ id uri, s.layout.Live id →
    (s.stored? id uri).map seen = if s.workspaceIdOf? uri = some id then (m uri).map Held.seen else none

section

variable {s t : Server} {m : Documents} {n : Notice} {uri : String}

theorem Shows.none (hm : Shows s m) (h : m uri = none) : s.held? uri = none := by
  have hshown := hm uri
  rw [h] at hshown
  exact Option.map_eq_none_iff.mp hshown

theorem Shows.some (hm : Shows s m) {h : Held} (huri : m uri = some h) :
    ∃ d, s.held? uri = some d ∧ d.source = some h.text ∧ d.version = h.version := by
  have hshown := hm uri
  rw [huri, Option.map_some] at hshown
  obtain ⟨d, hd, hseen⟩ := Option.map_eq_some_iff.mp hshown
  exact ⟨d, hd, congrArg Prod.fst hseen, congrArg Prod.snd hseen⟩

theorem Shows.of_store (hm : Shows s m) (h : t.store = s.store) : Shows t m := by
  intro uri
  rw [held?_eq, workspaceIdOf?_of_layout (layout_of_store h), stored?_of_store h, ← held?_eq]
  exact hm uri

theorem Shows.of_writes {entry : Option Document} {h : Option Held} (hs : s.layout.Sound) (hm : Shows s m)
    (hwrites : Writes s t uri entry) (hentry : entry.map seen = h.map Held.seen) : Shows t (m.set uri h) := by
  intro u
  rw [hwrites.held hs, Documents.set]
  by_cases hu : u = uri
  · rw [if_pos hu, if_pos hu, hentry]
  · rw [if_neg hu, if_neg hu, hm u]

/-- Settled documents that show a picture hold it. -/
theorem Shows.mirrors (hm : Shows s m) (hsettled : s.Settled) : Mirrors s m := by
  intro id uri hlive
  split
  · next hroute =>
    have hshown := hm uri
    rw [held?_eq, hroute, Option.bind_some] at hshown
    exact hshown
  · next hroute =>
    cases hd : s.stored? id uri with
    | none => rfl
    | some d => exact absurd (hsettled hlive (by rw [hd]; rfl)) hroute

/-! ## One notice -/

/-- **The simulation step**: a notice that leaves folders alone does to the service what it does to the picture. -/
theorem shows_serve (hs : Proper s) (hm : Shows s m) (hn : n.event ≠ .folders) :
    Shows (n.serve s).2 (m.step s.takes Edit.made n) := by
  unfold Documents.step
  split
  · next uri text version hevent =>
    have hopen := serve_opened hs.sound hevent
    split at hopen
    · next htakes =>
      obtain ⟨d, hsource, hversion, hwrites⟩ := hopen
      rw [if_pos htakes]
      refine hm.of_writes hs.sound hwrites ?_
      rw [Option.map_some, Option.map_some, seen, Held.seen, hsource, hversion]
    · next htakes =>
      rw [if_neg htakes]
      exact hm.of_store hopen.2
  · next uri edits version hevent =>
    cases hpicture : m uri with
    | some h =>
      obtain ⟨d, hheld, hsource, hversion⟩ := hm.some hpicture
      obtain ⟨d', -, hwrites, hsource', hversion'⟩ := serve_changed hs.sound hevent hheld hsource
      refine hm.of_writes hs.sound hwrites ?_
      rw [Option.map_some, Option.map_some, Option.map_some, seen, Held.seen, hsource', hversion', hversion]
      rfl
    | none =>
      have hstore : (n.serve s).2.store = s.store := by
        cases edits with
        | nil => exact (serve_unchanged hevent).2
        | cons e rest => exact (serve_missing hs.sound (by rw [hevent]; rfl) (hm.none hpicture)).2
      rw [Option.map_none, ← hpicture, Documents.set_self]
      exact hm.of_store hstore
  · next uri hevent =>
    cases hpicture : m uri with
    | some h =>
      obtain ⟨d, hheld, -⟩ := hm.some hpicture
      exact hm.of_writes hs.sound (serve_closed hs.sound hevent hheld).2 rfl
    | none =>
      have hstore := (serve_missing hs.sound (by rw [hevent]; rfl) (hm.none hpicture)).2
      rw [← hpicture, Documents.set_self]
      exact hm.of_store hstore
  · next hevent => exact absurd hevent hn
  · next hevent => exact hm.of_store (serve_other hevent)

theorem settled_of_store (h : t.store = s.store) (hsettled : s.Settled) : t.Settled := by
  intro id uri hlive hsome
  rw [layout_of_store h] at hlive
  rw [stored?_of_store h] at hsome
  rw [workspaceIdOf?_of_layout (layout_of_store h)]
  exact hsettled hlive hsome

theorem settled_serve (hs : Proper s) (hsettled : s.Settled) (hn : n.event ≠ .folders) : (n.serve s).2.Settled := by
  cases huri : n.event.uri? with
  | some uri =>
    obtain ⟨entry, hwrites, -⟩ := serve_writes hs huri
    exact hwrites.settled hsettled
  | none => exact settled_of_store (serve_other ((uri?_eq_none huri).resolve_left hn)) hsettled

/-- A notice that needs an open document is handled. -/
theorem serve_needed (hs : Proper s) (hneeds : n.event.needs? = some uri) {d : Document}
    (hheld : s.held? uri = some d) : (n.serve s).1 = .ok .null := by
  cases hevent : n.event with
  | changed u edits version =>
    rw [hevent] at hneeds
    cases edits with
    | nil => exact nomatch hneeds
    | cons e rest =>
      cases hneeds
      obtain ⟨source, hsource⟩ := hs.text_of_held hheld
      obtain ⟨d', hok, -⟩ := serve_changed hs.sound hevent hheld hsource
      exact hok
  | closed u =>
    rw [hevent] at hneeds
    cases hneeds
    exact (serve_closed hs.sound hevent hheld).1
  | opened u text version =>
    rw [hevent] at hneeds
    exact nomatch hneeds
  | folders =>
    rw [hevent] at hneeds
    exact nomatch hneeds
  | other =>
    rw [hevent] at hneeds
    exact nomatch hneeds

/-! ## Many notices -/

/-- The layout tells which workspace a URI belongs to, but for its documents. -/
theorem map_emptied_workspaceOf? (s : Server) (uri : String) :
    (s.workspaceOf? uri).map Workspace.emptied = (s.workspaceIdOf? uri).bind s.layout.bare := by
  rw [workspaceOf?]
  cases s.workspaceIdOf? uri <;> rfl

theorem refusal?_of_layout (h : t.layout = s.layout) : t.refusal? = s.refusal? := by
  have hbare : ∀ (r : Server) host uri,
      r.refusal? host uri = ((r.workspaceOf? uri).map Workspace.emptied).bind (·.refusal? host uri) := by
    intro r host uri
    rw [Server.refusal?]
    cases r.workspaceOf? uri <;> rfl
  funext host uri
  rw [hbare, hbare, map_emptied_workspaceOf?, map_emptied_workspaceOf?, workspaceIdOf?_of_layout h, h]

theorem takes_of_layout (h : t.layout = s.layout) : t.takes = s.takes := by
  have hbare : ∀ (r : Server) host uri,
      r.takes host uri = ((r.workspaceOf? uri).map Workspace.emptied).any (·.takes host uri) := by
    intro r host uri
    rw [Server.takes]
    cases r.workspaceOf? uri <;> rfl
  funext host uri
  rw [hbare, hbare, map_emptied_workspaceOf?, map_emptied_workspaceOf?, workspaceIdOf?_of_layout h, h]

/-- **The simulation**, over any notices that leave folders alone. -/
theorem shows_after {run : List Notice} (hs : Proper s) (hsettled : s.Settled) (hm : Shows s m)
    (hrun : ∀ n ∈ run, n.event ≠ .folders) (hfit : m.FitRun s.takes run) :
    (after s run).layout = s.layout ∧ (after s run).Settled ∧ Shows (after s run) (m.run s.takes Edit.apply run) := by
  induction run generalizing s m with
  | nil => exact ⟨rfl, hsettled, hm⟩
  | cons n rest ih =>
    have hn := hrun n List.mem_cons_self
    have hlayout := layout_serve hs hn
    have hshows := shows_serve hs hm hn
    rw [Documents.step_made hfit.1] at hshows
    have hrest := ih (proper_serve hs n) (settled_serve hs hsettled hn) hshows
      (fun k hk => hrun k (List.mem_cons_of_mem n hk)) (by rw [takes_of_layout hlayout]; exact hfit.2)
    rw [takes_of_layout hlayout] at hrest
    exact ⟨hrest.1.trans hlayout, hrest.2⟩

end

theorem Founded.settled {s : Server} (hs : Founded s) : s.Settled := by
  intro id uri _ hsome
  rw [hs.empty] at hsome
  exact nomatch hsome

theorem Founded.shows {s : Server} (hs : Founded s) : Shows s nothing := by
  intro uri
  rw [held?_eq]
  cases s.workspaceIdOf? uri with
  | none => rfl
  | some id =>
    rw [Option.bind_some, hs.empty]
    rfl

/-! ## Messages that are not handled to an end -/

/-- Whether an outcome is that of a computation without an end. -/
def isEndless {α : Type} : Except Fault α → Bool
  | .error .endless => true
  | _ => false

/-- **The messages that the service gets to**: those before the first one whose handling never ends. -/
def handled (s : Server) : List Notice → List Notice
  | [] => []
  | n :: rest => if isEndless (n.serve s).1 then [] else n :: handled (n.serve s).2 rest

/-- The service gets to all messages, or there is a first one that it never comes to an end with. -/
theorem handled_cases (s : Server) (run : List Notice) :
    handled s run = run ∨ ∃ n rest, run = handled s run ++ n :: rest ∧
      isEndless (n.serve (after s (handled s run))).1 = true := by
  induction run generalizing s with
  | nil => exact .inl rfl
  | cons n rest ih =>
    rw [handled]
    split
    · next hendless => exact .inr ⟨n, rest, rfl, hendless⟩
    · rcases ih (n.serve s).2 with hall | ⟨k, more, hrest, hendless⟩
      · exact .inl (by rw [hall])
      · exact .inr ⟨k, more, congrArg (n :: ·) hrest, hendless⟩

theorem mem_of_mem_handled {s : Server} {run : List Notice} {n : Notice} (h : n ∈ handled s run) : n ∈ run := by
  rcases handled_cases s run with hall | ⟨k, rest, hrun, -⟩
  · rwa [hall] at h
  · rw [hrun]
    exact List.mem_append_left _ h

/-- **The workspaces hold what the client's picture shows**, after a start, any folders, and then any messages that
leave the folders alone, as far as the service gets with them: to the end, or up to a message whose handling never ends.
From there on, one more such message concerns the entry of its own document only; a message of no document changes nothing;
opening a document that its workspace does not take fails for the reason that the workspace has, and changes nothing; and a
change or a close of a document is handled exactly if the document is open, and otherwise fails for the missing key and
changes nothing. -/
theorem documents_follow_reference {s₀ : Server} (hstart : Started s₀) {setup run : List Notice}
    (hsetup : ∀ n ∈ setup, n.event = .folders) (hrun : ∀ n ∈ run, n.event ≠ .folders)
    (hfit : nothing.FitRun (after s₀ setup).takes (handled (after s₀ setup) run)) :
    let s := after s₀ setup
    let reached := handled s run
    let t := after s reached
    let m := nothing.run s.takes Edit.apply reached
    (reached = run ∨ ∃ n rest, run = reached ++ n :: rest ∧ isEndless (n.serve t).1 = true) ∧
    t.layout = s.layout ∧ Mirrors t m ∧
      ∀ n : Notice, n.event ≠ .folders →
        (∀ id uri, n.event.uri? ≠ some uri → (n.serve t).2.stored? id uri = t.stored? id uri) ∧
        (n.event = .other → (n.serve t).2.store = t.store) ∧
        (∀ uri text version, n.event = .opened uri text version → s.takes n.host uri = false →
          (∃ f, s.refusal? n.host uri = some f ∧ (n.serve t).1 = .error f) ∧ (n.serve t).2.store = t.store) ∧
        ∀ uri, n.event.needs? = some uri →
          if (m uri).isSome then (n.serve t).1 = .ok .null
          else (n.serve t).1 = .error (.keyMissing uri) ∧ (n.serve t).2.store = t.store := by
  intro s reached t m
  have hfounded : Founded s := founded_after hstart.founded hsetup
  have hproper : Proper t := proper_after hfounded.proper reached
  obtain ⟨hlayout, hsettled, hshows⟩ := shows_after hfounded.proper hfounded.settled hfounded.shows
    (fun n hn => hrun n (mem_of_mem_handled hn)) hfit
  refine ⟨handled_cases s run, hlayout, hshows.mirrors hsettled,
    fun n hn => ⟨fun id uri hother => ?_, serve_other, ?_, fun uri hneeds => ?_⟩⟩
  · cases huri : n.event.uri? with
    | none => rw [stored?_of_store (serve_other ((uri?_eq_none huri).resolve_left hn))]
    | some u =>
      obtain ⟨entry, hwrites, -⟩ := serve_writes hproper huri
      rw [hwrites.stored, if_neg]
      rintro ⟨rfl, -⟩
      exact hother huri
  · intro uri text version hevent htakes
    have hopen := serve_opened hproper.sound hevent
    rwa [takes_of_layout hlayout, refusal?_of_layout hlayout, htakes, if_neg Bool.false_ne_true] at hopen
  · cases hpicture : m uri with
    | some h =>
      obtain ⟨d, hheld, -⟩ := hshows.some hpicture
      exact serve_needed hproper hneeds hheld
    | none => exact serve_missing hproper.sound hneeds (hshows.none hpicture)

/-- Two documents are opened, the second one in a folder of its own, and that one is then edited across its lines. -/
def twoDocuments : List Notice := [
  Notice.opening {} "file:///ws/b.py" "" (.int 1),
  Notice.opening {} "file:///ws/sub/a.py" "ab\ncd" (.int 1),
  Notice.changing {} "file:///ws/sub/a.py" [{ text := "X", range := some (⟨0, 1⟩, ⟨1, 1⟩) }] (.int 2)]

theorem fitRun_twoDocuments {takes : Host → String → Bool} (htakes : takes {} "file:///ws/sub/a.py" = true) :
    nothing.FitRun takes twoDocuments := by
  refine ⟨Documents.fit_opening _ _ _ _ _, Documents.fit_opening _ _ _ _ _, ?_, trivial⟩
  refine Documents.fit_changing (h := ⟨"ab\ncd", .int 1⟩) ?_ ?_ _ _
  · generalize nothing.step takes Edit.apply _ = m
    show (if takes {} "file:///ws/sub/a.py" then m.set "file:///ws/sub/a.py" (some ⟨"ab\ncd", .int 1⟩) else m)
      "file:///ws/sub/a.py" = _
    rw [if_pos htakes]
    exact if_pos rfl
  · refine ⟨fun a b hrange => ?_, trivial⟩
    cases hrange
    decide

/-- The same, and then the service is asked to open a document in a current directory that is a package. -/
def thenStuck : List Notice := twoDocuments ++ [
  Notice.opening { files := { files := [("/__init__.py", .text "")] } } "untitled:main.py" "" (.int 1),
  Notice.closing {} "file:///ws/b.py"]

/-- Two workspaces, one inside the other. The edited document is in the inner one only. To the last message the service
does not get. -/
theorem documents_follow_reference_two_workspaces :
    let s := after (startedAt "file:///ws") [Notice.refolding {} ["file:///ws/sub"] []]
    let t := after s twoDocuments
    handled s thenStuck = twoDocuments ∧ s.layout.Live 0 ∧ s.layout.Live 1 ∧
      (t.stored? 0 "file:///ws/sub/a.py").map seen = none ∧
      (t.stored? 1 "file:///ws/sub/a.py").map seen = some (some "aXd", .int 2) := by
  intro s t
  have hstart : Started (startedAt "file:///ws") := started_startedAt (by decide +kernel)
  have hsetup : ∀ n ∈ [Notice.refolding {} ["file:///ws/sub"] []], n.event = .folders :=
    List.forall_mem_singleton.mpr rfl
  have hrun : ∀ n ∈ thenStuck, n.event ≠ .folders := by
    simp only [thenStuck, twoDocuments, List.cons_append, List.nil_append, List.forall_mem_cons]
    exact ⟨Event.noConfusion, Event.noConfusion, Event.noConfusion, Event.noConfusion, Event.noConfusion,
      List.forall_mem_nil _⟩
  have hreached : handled s thenStuck = twoDocuments := by
    simp only [thenStuck, twoDocuments, List.cons_append, List.nil_append, handled]
    rw [if_neg (by decide +kernel), if_neg (by decide +kernel), if_neg (by decide +kernel), if_pos (by decide +kernel)]
  have htakes : s.takes {} "file:///ws/sub/a.py" = true := by decide +kernel
  have hroute : s.workspaceIdOf? "file:///ws/sub/a.py" = some 1 := by decide +kernel
  have hroot : s.layout.Live 0 := Or.inl (by decide +kernel)
  have hfolder : s.layout.Live 1 := Or.inr ⟨"file:///ws/sub", by decide +kernel⟩
  have hpicture : nothing.run s.takes Edit.apply twoDocuments "file:///ws/sub/a.py" = some ⟨"aXd", .int 2⟩ := by
    decide +kernel
  obtain ⟨-, hlayout, hmirrors, -⟩ := documents_follow_reference hstart hsetup hrun
    (by rw [hreached]; exact fitRun_twoDocuments htakes)
  rw [hreached] at hlayout hmirrors
  have houter := hmirrors 0 "file:///ws/sub/a.py" (by rw [hlayout]; exact hroot)
  have hinner := hmirrors 1 "file:///ws/sub/a.py" (by rw [hlayout]; exact hfolder)
  rw [workspaceIdOf?_of_layout hlayout] at houter hinner
  exact ⟨hreached, hroot, hfolder, houter.trans (if_neg (by rw [hroute]; decide)),
    hinner.trans ((if_pos hroute).trans (congrArg (Option.map Held.seen) hpicture))⟩

end Client

end EditorService
