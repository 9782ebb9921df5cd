import EditorService.Proofs.OpenDocuments

/-!
# Open documents and folders

When folders come and go, the workspace that a URI belongs to changes under the documents that are open. A folder event
then takes the documents of the root to the workspaces that they belong to. It does not look into any other workspace.

So a document **follows its URI** through a folder event (`Follows`) in two cases: the URI belongs to the same workspace
as before; or the workspace that it belonged to is the root behind the event, and the event was handled to its end. In
all other cases the document stays where it was, and the service does not find it any more.

**The law** (`documents_follow_their_uris`): as long as all open documents follow their URIs, each of them is stored in
exactly one workspace that can be reached, the one that its URI belongs to, with the text and version it should have.
The condition is exact. Of one more folder event it says which documents are found behind it and which are not, and a
change or a close of the latter fails for the missing key.
-/

namespace EditorService

namespace Client

open EditorService.Server
open EditorService.Document (Edit)

/-! ## One folder event -/

/-- **A document follows its URI** through a folder event. -/
def Follows (n : Notice) (s : Server) (uri : String) : Prop :=
  (n.serve s).2.workspaceIdOf? uri = s.workspaceIdOf? uri ∨
    (n.serve s).1 = .ok .null ∧ (n.serve s).2.root = s.workspaceIdOf? uri

section

variable {s : Server} {n : Notice} {uri : String}

/-- What is stored in a workspace that could be reached, or that was not there. -/
theorem stored?_of_live_or_new (hsettled : s.Settled) {id : WorkspaceId}
    (h : s.layout.Live id ∨ s.layout.bare id = none) (uri : String) :
    s.stored? id uri = if s.workspaceIdOf? uri = some id then s.held? uri else none := by
  split
  · next hroute => rw [held?_eq, hroute, Option.bind_some]
  · next hroute =>
    refine Option.not_isSome_iff_eq_none.mp fun hsome => ?_
    rcases h with hlive | hnew
    · exact hroute (hsettled hlive hsome)
    · have hthere := isSome_bare_of_stored? hsome
      rw [hnew] at hthere
      exact Bool.false_ne_true hthere

/-- An event that moves no document: a document follows its URI when the URI stays where it is. -/
theorem follows_iff_of_unmoved
    (h : (n.serve s).2.layout = s.layout ∨ ∃ f, (n.serve s).1 = .error f) :
    Follows n s uri ↔ (n.serve s).2.workspaceIdOf? uri = s.workspaceIdOf? uri := by
  constructor
  · rintro (hroute | ⟨hok, -⟩)
    · exact hroute
    · rcases h with hlayout | ⟨f, hf⟩
      · rw [workspaceIdOf?_of_layout hlayout]
      · rw [hf] at hok
        exact nomatch hok
  · exact Or.inl

/-- **What the service finds behind a folder event**: the documents that followed their URIs, as they were. -/
theorem held?_serve_folders (hs : Proper s) (hsettled : s.Settled) (hn : n.event = .folders) (uri : String) :
    (Follows n s uri → (n.serve s).2.held? uri = s.held? uri) ∧
      (¬ Follows n s uri → (n.serve s).2.held? uri = none) := by
  obtain ⟨t, hgrows, hlayout, hcases⟩ := serve_folders hs.sound hn
  have hroute := workspaceIdOf?_of_layout hlayout
  obtain ⟨id, w, hid, hlive, -⟩ := workspace_of_uri hgrows.sound uri
  have hfound : (n.serve s).2.held? uri = (n.serve s).2.stored? id uri := by
    rw [held?_eq, hroute, hid, Option.bind_some]
  have hbefore := stored?_of_live_or_new hsettled (hgrows.live hlive) uri
  rw [hfound]
  rcases hcases with ⟨hok, root, hroot, hstored⟩ | ⟨hstored, hunmoved⟩
  · have hrootAfter : (n.serve s).2.root = some root := (congrArg Layout.root hlayout).trans hroot
    have hrootBefore := stored?_of_live_or_new hsettled (hgrows.live (Or.inl hroot)) uri
    rw [← hgrows.stored] at hbefore hrootBefore
    rw [hstored]
    by_cases hold : s.workspaceIdOf? uri = some root
    · have hfollows : Follows n s uri := Or.inr ⟨hok, hrootAfter.trans hold.symm⟩
      refine ⟨fun _ => ?_, fun hnot => absurd hfollows hnot⟩
      rw [if_pos hold] at hrootBefore
      cases hheld : s.held? uri with
      | none =>
        rw [hheld] at hrootBefore hbefore
        rw [relocated_none hrootBefore, hbefore, ite_self]
      | some d =>
        rw [hheld] at hrootBefore
        rw [relocated_some hrootBefore, if_pos hid]
    · rw [if_neg hold] at hrootBefore
      rw [relocated_none hrootBefore, hbefore]
      constructor
      · rintro (hsame | ⟨-, hmoved⟩)
        · rw [if_pos (by rw [← hsame, hroute, hid])]
        · exact absurd (hmoved.symm.trans hrootAfter) hold
      · intro hnot
        refine if_neg fun hsame => hnot (Or.inl ?_)
        rw [hroute, hid, hsame]
  · rw [hstored, hbefore, follows_iff_of_unmoved hunmoved, hroute, hid]
    exact ⟨fun h => if_pos h.symm, fun h => if_neg fun h' => h h'.symm⟩

/-- A folder event that all open documents follow leaves them settled. -/
theorem settled_serve_folders (hs : Proper s) (hsettled : s.Settled) (hn : n.event = .folders)
    (hfollow : ∀ uri, (s.held? uri).isSome → Follows n s uri) : (n.serve s).2.Settled := by
  obtain ⟨t, hgrows, hlayout, hcases⟩ := serve_folders hs.sound hn
  intro id uri hlive hsome
  rw [hlayout] at hlive
  have hbefore := stored?_of_live_or_new hsettled (hgrows.live hlive) uri
  -- What was stored here before was found by the service, and so it has followed its URI.
  have hold : (s.stored? id uri).isSome → s.workspaceIdOf? uri = some id ∧ Follows n s uri := by
    intro h
    rw [hbefore] at h
    split at h
    · next hroute => exact ⟨hroute, hfollow uri h⟩
    · exact nomatch h
  rcases hcases with ⟨-, root, hroot, hstored⟩ | ⟨hstored, hunmoved⟩
  · have hrootAfter : (n.serve s).2.root = some root := (congrArg Layout.root hlayout).trans hroot
    have hrootBefore := stored?_of_live_or_new hsettled (hgrows.live (Or.inl hroot)) uri
    rw [hstored] at hsome
    cases hd : t.stored? root uri with
    | none =>
      rw [relocated_none hd, hgrows.stored] at hsome
      obtain ⟨hroute, hsame | ⟨-, hmoved⟩⟩ := hold hsome
      · exact hsame.trans hroute
      · have hid : root = id := Option.some.inj (hrootAfter.symm.trans (hmoved.trans hroute))
        rw [hgrows.stored, hid] at hd
        rw [hd] at hsome
        exact nomatch hsome
    | some d =>
      rw [relocated_some hd] at hsome
      rw [workspaceIdOf?_of_layout hlayout]
      split at hsome
      · next hroute => exact hroute
      · split at hsome
        · exact nomatch hsome
        · next hne =>
          rw [hgrows.stored] at hsome hd
          rw [hd] at hrootBefore
          obtain ⟨hroute, -⟩ := hold hsome
          rw [hroute, if_neg fun h => hne (Option.some.inj h)] at hrootBefore
          exact nomatch hrootBefore
  · rw [hstored] at hsome
    obtain ⟨hroute, hfollows⟩ := hold hsome
    exact ((follows_iff_of_unmoved hunmoved).mp hfollows).trans hroute

theorem shows_serve_folders {m : Documents} (hs : Proper s) (hsettled : s.Settled) (hm : Shows s m)
    (hn : n.event = .folders) (hfollow : ∀ uri, (m uri).isSome → Follows n s uri) : Shows (n.serve s).2 m := by
  intro uri
  obtain ⟨hkept, hlost⟩ := held?_serve_folders hs hsettled hn uri
  cases hpicture : m uri with
  | some h => rw [hkept (hfollow uri (by rw [hpicture]; rfl)), hm uri, hpicture]
  | none =>
    have hnone : (n.serve s).2.held? uri = none := by
      by_cases hfollows : Follows n s uri
      · exact (hkept hfollows).trans (hm.none hpicture)
      · exact hlost hfollows
    rw [hnone]
    rfl

end

/-! ## Many notices -/

/-- **The picture of a client** after notices of any kind. Folder events leave it as it is, and edits do what they do in
the service. -/
def follow (s : Server) (m : Documents) : List Notice → Documents
  | [] => m
  | n :: rest => follow (n.serve s).2 (m.step s.takes Edit.made n) rest

/-- **All documents of the picture follow their URIs** through all folder events. -/
def FollowAlong (s : Server) (m : Documents) : List Notice → Prop
  | [] => True
  | n :: rest =>
    (n.event = .folders → ∀ uri, (m uri).isSome → Follows n s uri) ∧
      FollowAlong (n.serve s).2 (m.step s.takes Edit.made n) rest

theorem step_folders {takes : Host → String → Bool} {edit : Edit → String → String} {m : Documents} {n : Notice}
    (hn : n.event = .folders) : m.step takes edit n = m := by
  rw [Documents.step, hn]

/-- **The simulation**, over notices of any kind. -/
theorem shows_follow {s : Server} {m : Documents} {run : List Notice} (hs : Proper s) (hsettled : s.Settled)
    (hm : Shows s m) (hfollow : FollowAlong s m run) :
    (after s run).Settled ∧ Shows (after s run) (follow s m run) := by
  induction run generalizing s m with
  | nil => exact ⟨hsettled, hm⟩
  | cons n rest ih =>
    by_cases hn : n.event = .folders
    · have hopen : ∀ uri, (s.held? uri).isSome → Follows n s uri := by
        intro uri hsome
        refine hfollow.1 hn uri ?_
        have hshown := congrArg Option.isSome (hm uri)
        rw [Option.isSome_map, Option.isSome_map] at hshown
        rw [← hshown]
        exact hsome
      have hshows : Shows (n.serve s).2 (m.step s.takes Edit.made n) := by
        rw [step_folders hn]
        exact shows_serve_folders hs hsettled hm hn (hfollow.1 hn)
      exact ih (proper_serve hs n) (settled_serve_folders hs hsettled hn hopen) hshows hfollow.2
    · exact ih (proper_serve hs n) (settled_serve hs hsettled hn) (shows_serve hs hm hn) hfollow.2

/-- **Open documents and folders.** After a start and any notices, provided that all open documents followed their URIs
through the folder events: every open document is stored in one workspace that can be reached, the one that its URI
belongs to, and in no other; its text and version are those of the picture, which no folder event changes; and a change
or a close of it is handled. Of one more folder event, exactly those documents that follow their URIs are found behind
it, as they were. A change or a close of any other fails for the missing key. -/
theorem documents_follow_their_uris {s₀ : Server} (hstart : Started s₀) {run : List Notice}
    (hfollow : FollowAlong s₀ nothing run) :
    let s := after s₀ run
    let m := follow s₀ nothing run
    (∀ uri h, m uri = some h →
      ∃ id d, s.workspaceIdOf? uri = some id ∧ s.stored? id uri = some d ∧ d.source = some h.text ∧
        d.version = h.version ∧ ∀ j, s.layout.Live j → (s.stored? j uri).isSome → j = id) ∧
    (∀ n : Notice, ∀ uri, n.event.needs? = some uri → (m uri).isSome → (n.serve s).1 = .ok .null) ∧
    ∀ n : Notice, n.event = .folders → ∀ uri, (m uri).isSome →
      (Follows n s uri → (n.serve s).2.held? uri = s.held? uri) ∧
      ∀ k : Notice, k.event.needs? = some uri →
        ((k.serve (n.serve s).2).1 = .error (.keyMissing uri) ↔ ¬ Follows n s uri) := by
  intro s m
  have hfounded : Founded s₀ := hstart.founded
  have hproper : Proper s := proper_after hfounded.proper run
  obtain ⟨hsettled, hshows⟩ : s.Settled ∧ Shows s m :=
    shows_follow hfounded.proper hfounded.settled hfounded.shows hfollow
  refine ⟨?_, ?_, ?_⟩
  · intro uri h hpicture
    obtain ⟨d, hheld, hsource, hversion⟩ := hshows.some hpicture
    rw [held?_eq] at hheld
    obtain ⟨id, hid, hd⟩ := Option.bind_eq_some_iff.mp hheld
    refine ⟨id, d, hid, hd, hsource, hversion, fun j hlive hsome => ?_⟩
    exact Option.some.inj ((hsettled hlive hsome).symm.trans hid)
  · intro n uri hneeds hsome
    obtain ⟨h, hpicture⟩ := Option.isSome_iff_exists.mp hsome
    obtain ⟨d, hheld, -⟩ := hshows.some hpicture
    exact serve_needed hproper hneeds hheld
  · intro n hn uri hsome
    obtain ⟨h, hpicture⟩ := Option.isSome_iff_exists.mp hsome
    obtain ⟨d, hheld, -⟩ := hshows.some hpicture
    obtain ⟨hkept, hlost⟩ := held?_serve_folders hproper hsettled hn uri
    have hproper' := proper_serve hproper n
    refine ⟨hkept, fun k hneeds => ⟨fun hfault hfollows => ?_, fun hnot => ?_⟩⟩
    · have hhandled := serve_needed hproper' hneeds ((hkept hfollows).trans hheld)
      rw [hhandled] at hfault
      exact nomatch hfault
    · exact (serve_missing hproper'.sound hneeds (hlost hnot)).1

theorem step_opened_of_ne {takes : Host → String → Bool} {edit : Edit → String → String} {m : Documents} {n : Notice}
    {uri text u : String} {version : Value} (hn : n.event = .opened uri text version) (hne : u ≠ uri) :
    m.step takes edit n u = m u := by
  simp only [Documents.step, hn]
  by_cases htakes : takes n.host uri = true
  · rw [if_pos htakes, Documents.set, if_neg hne]
  · rw [if_neg htakes]

/-- A document is opened in the root, and a folder that it belongs to is opened afterwards. -/
def movedDocument : List Notice := [
  Notice.opening {} "file:///ws/sub/a.py" "x" (.int 1),
  Notice.refolding {} ["file:///ws/sub"] []]

theorem followAlong_movedDocument : FollowAlong (startedAt "file:///ws") nothing movedDocument := by
  refine ⟨fun h => Event.noConfusion h, fun _ uri hsome => ?_, trivial⟩
  have huri : uri = "file:///ws/sub/a.py" := by
    by_contra hne
    rw [step_opened_of_ne rfl hne] at hsome
    exact nomatch hsome
  rw [huri]
  exact Or.inr ⟨by decide +kernel, by decide +kernel⟩

/-- The document moves from the root to the folder, and can then be closed. If the folder is closed first, the document
is lost, and the close fails. -/
theorem documents_follow_their_uris_folder_closed :
    let s := after (startedAt "file:///ws") movedDocument
    let close := Notice.closing {} "file:///ws/sub/a.py"
    (close.serve s).1 = .ok .null ∧
      (close.serve ((Notice.refolding {} [] ["file:///ws/sub"]).serve s).2).1 =
        .error (.keyMissing "file:///ws/sub/a.py") := by
  intro s close
  have hstart : Started (startedAt "file:///ws") := started_startedAt (by decide +kernel)
  obtain ⟨-, hhandled, hexact⟩ := documents_follow_their_uris hstart followAlong_movedDocument
  have hopen : (follow (startedAt "file:///ws") nothing movedDocument "file:///ws/sub/a.py").isSome := by decide +kernel
  have hlost : ¬ Follows (Notice.refolding {} [] ["file:///ws/sub"]) s "file:///ws/sub/a.py" := by
    unfold Follows
    decide +kernel
  refine ⟨hhandled close _ rfl hopen, ?_⟩
  exact ((hexact _ rfl _ hopen).2 close rfl).mpr hlost

end Client

end EditorService
