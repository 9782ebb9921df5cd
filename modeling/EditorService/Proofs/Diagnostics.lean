import EditorService.Proofs.Linting
import EditorService.Proofs.RootFolder

/-!
# Published diagnostics are current

The service publishes diagnostics when a timer expires, and not when a document changes. In between, what the client was
last told may be out of date. Then a timer is armed. So when no timer is armed any more, what was last published for an
open document was found in the document as it is now.

**The law** (`quiescent_diagnostics_are_current`) is about all ways in which messages and expiries can follow each other
while the folders stay as they are. Its first parts hold without any condition. A URI has at most one armed timer, the
timer finds its entry in the table when it expires, and diagnostics are published for open documents only.

The last two parts need that linting does not fail, and one thing more. The service stores a document first, then asks
the plugins about the opening, and then asks for the document to be linted. A plugin that fails on the opening leaves an
open document without a timer. So these parts are about documents whose opening did not fail (`Undisturbed`).
-/

namespace EditorService

/-- The diagnostics that a message publishes for a URI. -/
def Message.diagnosticsFor? (uri : String) : Message → Option Value
  | .notify method params =>
    if method = "textDocument/publishDiagnostics" ∧ params.field? "uri" = some (.str uri) then params.field? "diagnostics"
    else none
  | _ => none

theorem Message.diagnosticsFor?_publish (uri u : String) (found : Value) :
    (publishDiagnostics (.str u) found).diagnosticsFor? uri = if u = uri then some found else none := by
  simp [publishDiagnostics, diagnosticsFor?, Value.field?, Table.get?]

namespace Server

/-- **The diagnostics that were published for a URI**, in order. -/
def published (s : Server) (uri : String) : List Value := s.sent.filterMap (Message.diagnosticsFor? uri)

/-- **A timer is armed** to lint a document. -/
def Armed (s : Server) (uri : String) : Prop :=
  ∃ number saved, Table.get? s.timers.armed number = some (.lint uri saved)

/-- The timer that a URI waits for lints its document. -/
theorem Timed.lint_of_waiting {s : Server} (hs : s.Timed) {uri : String} {number : Nat}
    (h : Table.get? s.timers.waiting uri = some number) :
    ∃ saved, Table.get? s.timers.armed number = some (.lint uri saved) := by
  obtain ⟨timer, harmed, huri⟩ := hs.armed h
  cases timer with
  | lint u saved =>
    cases huri
    exact ⟨saved, harmed⟩
  | watch pid => cases huri

/-- Exactly the URIs that wait have an armed timer. -/
theorem Timed.armed_iff {s : Server} (hs : s.Timed) (uri : String) :
    s.Armed uri ↔ (Table.get? s.timers.waiting uri).isSome := by
  constructor
  · rintro ⟨number, saved, harmed⟩
    rw [hs.awaited harmed rfl]
    rfl
  · intro h
    obtain ⟨number, hwaits⟩ := Option.isSome_iff_exists.mp h
    exact ⟨number, hs.lint_of_waiting hwaits⟩

theorem not_armed {s : Server} (h : s.timers.armed = []) (uri : String) : ¬ s.Armed uri := by
  rintro ⟨number, saved, harmed⟩
  rw [h] at harmed
  cases harmed

/-- Requests disarm nothing. -/
theorem Asked.armed {flag : Option Bool} {s t : Server} (hs : s.Timed) (h : Asked flag s t) {uri : String}
    (harmed : s.Armed uri) : t.Armed uri := by
  rw [h.timed.armed_iff]
  rw [hs.armed_iff] at harmed
  rcases h.each uri with ⟨hwaiting, -⟩ | ⟨number, saved, -, -, hwaiting, -⟩
  · rw [hwaiting]
    exact harmed
  · rw [hwaiting]
    rfl

theorem held?_of_store {s t : Server} (h : t.store = s.store) : t.held? = s.held? := by
  funext uri
  rw [held?_eq, held?_eq, workspaceIdOf?_of_layout (layout_of_store h), stored?_of_store h]

instance : Service.Idle (Service.Same Server.published) where
  bench _ _ := rfl

end Server

namespace Service

open EditorService.Server

/-! ## Messages publish nothing -/

theorem keeps_close_published : Keeps Server.published close := by
  refine Moves.bind (Moves.modify fun s => ?_) fun _ => Moves.modify fun _ => rfl
  funext uri
  show (s.sent ++ [Message.endOfConnection]).filterMap (Message.diagnosticsFor? uri) = _
  rw [List.filterMap_append]
  exact List.append_nil _

theorem keeps_watchParent_published (pid : Value) : Keeps Server.published (watchParent pid) := by
  refine Moves.bind (moves_job _) fun alive => ?_
  split
  · exact Moves.modify fun _ => rfl
  · exact keeps_close_published

theorem keeps_updateConfig_published (id : ConfigId) (client : Value) :
    Keeps Server.published (updateConfig id client) := moves_updateConfig (fun _ _ => rfl) id client

theorem keeps_handle_published {method : Method} (hstart : method ≠ .start) (params : Params) :
    Keeps Server.published (handle method params) := by
  by_cases hfolders : method = .didChangeFolders
  · subst hfolders
    have hchange : ∀ event, Keeps Server.published (changeFolders event) := by
      intro event s
      have hsent : ((changeFolders event).perform s).2.sent = s.sent := congrArg Prod.snd (keeps_changeFolders event s)
      funext uri
      rw [published, hsent, published]
    simp only [handle]
    split
    · exact Moves.pure _
    · exact Moves.bind (hchange _) fun _ => Moves.pure _
  exact moves_handle {
    writes := fun _ _ _ _ _ _ _ => rfl
    lints := fun _ _ => Moves.modify fun _ => rfl
    updates := fun _ => keeps_updateConfig_published
    stops := fun _ _ => rfl
    ends := fun _ => keeps_close_published } hstart hfolders params

end Service

namespace Client

open EditorService.Service
open EditorService.Server

/-! ## Messages and expiries in any order -/

/-- The turn in which a notice is handled. -/
def Notice.turn (n : Notice) : Turn := .message n.host n.method n.params

theorem serve_turn (n : Notice) (s : Server) : n.turn.serve s = ((n.serve s).1.map fun _ => (), (n.serve s).2) :=
  perform_answer (handle n.method n.params) () (s.under n.host)

theorem method_ne_start (n : Notice) : n.method ≠ .start := by
  obtain ⟨host, method, params, event, reads⟩ := n
  rintro rfl
  cases reads with
  | other h _ => exact nomatch h

/-- **What may happen next**: a message that says something sensible, or the expiry of a timer. -/
inductive Tick where
  | notice (n : Notice)
  | expiry (host : Host) (number : Nat)

namespace Tick

/-- The turn of a tick. -/
def turn : Tick → Turn
  | .notice n => n.turn
  | .expiry host number => .expiry host number

/-- The service after a tick. -/
def next (tick : Tick) (s : Server) : Server := (tick.turn.serve s).2

/-- Whether a tick opens or changes a document. -/
def touches (uri : String) (s : Server) : Tick → Bool
  | .notice n =>
    match n.event with
    | .opened u _ _ => u == uri && s.takes n.host u
    | .changed u _ _ => u == uri
    | _ => false
  | .expiry _ _ => false

/-- A tick leaves the folders alone. -/
def Inside : Tick → Prop
  | .notice n => n.event ≠ .folders
  | .expiry _ _ => True

/-- **A tick goes smoothly for a document**: an opening that stores it does not fail, and neither does its linting. -/
def Smooth (uri : String) (s : Server) : Tick → Prop
  | .notice n =>
    ∀ text version, n.event = .opened uri text version → s.takes n.host uri = true → ∃ r, (n.serve s).1 = .ok r
  | .expiry host number =>
    ∀ saved q, Table.get? s.timers.armed number = some (.lint uri saved) →
      (s.under host).lintQuestion? uri saved = some q → ∃ found, (q.findings (s.under host).bench).1 = .ok found

end Tick

/-- The service after ticks. -/
def afterTicks (s : Server) : List Tick → Server
  | [] => s
  | tick :: rest => afterTicks (tick.next s) rest

/-- **Nothing disturbs a document**: all ticks go smoothly for it. -/
def Undisturbed (uri : String) (s : Server) : List Tick → Prop
  | [] => True
  | tick :: rest => tick.Smooth uri s ∧ Undisturbed uri (tick.next s) rest

/-- Whether a document has been opened or changed since its diagnostics were last published, after one more tick. -/
def outdate (uri : String) (s : Server) (outdated : Bool) (tick : Tick) : Bool :=
  if (tick.next s).published uri = s.published uri then outdated || tick.touches uri s else false

/-- **Whether a document has been opened or changed since its diagnostics were last published**, after ticks. -/
def outdatedFrom (uri : String) (s : Server) (outdated : Bool) : List Tick → Bool
  | [] => outdated
  | tick :: rest => outdatedFrom uri (tick.next s) (outdate uri s outdated tick) rest

/-- **What holds between all ticks.** -/
structure Sane (s : Server) : Prop where
  proper : Proper s
  equipped : s.Equipped
  timed : s.Timed

variable {s : Server} {uri : String} {tick : Tick}

theorem next_notice (n : Notice) (s : Server) : (Tick.notice n).next s = (n.serve s).2 := by
  show (n.turn.serve s).2 = _
  rw [serve_turn]

theorem next_expiry (host : Host) (number : Nat) (s : Server) :
    (Tick.expiry host number).next s = ((Turn.expiry host number).serve s).2 := rfl

theorem store_expiry (host : Host) (number : Nat) (s : Server) : ((Tick.expiry host number).next s).store = s.store :=
  keeps_expire number (s.under host)

theorem sane_next (hs : Sane s) (hinside : tick.Inside) : Sane (tick.next s) := by
  have htimed : (tick.next s).Timed := timed_serve hs.timed tick.turn
  cases tick with
  | notice n =>
    have hproper : Proper ((Tick.notice n).next s) := by
      rw [next_notice]
      exact proper_serve hs.proper n
    have hfolders : n.method ≠ .didChangeFolders := by
      intro h
      obtain ⟨host, method, params, event, reads⟩ := n
      cases h
      cases reads with
      | folders _ => exact hinside rfl
      | other h _ => exact nomatch h
    have hlater : n.turn.method? ≠ some .start := fun h => method_ne_start n (Option.some.inj h)
    have hother : n.turn.method? ≠ some .didChangeFolders := fun h => hfolders (Option.some.inj h)
    have hsteady := steady_serve hlater hother s
    exact ⟨hproper, hs.equipped.of_steady hsteady, htimed⟩
  | expiry host number =>
    have hnone : ∀ method, (Turn.expiry host number).method? ≠ some method := nofun
    have hsteady := steady_serve (hnone _) (hnone _) s
    exact ⟨hs.proper.of_store (store_expiry host number s), hs.equipped.of_steady hsteady, htimed⟩

theorem sane_afterTicks (hs : Sane s) {run : List Tick} (hrun : ∀ tick ∈ run, tick.Inside) :
    Sane (afterTicks s run) := by
  induction run generalizing s with
  | nil => exact hs
  | cons tick rest ih =>
    exact ih (sane_next hs (hrun tick List.mem_cons_self)) fun k hk => hrun k (List.mem_cons_of_mem tick hk)

/-! ## One message -/

theorem published_notice (n : Notice) (s : Server) : ((Tick.notice n).next s).published = s.published := by
  rw [next_notice]
  exact keeps_handle_published (method_ne_start n) n.params (s.under n.host)

theorem asked_notice (hs : s.Timed) (n : Notice) : Asked n.method.lintsAs? s ((Tick.notice n).next s) :=
  asked_serve hs n.host n.method n.params

/-- A notice that opens or changes a document, and does not fail: a timer is armed for it. -/
theorem armed_of_ok (hs : s.Timed) {n : Notice} {r : Value} (hok : (n.serve s).1 = .ok r)
    (h : (∃ text version, n.event = .opened uri text version) ∨ ∃ edits version, n.event = .changed uri edits version) :
    ((Tick.notice n).next s).Armed uri := by
  rw [(asked_notice hs n).timed.armed_iff, next_notice]
  have hserve : n.serve s = (.ok r, (n.serve s).2) := Prod.ext hok rfl
  have hrequest : ∃ timer, (n.serve s).2.timers = s.timers.request uri timer := by
    obtain ⟨host, method, params, event, reads⟩ := n
    rcases h with ⟨text, version, rfl⟩ | ⟨edits, version, rfl⟩
    · cases reads with
      | opened huri _ _ =>
        obtain ⟨saved, -, htimers⟩ := handle_requests rfl huri hserve
        exact ⟨_, htimers⟩
    · cases reads with
      | changed huri _ _ _ =>
        obtain ⟨saved, -, htimers⟩ := handle_requests rfl huri hserve
        exact ⟨_, htimers⟩
  obtain ⟨timer, htimers⟩ := hrequest
  rw [htimers, Clock.waiting_request, if_pos rfl]
  rfl

/-- A notice about another document, or about none. -/
theorem held?_notice_of_ne (hs : Proper s) {n : Notice} (hinside : n.event ≠ .folders) (hne : n.event.uri? ≠ some uri) :
    ((Tick.notice n).next s).held? uri = s.held? uri := by
  rw [next_notice]
  cases hother : n.event.uri? with
  | none => exact congrFun (held?_of_store (serve_other ((uri?_eq_none hother).resolve_left hinside))) uri
  | some other =>
    obtain ⟨entry, hwrites, -⟩ := serve_writes hs hother
    rw [hwrites.held hs.sound, if_neg]
    rintro rfl
    exact hne hother

theorem touches_of_ne {n : Notice} (hne : n.event.uri? ≠ some uri) : (Tick.notice n).touches uri s = false := by
  have hu : ∀ {u}, n.event.uri? = some u → u ≠ uri := by
    rintro u hevent rfl
    exact hne hevent
  cases hevent : n.event with
  | opened u text version => simp [Tick.touches, hevent, hu (u := u) (by rw [hevent]; rfl)]
  | changed u edits version => simp [Tick.touches, hevent, hu (u := u) (by rw [hevent]; rfl)]
  | closed u => simp [Tick.touches, hevent]
  | folders => simp [Tick.touches, hevent]
  | other => simp [Tick.touches, hevent]

/-- **What a message does to a document**, if it goes smoothly: a timer is armed for it afterwards, or it is not open, or
the message left it as it was. -/
theorem notice_cases (hs : Sane s) {n : Notice} (hinside : n.event ≠ .folders)
    (hsmooth : (Tick.notice n).Smooth uri s) :
    ((Tick.notice n).next s).Armed uri ∨ ((Tick.notice n).next s).held? uri = none ∨
      ((Tick.notice n).next s).held? uri = s.held? uri ∧ (Tick.notice n).touches uri s = false := by
  by_cases hu : n.event.uri? = some uri
  case neg => exact Or.inr (Or.inr ⟨held?_notice_of_ne hs.proper hinside hu, touches_of_ne hu⟩)
  have hkept : (n.serve s).2.store = s.store → ((Tick.notice n).next s).held? uri = s.held? uri := by
    intro hstore
    rw [next_notice]
    exact congrFun (held?_of_store hstore) uri
  cases hevent : n.event with
  | opened u text version =>
    rw [hevent] at hu
    cases hu
    -- An opening that is not taken fails before anything is stored.
    cases htakes : s.takes n.host uri with
    | true =>
      obtain ⟨r, hok⟩ := hsmooth text version hevent htakes
      exact Or.inl (armed_of_ok hs.timed hok (Or.inl ⟨text, version, hevent⟩))
    | false =>
      have hopen := serve_opened hs.proper.sound hevent
      rw [htakes, if_neg Bool.false_ne_true] at hopen
      exact Or.inr (Or.inr ⟨hkept hopen.2, by simp [Tick.touches, hevent, htakes]⟩)
  | changed u edits version =>
    rw [hevent] at hu
    cases hu
    have harmed : ∀ {r}, (n.serve s).1 = .ok r → ((Tick.notice n).next s).Armed uri := fun hok =>
      armed_of_ok hs.timed hok (Or.inr ⟨edits, version, hevent⟩)
    cases hheld : s.held? uri with
    | some d =>
      obtain ⟨source, hsource⟩ := hs.proper.text_of_held hheld
      obtain ⟨d', hok, -⟩ := serve_changed hs.proper.sound hevent hheld hsource
      exact Or.inl (harmed hok)
    | none =>
      -- No edits at all do not need a document: the change of a closed one arms a timer.
      cases edits with
      | nil => exact Or.inl (harmed (serve_unchanged hevent).1)
      | cons e rest =>
        have hmissing := serve_missing hs.proper.sound (by rw [hevent]; rfl) hheld
        exact Or.inr (Or.inl ((hkept hmissing.2).trans hheld))
  | closed u =>
    rw [hevent] at hu
    cases hu
    refine Or.inr (Or.inl ?_)
    cases hheld : s.held? uri with
    | some d => rw [next_notice, (serve_closed hs.proper.sound hevent hheld).2.held hs.proper.sound, if_pos rfl]
    | none => exact (hkept (serve_missing hs.proper.sound (by rw [hevent]; rfl) hheld).2).trans hheld
  | folders => exact absurd hevent hinside
  | other =>
    rw [hevent] at hu
    cases hu

/-! ## One expiry -/

/-- **A tick lints a document**: its timer expires, and this is what the plugins find in it. -/
def Lints (uri : String) (d : Document) (found : Value) (s : Server) : Tick → Prop
  | .notice _ => False
  | .expiry host number =>
    ∃ saved q, Table.get? s.timers.armed number = some (.lint uri saved) ∧ s.held? uri = some d ∧
      (s.under host).lintQuestion? uri saved = some q ∧ (q.findings (s.under host).bench).1 = .ok found

variable {host : Host} {number : Nat}

theorem held?_expiry (host : Host) (number : Nat) (s : Server) :
    ((Tick.expiry host number).next s).held? = s.held? := held?_of_store (store_expiry host number s)

/-- What an expiry publishes: nothing, or what the plugins find in an open document. -/
theorem published_expiry (hs : Sane s) {u : String} {saved : Bool}
    (harmed : Table.get? s.timers.armed number = some (.lint u saved)) (host : Host) :
    (∃ d found, Lints u d found s (.expiry host number) ∧
        ∀ uri, ((Tick.expiry host number).next s).published uri =
          s.published uri ++ if u = uri then [found] else []) ∨
      (∀ uri, ((Tick.expiry host number).next s).published uri = s.published uri) ∧
        ∀ q, (s.under host).lintQuestion? u saved = some q → ∃ f, (q.findings (s.under host).bench).1 = .error f := by
  have hequipped := hs.equipped.of_steady (steady_under s host)
  have hasked := isSome_lintQuestion? hequipped u saved
  cases hheld : s.held? u with
  | none =>
    refine Or.inr ⟨fun uri => ?_, fun q hq => ?_⟩
    · rw [next_expiry, serve_expiry_closed hs.timed hs.proper.sound harmed hheld]
      rfl
    · have hnone : ((s.under host).held? u).isSome = false := by rw [show (s.under host).held? u = none from hheld]; rfl
      rw [hq, hnone] at hasked
      exact nomatch hasked
  | some d =>
    have hsome : ((s.under host).held? u).isSome = true := by rw [show (s.under host).held? u = some d from hheld]; rfl
    obtain ⟨q, hq⟩ := Option.isSome_iff_exists.mp (hasked.trans hsome)
    have hserve := serve_expiry_open hs.timed harmed hq
    rcases hfindings : q.findings (s.under host).bench with ⟨r, bench⟩
    rw [hfindings] at hserve
    cases r with
    | error f =>
      refine Or.inr ⟨fun uri => ?_, fun q' hq' => ?_⟩
      · rw [next_expiry, hserve]
        rfl
      · cases hq.symm.trans hq'
        exact ⟨f, by rw [hfindings]⟩
    | ok found =>
      refine Or.inl ⟨d, found, ⟨saved, q, harmed, hheld, hq, by rw [hfindings]⟩, fun uri => ?_⟩
      rw [next_expiry, hserve]
      show (s.sent ++ [Message.publishDiagnostics (.str u) found]).filterMap _ = _
      rw [List.filterMap_append, List.filterMap_cons, Message.diagnosticsFor?_publish]
      by_cases hu : u = uri
      · rw [if_pos hu, if_pos hu]
        rfl
      · rw [if_neg hu, if_neg hu]
        rfl

/-- An expiry that is not the one that a URI waits for is nothing to it. -/
theorem expiry_of_ne (hs : Sane s) (hne : Table.get? s.timers.waiting uri ≠ some number) :
    ((Tick.expiry host number).next s).published uri = s.published uri ∧
      (((Tick.expiry host number).next s).Armed uri ↔ s.Armed uri) := by
  have hexpired : Expired number s ((Tick.expiry host number).next s) := expired_serve hs.timed host number
  refine ⟨?_, ?_⟩
  · cases harmed : Table.get? s.timers.armed number with
    | none =>
      have hserve : (Turn.expiry host number).serve s = _ := perform_expire_none (s := s.under host) harmed
      rw [next_expiry, hserve]
      rfl
    | some timer =>
      cases timer with
      | watch pid =>
        have hserve : (Turn.expiry host number).serve s = _ := perform_expire_watch (s := s.under host) harmed
        rw [next_expiry, hserve]
        exact congrFun (keeps_watchParent_published pid _) uri
      | lint u saved =>
        have hu : u ≠ uri := by
          rintro rfl
          exact hne (hs.timed.awaited harmed rfl)
        rcases published_expiry hs harmed host with ⟨d, found, -, hpublished⟩ | ⟨hsame, -⟩
        · rw [hpublished, if_neg hu, List.append_nil]
        · exact hsame uri
  · rw [hexpired.timed.armed_iff, hs.timed.armed_iff, hexpired.waiting, if_neg hne]

/-- **What an expiry does to a document**, if it goes smoothly: it is not the document's timer, or the document is not open,
or it is linted and what is found is published. -/
theorem expiry_cases (hs : Sane s) (hsmooth : (Tick.expiry host number).Smooth uri s) :
    (((Tick.expiry host number).next s).published uri = s.published uri ∧
        (((Tick.expiry host number).next s).Armed uri ↔ s.Armed uri)) ∨
      s.held? uri = none ∨
      ∃ d found, Lints uri d found s (.expiry host number) ∧
        ((Tick.expiry host number).next s).published uri = s.published uri ++ [found] := by
  by_cases hwaits : Table.get? s.timers.waiting uri = some number
  · obtain ⟨saved, harmed⟩ := hs.timed.lint_of_waiting hwaits
    rcases published_expiry hs harmed host with ⟨d, found, hlints, hpublished⟩ | ⟨-, hfails⟩
    · refine Or.inr (Or.inr ⟨d, found, hlints, ?_⟩)
      rw [hpublished, if_pos rfl]
    · refine Or.inr (Or.inl (Option.not_isSome_iff_eq_none.mp fun hopen => ?_))
      have hasked := isSome_lintQuestion? (hs.equipped.of_steady (steady_under s host)) uri saved
      obtain ⟨q, hq⟩ := Option.isSome_iff_exists.mp (hasked.trans hopen)
      obtain ⟨found, hfound⟩ := hsmooth saved q harmed hq
      obtain ⟨f, hfault⟩ := hfails q hq
      cases hfound.symm.trans hfault
  · exact Or.inl (expiry_of_ne hs hwaits)

/-! ## Step by step -/

/-- **Diagnostics are published for open documents only.** -/
theorem published_next (hs : Sane s) (tick : Tick) (uri : String) :
    (tick.next s).published uri = s.published uri ∨
      (s.held? uri).isSome ∧ ∃ found, (tick.next s).published uri = s.published uri ++ [found] := by
  cases tick with
  | notice n => exact Or.inl (congrFun (published_notice n s) uri)
  | expiry host number =>
    by_cases hwaits : Table.get? s.timers.waiting uri = some number
    · obtain ⟨saved, harmed⟩ := hs.timed.lint_of_waiting hwaits
      rcases published_expiry hs harmed host with ⟨d, found, hlints, hpublished⟩ | ⟨hsame, -⟩
      · obtain ⟨_, _, -, hheld, -⟩ := hlints
        refine Or.inr ⟨by rw [hheld]; rfl, found, ?_⟩
        rw [hpublished, if_pos rfl]
      · exact Or.inl (hsame uri)
    · exact Or.inl (expiry_of_ne hs hwaits).1

/-- **A document that is out of date has a timer.** -/
def Due (uri : String) (s : Server) (outdated : Bool) : Prop :=
  outdated = true → (s.held? uri).isSome → s.Armed uri

theorem due_next (hs : Sane s) (hinside : tick.Inside) (hsmooth : tick.Smooth uri s) {outdated : Bool}
    (hdue : Due uri s outdated) : Due uri (tick.next s) (outdate uri s outdated tick) := by
  intro houtdated hopen
  cases tick with
  | notice n =>
    rw [outdate, if_pos (congrFun (published_notice n s) uri), Bool.or_eq_true] at houtdated
    rcases notice_cases hs hinside hsmooth with harmed | hnone | ⟨hsame, htouches⟩
    · exact harmed
    · rw [hnone] at hopen
      cases hopen
    · rw [hsame] at hopen
      rw [htouches] at houtdated
      exact (asked_notice hs.timed n).armed hs.timed (hdue (houtdated.resolve_right Bool.false_ne_true) hopen)
  | expiry host number =>
    rw [held?_expiry] at hopen
    rcases expiry_cases hs hsmooth with ⟨hsame, harmed⟩ | hnone | ⟨d, found, -, hpublished⟩
    · rw [outdate, if_pos hsame, Bool.or_eq_true] at houtdated
      exact harmed.mpr (hdue (houtdated.resolve_right Bool.false_ne_true) hopen)
    · rw [hnone] at hopen
      cases hopen
    · rw [outdate, if_neg] at houtdated
      · cases houtdated
      · rw [hpublished]
        simp

/-- **A document that is open without a timer** was so before, or has just been linted. -/
theorem current_next (hs : Sane s) (hinside : tick.Inside) (hsmooth : tick.Smooth uri s) {d : Document}
    (hheld : (tick.next s).held? uri = some d) (hnot : ¬ (tick.next s).Armed uri) :
    (s.held? uri = some d ∧ ¬ s.Armed uri ∧ (tick.next s).published uri = s.published uri) ∨
      ∃ found, Lints uri d found s tick ∧ (tick.next s).published uri = s.published uri ++ [found] := by
  cases tick with
  | notice n =>
    rcases notice_cases hs hinside hsmooth with harmed | hnone | ⟨hsame, -⟩
    · exact absurd harmed hnot
    · cases hnone.symm.trans hheld
    · refine Or.inl ⟨hsame.symm.trans hheld, fun harmed => hnot ?_, congrFun (published_notice n s) uri⟩
      exact (asked_notice hs.timed n).armed hs.timed harmed
  | expiry host number =>
    rw [held?_expiry] at hheld
    rcases expiry_cases hs hsmooth with ⟨hsame, harmed⟩ | hnone | ⟨d', found, hlints, hpublished⟩
    · exact Or.inl ⟨hheld, fun h => hnot (harmed.mpr h), hsame⟩
    · cases hnone.symm.trans hheld
    · have ⟨_, _, _, hheld', _⟩ := hlints
      cases hheld.symm.trans hheld'
      exact Or.inr ⟨found, hlints, hpublished⟩

/-! ## Along a run -/

theorem due_afterTicks (hs : Sane s) {run : List Tick} (hrun : ∀ tick ∈ run, tick.Inside)
    (hsmooth : Undisturbed uri s run) {outdated : Bool} (hdue : Due uri s outdated) :
    Due uri (afterTicks s run) (outdatedFrom uri s outdated run) := by
  induction run generalizing s outdated with
  | nil => exact hdue
  | cons tick rest ih =>
    have hinside := hrun tick List.mem_cons_self
    exact ih (sane_next hs hinside) (fun k hk => hrun k (List.mem_cons_of_mem tick hk)) hsmooth.2
      (due_next hs hinside hsmooth.1 hdue)

/-- A document that is open without a timer was so from the beginning, or it has been linted on the way, and what was
found then was published last. -/
theorem current_afterTicks (hs : Sane s) {run : List Tick} (hrun : ∀ tick ∈ run, tick.Inside)
    (hsmooth : Undisturbed uri s run) {d : Document} (hheld : (afterTicks s run).held? uri = some d)
    (hnot : ¬ (afterTicks s run).Armed uri) :
    (s.held? uri = some d ∧ ¬ s.Armed uri ∧ (afterTicks s run).published uri = s.published uri) ∨
      ∃ before tick rest found, run = before ++ tick :: rest ∧ Lints uri d found (afterTicks s before) tick ∧
        ((afterTicks s run).published uri).getLast? = some found := by
  -- The last linting is looked for from behind: in the rest of the run first, and then in its first tick.
  induction run generalizing s with
  | nil => exact Or.inl ⟨hheld, hnot, rfl⟩
  | cons tick rest ih =>
    have hinside := hrun tick List.mem_cons_self
    rcases ih (sane_next hs hinside) (fun k hk => hrun k (List.mem_cons_of_mem tick hk)) hsmooth.2 hheld hnot with
      ⟨hheld', hnot', hsame⟩ | ⟨before, lint, behind, found, rfl, hlints, hlast⟩
    · rcases current_next hs hinside hsmooth.1 hheld' hnot' with ⟨hbefore, hnever, hkept⟩ | ⟨found, hlints, hpublished⟩
      · exact Or.inl ⟨hbefore, hnever, hsame.trans hkept⟩
      · refine Or.inr ⟨[], tick, rest, found, rfl, hlints, ?_⟩
        show ((afterTicks (tick.next s) rest).published uri).getLast? = some found
        rw [hsame, hpublished, List.getLast?_concat]
    · exact Or.inr ⟨tick :: before, lint, behind, found, rfl, hlints, hlast⟩

/-- The service after the start and after folder events is ready for all that follows. -/
theorem sane_after {s₀ : Server} (hstart : Started s₀) {setup : List Notice}
    (hsetup : ∀ n ∈ setup, n.event = .folders) : Sane (after s₀ setup) := by
  have hproper := (founded_after hstart.founded hsetup).proper
  have hkept : ∀ {s : Server}, s.Equipped → s.Timed → (after s setup).Equipped ∧ (after s setup).Timed := by
    clear hsetup hproper
    induction setup with
    | nil => exact fun hs ht => ⟨hs, ht⟩
    | cons n rest ih =>
      intro s hs ht
      have hserve : (n.serve s).2 = (n.turn.serve s).2 := (next_notice n s).symm
      refine ih ?_ ?_
      · rw [hserve]
        exact equipped_serve hs fun h => method_ne_start n (Option.some.inj h)
      · rw [hserve]
        exact timed_serve ht n.turn
  obtain ⟨hequipped, htimed⟩ := hkept (fromFirst_equipped.of_started hstart) hstart.timed.1
  exact ⟨hproper, hequipped, htimed⟩

/-- **Diagnostics are current once no timer is armed.** After the start, folder events, and then any messages and
expiries that leave the folders alone: a URI has at most one armed timer; the timer finds its entry in the table;
diagnostics are published for open documents only. And where nothing disturbs a document: if it was opened or changed
since its diagnostics were last published, a timer is armed; and if none is, then what was published last is what the
plugins found in the document as it is. -/
theorem quiescent_diagnostics_are_current {s₀ : Server} (hstart : Started s₀) {setup : List Notice}
    (hsetup : ∀ n ∈ setup, n.event = .folders) {run : List Tick} (hrun : ∀ tick ∈ run, tick.Inside) (uri : String) :
    let s := after s₀ setup
    let t := afterTicks s run
    (t.timers.armed.filter fun e => e.2.uri? = some uri).length ≤ 1 ∧
      (∀ number saved, Table.get? t.timers.armed number = some (.lint uri saved) →
        ((t.timers.stop number).release? uri).isSome) ∧
      (∀ tick : Tick, (tick.next t).published uri = t.published uri ∨
        (t.held? uri).isSome ∧ ∃ found, (tick.next t).published uri = t.published uri ++ [found]) ∧
      (Undisturbed uri s run →
        (outdatedFrom uri s false run = true → (t.held? uri).isSome → t.Armed uri) ∧
          ∀ d, t.held? uri = some d → ¬ t.Armed uri →
            ∃ before tick rest found, run = before ++ tick :: rest ∧ Lints uri d found (afterTicks s before) tick ∧
              (t.published uri).getLast? = some found) := by
  intro s t
  have hs : Sane s := sane_after hstart hsetup
  have ht : Sane t := sane_afterTicks hs hrun
  have hempty : s.held? uri = none := by
    rw [held?_eq]
    cases s.workspaceIdOf? uri with
    | none => rfl
    | some id => exact (founded_after hstart.founded hsetup).empty id uri
  refine ⟨ht.timed.alone uri, fun number saved harmed => ?_, fun tick => published_next ht tick uri,
    fun hsmooth => ⟨?_, fun d hheld hnot => ?_⟩⟩
  · rw [Clock.release?_stop ht.timed harmed rfl]
    rfl
  · exact due_afterTicks hs hrun hsmooth nofun
  · rcases current_afterTicks hs hrun hsmooth hheld hnot with ⟨hbefore, -, -⟩ | hlinted
    · cases hempty.symm.trans hbefore
    · exact hlinted

/-- A service with one plugin that has a fixed answer to one hook, started at a root. -/
def startedWith (hook : String) (result : Except Fault Value) : Server :=
  ((handle .start [("rootUri", .str "file:///ws")]).perform
    { plugins := [.custom { name := "p", answers := [(hook, { result })] }], sources := [] }).2

theorem started_startedWith {hook : String} {result : Except Fault Value} (h : (startedWith hook result).root.isSome) :
    Started (startedWith hook result) :=
  ⟨h, _, _, _, _, _, rfl⟩

/-- The notice that opens a document with the text `x`. -/
def opensDocument : Notice := .opening {} "file:///ws/a.py" "x" (.int 1)

/-- A document is opened and linted, and then changed and linted again. -/
def lintedTwice : List Tick :=
  [.notice opensDocument, .expiry {} 0, .notice (.changing {} "file:///ws/a.py" [⟨"y", none⟩] (.int 2)), .expiry {} 1]

/-- A plugin that finds one thing in every document. -/
def finding : Server := startedWith "pyls_lint" (.ok (.list [.str "found"]))

/-- A second folder is opened. -/
def secondFolder : List Notice := [.refolding {} ["file:///b"] []]

theorem smooth_expiry (found : Value)
    (h : ∀ saved, Table.get? s.timers.armed number = some (.lint uri saved) →
      ((s.under host).lintQuestion? uri saved).map (fun q => (q.findings (s.under host).bench).1) = some (.ok found)) :
    (Tick.expiry host number).Smooth uri s := by
  intro saved q harmed hq
  have hfound := h saved harmed
  rw [hq] at hfound
  exact ⟨found, Option.some.inj hfound⟩

theorem smooth_changing (host : Host) (u : String) (edits : List Document.Edit) (version : Value) :
    (Tick.notice (.changing host u edits version)).Smooth uri s := by
  intro text version' hevent
  cases hevent

theorem undisturbed_lintedTwice : Undisturbed "file:///ws/a.py" (after finding secondFolder) lintedTwice := by
  have hopened : (Tick.notice opensDocument).Smooth "file:///ws/a.py" (after finding secondFolder) := fun _ _ _ _ =>
    ⟨.null, by decide +kernel⟩
  have hfirst : (Tick.expiry {} 0).Smooth "file:///ws/a.py"
      (afterTicks (after finding secondFolder) (lintedTwice.take 1)) :=
    smooth_expiry (.list [.str "found"]) (by decide +kernel)
  have hsecond : (Tick.expiry {} 1).Smooth "file:///ws/a.py"
      (afterTicks (after finding secondFolder) (lintedTwice.take 3)) :=
    smooth_expiry (.list [.str "found"]) (by decide +kernel)
  exact ⟨hopened, hfirst, smooth_changing _ _ _ _, hsecond, trivial⟩

/-- After the second linting no timer is armed, and what was published last was found in the text `y`. -/
theorem quiescent_diagnostics_are_current_changed_document :
    Started finding ∧ (∀ n ∈ secondFolder, n.event = .folders) ∧ (∀ tick ∈ lintedTwice, tick.Inside) ∧
      Undisturbed "file:///ws/a.py" (after finding secondFolder) lintedTwice ∧
      ∃ d found, (afterTicks (after finding secondFolder) lintedTwice).held? "file:///ws/a.py" = some d ∧
        d.source = some "y" ∧
        ((afterTicks (after finding secondFolder) lintedTwice).published "file:///ws/a.py").getLast? = some found ∧
        ∃ before tick rest, lintedTwice = before ++ tick :: rest ∧
          Lints "file:///ws/a.py" d found (afterTicks (after finding secondFolder) before) tick := by
  have hstart : Started finding := started_startedWith (by decide +kernel)
  have hsetup : ∀ n ∈ secondFolder, n.event = .folders := by simp [secondFolder, Notice.refolding]
  have hinside : ∀ tick ∈ lintedTwice, tick.Inside := by
    simp [lintedTwice, Tick.Inside, opensDocument, Notice.opening, Notice.changing]
  have hsource : ((afterTicks (after finding secondFolder) lintedTwice).held? "file:///ws/a.py").map (·.source) =
      some (some "y") := by decide +kernel
  obtain ⟨d, hheld, hy⟩ := Option.map_eq_some_iff.mp hsource
  have hnot : ¬ (afterTicks (after finding secondFolder) lintedTwice).Armed "file:///ws/a.py" :=
    not_armed (by decide +kernel) _
  have hlaw := (quiescent_diagnostics_are_current hstart hsetup hinside "file:///ws/a.py").2.2.2
  obtain ⟨before, tick, rest, found, hsplit, hlints, hlast⟩ := (hlaw undisturbed_lintedTwice).2 d hheld hnot
  exact ⟨hstart, hsetup, hinside, undisturbed_lintedTwice, d, found, hheld, hy, hlast, before, tick, rest, hsplit, hlints⟩

/-- **An opening that fails on a plugin.** The document is stored and open, and it has not been linted, but no timer is
armed for it. -/
theorem opened_without_timer :
    Started (startedWith "pyls_document_did_open" (.error (.tool .runtime "no"))) ∧
      (Tick.notice opensDocument).Inside ∧
      let t := afterTicks (startedWith "pyls_document_did_open" (.error (.tool .runtime "no"))) [.notice opensDocument]
      outdatedFrom "file:///ws/a.py" (startedWith "pyls_document_did_open" (.error (.tool .runtime "no"))) false
          [.notice opensDocument] = true ∧
        (t.held? "file:///ws/a.py").isSome ∧ ¬ t.Armed "file:///ws/a.py" := by
  exact ⟨started_startedWith (by decide +kernel), nofun, by decide +kernel, by decide +kernel,
    not_armed (by decide +kernel) _⟩

end Client

end EditorService
