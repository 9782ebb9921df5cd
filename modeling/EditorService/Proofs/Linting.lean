import EditorService.Proofs.Clock
import EditorService.Proofs.Turns

/-!
# Requests to lint, and linting

A document is linted in two steps. A handler asks for it, and the URI waits for a timer. When the timer expires, the
plugins are asked about the document, if it is still open, and what they find is published.

* **Requests.** `Asked` says what a message does to the timers. Each URI waits for what it waited for, or for a new timer
  with the flag of the method: saved for a document that was opened or saved, and not saved for all other methods. This
  holds of any message (`asked_serve`).
* **Expiry.** `Expired` says what the expiry of a timer does to the timers: the URI that waited for it waits for nothing
  any more (`expired_serve`). The timer always finds its URI in the table.
* **Linting.** `perform_lintNow` says what the plugins are asked and what becomes of their answers.
-/

namespace EditorService

/-- The URI that a timer is for. -/
def Timer.uri? : Timer → Option String
  | .lint uri _ => some uri
  | .watch _ => none

namespace Server

/-! ## Requests -/

/-- **The timers are sound.** -/
def Timed (s : Server) : Prop := s.timers.Sound Timer.uri?

/-- **From one state to a later one**, with requests to lint that have a given flag, or with none. -/
structure Asked (flag : Option Bool) (s t : Server) : Prop where
  timed : t.Timed
  next : s.timers.next ≤ t.timers.next
  each : ∀ uri,
    (Table.get? t.timers.waiting uri = Table.get? s.timers.waiting uri ∧
      t.timers.action? uri = s.timers.action? uri) ∨
    ∃ number saved, flag = some saved ∧ s.timers.next ≤ number ∧ Table.get? t.timers.waiting uri = some number ∧
      t.timers.action? uri = some (.lint uri saved)

/-- The drift of requests. -/
def Asks (flag : Option Bool) (s t : Server) : Prop := s.Timed → Asked flag s t

theorem asked_of_timers {flag : Option Bool} {s t : Server} (hs : s.Timed) (h : t.timers = s.timers) :
    Asked flag s t where
  timed := by
    rw [Timed, h]
    exact hs
  next := Nat.le_of_eq (by rw [h])
  each uri := Or.inl (by rw [h]; exact ⟨rfl, rfl⟩)

theorem asks_of_timers {flag : Option Bool} {s t : Server} (h : t.timers = s.timers) : Asks flag s t :=
  fun hs => asked_of_timers hs h

theorem Asked.trans {flag : Option Bool} {s t u : Server} (hst : Asked flag s t) (htu : Asked flag t u) :
    Asked flag s u where
  timed := htu.timed
  next := Nat.le_trans hst.next htu.next
  each uri := by
    rcases htu.each uri with ⟨hwaiting, haction⟩ | ⟨number, saved, hflag, hnumber, hnew⟩
    · rw [hwaiting, haction]
      exact hst.each uri
    · exact Or.inr ⟨number, saved, hflag, Nat.le_trans hst.next hnumber, hnew⟩

instance (flag : Option Bool) : Service.Idle (Asks flag) where
  rest _ := asks_of_timers rfl
  chain hst htu hs := (hst hs).trans (htu (hst hs).timed)
  bench _ _ := asks_of_timers rfl

/-- What goes out of the service: the timers that it starts and the messages that it sends. -/
def outgoing (s : Server) : Clock String Timer × List Message := (s.timers, s.sent)

instance : Service.Idle (Service.Same outgoing) where
  bench _ _ := rfl

end Server

namespace Service

open EditorService.Server

variable {α : Type}

theorem asks_of_keeps {flag : Option Bool} {step : Service α} (h : Keeps outgoing step) : Moves (Asks flag) step :=
  fun s => asks_of_timers (congrArg Prod.fst (h s))

theorem asks_lintLater (uri : String) (saved : Bool) : Moves (Asks (some saved)) (lintLater uri saved) := by
  refine Moves.modify fun s hs => ⟨hs.request rfl, ?_, fun u => ?_⟩
  · show s.timers.next ≤ (s.timers.request uri _).next
    rw [Clock.next_request]
    exact Nat.le_succ _
  · show (Table.get? (s.timers.request uri _).waiting u = _ ∧ (s.timers.request uri _).action? u = _) ∨
      ∃ number flag, _ ∧ _ ∧ Table.get? (s.timers.request uri _).waiting u = _ ∧ (s.timers.request uri _).action? u = _
    rw [Clock.waiting_request, Clock.action?_request hs]
    by_cases hu : u = uri
    · rw [if_pos hu, if_pos hu, hu]
      exact Or.inr ⟨s.timers.next, saved, rfl, Nat.le_refl _, rfl, rfl⟩
    · rw [if_neg hu, if_neg hu]
      exact Or.inl ⟨rfl, rfl⟩

theorem asks_writable (flag : Option Bool) : Writable (Asks flag) := fun _ _ => asks_of_timers rfl

theorem asks_updateConfig (flag : Option Bool) (id : ConfigId) (client : Value) :
    Moves (Asks flag) (updateConfig id client) :=
  moves_updateConfig (fun _ _ => asks_of_timers rfl) id client

theorem asks_close (flag : Option Bool) : Moves (Asks flag) close :=
  Moves.bind (Moves.modify fun _ => asks_of_timers rfl) fun _ => Moves.modify fun _ => asks_of_timers rfl

theorem asks_watchParent (flag : Option Bool) (pid : Value) : Moves (Asks flag) (watchParent pid) := by
  refine Moves.bind (moves_job _) fun alive => ?_
  split
  · refine Moves.modify fun s hs => ⟨hs.start rfl, Nat.le_succ _, fun uri => Or.inl ⟨rfl, ?_⟩⟩
    exact congrFun (Clock.action?_start hs _) uri
  · exact asks_close flag

/-! Folder events and the start ask for nothing. -/

theorem keeps_openFolder_outgoing (uri : String) : Keeps outgoing (openFolder uri) := by
  refine Moves.bind Moves.get fun s => Moves.bind (Moves.present _) fun own => ?_
  refine Moves.bind (moves_newConfig (fun _ _ => rfl) (fun _ _ => rfl) _ _ _ _) fun c => ?_
  refine Moves.bind (moves_updateConfig (fun _ _ => rfl) _ _) fun _ t => ?_
  rcases perform_newFolder uri c.id t with hsame | ⟨w, -, hnew⟩
  · rw [hsame]
    rfl
  · rw [hnew]
    rfl

theorem keeps_changeFolders (event : Value) : Keeps outgoing (changeFolders event) := by
  refine Moves.bind (moves_arrangeFolders ?_ keeps_openFolder_outgoing ?_ event) fun _ => moves_moveDocuments fun _ _ => rfl
  · intro uri
    unfold closeFolder
    split
    · exact Moves.modify fun _ => rfl
    · exact Moves.throw _
    · exact Moves.throw _
    · exact Moves.pure _
  · intro uri
    refine Moves.bind (Moves.modify fun _ => rfl) fun _ => Moves.bind Moves.get fun s => ?_
    split
    · exact Moves.throw _
    · exact Moves.bind (Moves.present _) fun _ => Moves.modify fun _ => rfl

theorem keeps_openRoot (rootUri : String) (initOptions processId capabilities : Value) :
    Keeps outgoing (openRoot rootUri initOptions processId capabilities) := by
  refine Moves.bind (Moves.modify fun _ => rfl) fun _ => ?_
  refine Moves.bind (moves_newConfig (fun _ _ => rfl) (fun _ _ => rfl) _ _ _ _) fun c => ?_
  refine Moves.bind (Moves.modify fun _ => rfl) fun _ => ?_
  refine Moves.bind (Moves.get_bind fun s => Drift.ofExcept_bind fun w _ => ?_) fun w => ?_
  · rfl
  · exact Moves.bind (Moves.modify fun _ => rfl) fun _ => Moves.modify fun _ => rfl

/-- **Every handler asks with the flag of its method.** -/
theorem asks_handle (method : Method) (params : Params) : Moves (Asks method.lintsAs?) (handle method params) := by
  by_cases hstart : method = .start
  · subst hstart
    intro s
    exact start_moves (fun _ _ _ _ => asks_of_keeps (keeps_openRoot _ _ _ _) s)
      (fun _ _ => asks_of_timers rfl) (fun _ => asks_of_timers rfl) (asks_watchParent _) params
  by_cases hfolders : method = .didChangeFolders
  · subst hfolders
    simp only [handle]
    split
    · exact Moves.pure _
    · exact Moves.bind (asks_of_keeps (keeps_changeFolders _)) fun _ => Moves.pure _
  exact moves_handle {
    writes := fun _ => asks_writable _
    lints := fun {saved} h uri => by
      rw [h]
      exact asks_lintLater uri saved
    updates := fun _ => asks_updateConfig _
    stops := fun _ _ => asks_of_timers rfl
    ends := fun _ => asks_close _ } hstart hfolders params

/-! ## Requests for one document -/

instance : Idle (Same Server.timers) where
  bench _ _ := rfl

theorem didOpen_endsIn {params : Params} {uri : String} (huri : (documentParam params).item "uri" = .ok (.str uri)) :
    EndsIn (Same Server.timers) (didOpen params) (lintLater uri true) := by
  refine EndsIn.known (perform_uriParam huri) ?_
  refine EndsIn.bind Moves.get fun _ => EndsIn.bind (Moves.present _) fun w => ?_
  refine EndsIn.bind (Moves.ofExcept _) fun source => EndsIn.bind (Moves.ofExcept _) fun version => ?_
  refine EndsIn.bind Moves.get fun _ => EndsIn.bind (Moves.ofExcept _) fun w => ?_
  refine EndsIn.bind (Moves.modify fun _ => rfl) fun _ => EndsIn.bind (moves_askPlugins _ _ _) fun _ => ?_
  exact EndsIn.rest _

theorem didChange_endsIn {params : Params} {uri : String} (huri : (documentParam params).item "uri" = .ok (.str uri)) :
    EndsIn (Same Server.timers) (didChange params) (lintLater uri false) := by
  have hwrite : Writable (Same Server.timers) := fun _ _ => rfl
  refine EndsIn.known (perform_uriParam huri) ?_
  refine EndsIn.bind (Moves.ofExcept _) fun changes => EndsIn.bind (Moves.ofExcept _) fun version => ?_
  refine EndsIn.bind (Moves.forM _ fun change _ => moves_changeDocument hwrite uri version change) fun _ => ?_
  exact EndsIn.rest _

/-- **A message that opens, saves or changes a document**, and does not fail, is a request to lint it. -/
theorem handle_requests {method : Method} (hmethod : method.lintsOne = true) {params : Params} {uri : String}
    (huri : (documentParam params).item "uri" = .ok (.str uri)) {s u : Server} {r : Value}
    (h : (handle method params).perform s = (.ok r, u)) :
    ∃ saved, method.lintsAs? = some saved ∧ u.timers = s.timers.request uri (.lint uri saved) := by
  have hlast : ∀ {saved} {step : Service Unit}, EndsIn (Same Server.timers) step (lintLater uri saved) →
      (step >>= fun _ => pure Value.null).perform s = (.ok r, u) →
      u.timers = s.timers.request uri (.lint uri saved) := by
    intro saved step hends hrun
    obtain ⟨_, t, hstep, hanswer⟩ := perform_bind_eq_ok.mp hrun
    cases hanswer
    obtain ⟨v, hv, hlint⟩ := hends _ _ _ hstep
    have hsame : v.timers = s.timers := hv
    cases hlint
    rw [← hsame]
  cases method with
  | didOpen => exact ⟨true, rfl, hlast (didOpen_endsIn huri) h⟩
  | didChange => exact ⟨false, rfl, hlast (didChange_endsIn huri) h⟩
  | didSave =>
    obtain ⟨_, t, hparam, hrest⟩ := perform_bind_eq_ok.mp h
    rw [perform_uriParam huri] at hparam
    cases hparam
    exact ⟨true, rfl, hlast (EndsIn.rest _) hrest⟩
  | _ => exact nomatch hmethod

end Service

/-! ## Expiry -/

/-- The service once a timer is gone, with the URI that it was for. -/
def Server.timeUp (s : Server) (number : Nat) (uri : Option String) : Server :=
  { s with timers := s.timers.finish number uri }

namespace Service

open EditorService.Server

theorem perform_expire_lint {s : Server} (hs : s.Timed) {number : Nat} {uri : String} {saved : Bool}
    (h : Table.get? s.timers.armed number = some (.lint uri saved)) :
    (expire number).perform s = (lintNow uri saved).perform (s.timeUp number (some uri)) := by
  have hrelease : (s.timers.stop number).release? uri = some (s.timers.finish number (some uri)) :=
    Clock.release?_stop hs h rfl
  simp only [expire, perform_bind, perform_get, h, perform_modify, goOff, releaseTimer, hrelease]
  rfl

theorem perform_expire_watch {s : Server} {number : Nat} {pid : Value}
    (h : Table.get? s.timers.armed number = some (.watch pid)) :
    (expire number).perform s = (watchParent pid).perform (s.timeUp number none) := by
  simp only [expire, perform_bind, perform_get, h, perform_modify, goOff]
  rfl

theorem perform_expire_none {s : Server} {number : Nat} (h : Table.get? s.timers.armed number = none) :
    (expire number).perform s = (.ok (), s) := by
  simp only [expire, perform_bind, perform_get, h]
  rfl

theorem keeps_lintNow (uri : String) (saved : Bool) : Keeps Server.timers (lintNow uri saved) :=
  moves_lintNow (fun _ _ => rfl) uri saved

end Service

namespace Server

/-- **From one state to a later one**, between which a timer has expired. -/
structure Expired (number : Nat) (s t : Server) : Prop where
  timed : t.Timed
  waiting : ∀ uri, Table.get? t.timers.waiting uri =
    if Table.get? s.timers.waiting uri = some number then none else Table.get? s.timers.waiting uri
  action : ∀ uri, t.timers.action? uri =
    if Table.get? s.timers.waiting uri = some number then none else s.timers.action? uri

/-- A URI waits for a timer exactly if the timer is for it. -/
theorem Timed.waits_iff {s : Server} (hs : s.Timed) {number : Nat} {timer : Timer}
    (h : Table.get? s.timers.armed number = some timer) (uri : String) :
    Table.get? s.timers.waiting uri = some number ↔ timer.uri? = some uri := by
  constructor
  · intro hwaits
    obtain ⟨t, ht, huri⟩ := hs.armed hwaits
    cases h.symm.trans ht
    exact huri
  · exact hs.awaited h

/-- The timers after an expiry, as far as the timer itself goes. -/
theorem expired_finish {s t : Server} (hs : s.Timed) {number : Nat} {timer : Timer}
    (h : Table.get? s.timers.armed number = some timer) (ht : t.timers = s.timers.finish number timer.uri?) :
    Expired number s t where
  timed := by
    rw [Timed, ht]
    exact hs.finish h
  waiting uri := by
    rw [ht, Clock.waiting_finish]
    simp only [hs.waits_iff h]
  action uri := by
    rw [ht, Clock.action?_finish hs h]
    simp only [hs.waits_iff h]

theorem Expired.trans_asked {number : Nat} {s t u : Server} (hst : Expired number s t) (htu : Asked none t u) :
    Expired number s u where
  timed := htu.timed
  waiting uri := by
    rcases htu.each uri with ⟨hwaiting, -⟩ | ⟨_, _, hflag, -⟩
    · rw [hwaiting, hst.waiting]
    · cases hflag
  action uri := by
    rcases htu.each uri with ⟨-, haction⟩ | ⟨_, _, hflag, -⟩
    · rw [haction, hst.action]
    · cases hflag

end Server

namespace Service

open EditorService.Server

/-- **What the expiry of a timer does to the timers.** -/
theorem expired_expire {s : Server} (hs : s.Timed) (number : Nat) :
    Expired number s ((expire number).perform s).2 := by
  cases h : Table.get? s.timers.armed number with
  | none =>
    have hnot : ∀ uri, Table.get? s.timers.waiting uri ≠ some number := by
      intro uri hwaits
      obtain ⟨t, ht, -⟩ := hs.armed hwaits
      rw [h] at ht
      cases ht
    rw [perform_expire_none h]
    exact ⟨hs, fun uri => (if_neg (hnot uri)).symm, fun uri => (if_neg (hnot uri)).symm⟩
  | some timer =>
    cases timer with
    | lint uri saved =>
      rw [perform_expire_lint hs h]
      exact expired_finish hs h (keeps_lintNow uri saved _)
    | watch pid =>
      rw [perform_expire_watch h]
      have hfinish : Expired number s (s.timeUp number none) := expired_finish hs h rfl
      exact hfinish.trans_asked (asks_watchParent none pid _ hfinish.timed)

end Service

/-! ## Linting -/

/-- **What the plugins find**: the items of all their answers, and what is left on the bench. -/
def Question.findings (q : Question) (b : Bench) : Except Fault Value × Bench :=
  ((q.ask.perform b).1.bind flattened, (q.ask.perform b).2)

namespace Server

/-- **The question that linting asks** about an open document. Nothing is shown of a document at the empty URI. -/
def lintQuestion? (s : Server) (uri : String) (saved : Bool) : Option Question := do
  let workspace ← s.workspaceOf? uri
  let d ← workspace.open? uri
  let config ← s.ownConfig?
  return {
    hook := .lint
    config
    workspace
    workspaceConfig := s.configAt? workspace.config
    document := if uri = "" then none else some (s.documentView d)
    arguments := [("is_saved", .bool saved)] }

/-- An equipped service has a question about every open document. -/
theorem isSome_lintQuestion? {s : Server} (hs : s.Equipped) (uri : String) (saved : Bool) :
    (s.lintQuestion? uri saved).isSome = (s.held? uri).isSome := by
  obtain ⟨c, hc⟩ := Option.isSome_iff_exists.mp hs.own
  rw [lintQuestion?, held?, hc]
  cases s.workspaceOf? uri with
  | none => rfl
  | some w =>
    show (w.open? uri >>= _).isSome = (w.open? uri).isSome
    cases w.open? uri with
    | none => rfl
    | some d => rfl

/-- The question says whether the document was saved. -/
theorem argument_lintQuestion? {s : Server} {uri : String} {saved : Bool} {q : Question}
    (h : s.lintQuestion? uri saved = some q) : q.argument "is_saved" = .bool saved := by
  obtain ⟨w, -, h⟩ := Option.bind_eq_some_iff.mp h
  obtain ⟨d, -, h⟩ := Option.bind_eq_some_iff.mp h
  obtain ⟨c, -, h⟩ := Option.bind_eq_some_iff.mp h
  cases h
  rfl

end Server

namespace Service

open EditorService.Server

theorem perform_askPlugins_open {s : Server} {uri : String} {w : Workspace} {d : Document} {config : Config}
    (hw : s.workspaceOf? uri = some w) (hd : w.open? uri = some d) (hconfig : s.ownConfig? = some config) (hook : Hook)
    (arguments : List (String × Value)) :
    (askPlugins hook (some uri) arguments).perform s =
      (job (Question.ask {
        hook, config, workspace := w, workspaceConfig := s.configAt? w.config
        document := if uri = "" then none else some (s.documentView d), arguments })).perform s := by
  have hdocument : w.document s.bench.host uri = .ok d := by rw [Workspace.document, hd]
  by_cases huri : uri = ""
  · subst huri
    simp only [askPlugins, perform_bind, perform_get, perform_pure, hw, hconfig, perform_present_some, if_true]
  · simp only [askPlugins, perform_bind, perform_get, perform_pure, hw, hconfig, perform_present_some, perform_ofExcept,
      hdocument, if_neg huri]

/-- **An open document is linted**: the plugins are asked, and what they find is published. -/
theorem perform_lintNow_open {s : Server} {uri : String} {saved : Bool} {q : Question}
    (h : s.lintQuestion? uri saved = some q) :
    (lintNow uri saved).perform s =
      match q.findings s.bench with
      | (.ok found, bench) =>
        (.ok (), { s with bench, sent := s.sent ++ [.publishDiagnostics (.str uri) found] })
      | (.error f, bench) => (.error f, { s with bench }) := by
  obtain ⟨w, hw, h⟩ := Option.bind_eq_some_iff.mp h
  obtain ⟨d, hd, h⟩ := Option.bind_eq_some_iff.mp h
  obtain ⟨config, hconfig, h⟩ := Option.bind_eq_some_iff.mp h
  cases h
  have hhas : Table.has w.documents uri = true := by
    rw [Table.has, show Table.get? w.documents uri = some d from hd]
    rfl
  simp only [lintNow, askForAll, perform_bind, perform_get, hw, perform_present_some, hhas, if_true,
    perform_askPlugins_open hw hd hconfig, perform_job, Question.findings]
  rcases (Question.ask _).perform s.bench with ⟨r, bench⟩
  cases r with
  | error f => rfl
  | ok answers =>
    simp only [perform_ofExcept, Except.bind]
    cases flattened answers with
    | error f => rfl
    | ok found => rfl

/-- A document that is not open any more is not linted. -/
theorem perform_lintNow_closed {s : Server} (hs : s.layout.Sound) {uri : String} (h : s.held? uri = none)
    (saved : Bool) : (lintNow uri saved).perform s = (.ok (), s) := by
  obtain ⟨id, w, -, -, -, -, hw⟩ := workspace_of_uri hs uri
  rw [held?, hw, Option.bind_some] at h
  have hhas : Table.has w.documents uri = false := by
    rw [Table.has, show Table.get? w.documents uri = none from h]
    rfl
  simp only [lintNow, perform_bind, perform_get, hw, perform_present_some, hhas]
  rfl

end Service

namespace Client

open EditorService.Service
open EditorService.Server

variable {s : Server}

/-- **What a message does to the timers.** -/
theorem asked_serve (hs : s.Timed) (host : Host) (method : Method) (params : Params) :
    Asked method.lintsAs? s ((Turn.message host method params).serve s).2 := by
  have hunder : Asked method.lintsAs? s (s.under host) := asked_of_timers hs rfl
  exact hunder.trans (Moves.bind (asks_handle method params) (fun _ => Moves.pure _) (s.under host) hunder.timed)

/-- **What an expiry does to the timers.** -/
theorem expired_serve (hs : s.Timed) (host : Host) (number : Nat) :
    Expired number s ((Turn.expiry host number).serve s).2 := by
  have hexpired : Expired number (s.under host) ((Turn.expiry host number).serve s).2 :=
    expired_expire (s := s.under host) hs number
  exact ⟨hexpired.timed, hexpired.waiting, hexpired.action⟩

/-- **The timer of an open document expires**: the plugins are asked, and what they find is published. -/
theorem serve_expiry_open (hs : s.Timed) {host : Host} {number : Nat} {uri : String} {saved : Bool} {q : Question}
    (harmed : Table.get? s.timers.armed number = some (.lint uri saved))
    (hq : (s.under host).lintQuestion? uri saved = some q) :
    (Turn.expiry host number).serve s =
      match q.findings (s.under host).bench with
      | (.ok found, bench) =>
        (.ok (), { s.timeUp number (some uri) with bench, sent := s.sent ++ [.publishDiagnostics (.str uri) found] })
      | (.error f, bench) => (.error f, { s.timeUp number (some uri) with bench }) := by
  have hserve : (Turn.expiry host number).serve s = _ := perform_expire_lint (s := s.under host) hs harmed
  have hquestion : ((s.under host).timeUp number (some uri)).lintQuestion? uri saved = some q := hq
  rw [hserve, perform_lintNow_open hquestion]
  rfl

/-- The timer of a document that was closed expires: nothing is asked and nothing is published. -/
theorem serve_expiry_closed (hs : s.Timed) (hsound : s.layout.Sound) {number : Nat} {uri : String} {saved : Bool}
    (harmed : Table.get? s.timers.armed number = some (.lint uri saved)) (hclosed : s.held? uri = none) (host : Host) :
    (Turn.expiry host number).serve s = (.ok (), (s.under host).timeUp number (some uri)) := by
  have hserve : (Turn.expiry host number).serve s = _ := perform_expire_lint (s := s.under host) hs harmed
  have hnone : ((s.under host).timeUp number (some uri)).held? uri = none := hclosed
  rw [hserve]
  exact perform_lintNow_closed (s := (s.under host).timeUp number (some uri)) hsound hnone saved

theorem timed_serve (hs : s.Timed) (turn : Turn) : (turn.serve s).2.Timed := by
  cases turn with
  | message host method params => exact (asked_serve hs host method params).timed
  | expiry host number => exact (expired_serve hs host number).timed

theorem timed_afterTurns (hs : s.Timed) (run : List Turn) : (afterTurns s run).Timed := by
  induction run generalizing s with
  | nil => exact hs
  | cons turn rest ih => exact ih (timed_serve hs turn)

/-- **After the start the timers are sound**, and no URI waits for any. -/
theorem Started.timed (h : Started s) : s.Timed ∧ ∀ uri, Table.get? s.timers.waiting uri = none := by
  obtain ⟨-, plugins, sources, watchesParent, bench, params, rfl⟩ := h
  have hasked := asks_handle .start params { plugins, sources, watchesParent, bench } Clock.sound_empty
  refine ⟨hasked.timed, fun uri => ?_⟩
  rcases hasked.each uri with ⟨hwaiting, -⟩ | ⟨_, _, hflag, -⟩
  · rw [hwaiting]
    rfl
  · cases hflag

end Client

end EditorService
