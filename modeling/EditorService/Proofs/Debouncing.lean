import EditorService.Proofs.Jobs
import EditorService.Proofs.Linting
import EditorService.Proofs.RootFolder

/-!
# What is left of requests that wait together

Requests to lint a document come from many messages. While the URI waits for its timer, each new request takes the place
of the one before, and in the end one of them is carried out. `collapsed` has the flags of the requests that wait
together: those since the last time that the timer of the URI expired.

**The law** (`collapsed_requests_lint_as_last`): when the timer expires, the plugins are asked with the flag of the last
request. A save counts as one only if no other request follows it. So a save that is followed by a change, by new
settings or by a change of other files is linted as if there had been no save, and the linter pylint, which does
nothing for a document that was not saved, repeats what it found before.
-/

namespace EditorService

/-! ## The linter that looks at saved documents only -/

namespace Lint.Pylint

/-- The request to the linter for the file of a document. -/
def call (platform path options : String) : Value :=
  .dict [("fn", .str "pylint.py_run"), ("command", .str (commandPath platform path ++ " -f json " ++ options))]

/-- **A document that was saved is linted anew.** -/
theorem calls_lintFile_saved (v : DocumentView) (options : String) (b : Bench) :
    ((lintFile v true options).perform b).2.calls =
      b.calls ++ [call b.host.platform v.document.path options] := by
  simp only [lintFile, Bool.not_true, Bool.false_eq_true, if_false]
  simp only [Job.perform_bind, Job.perform_host, Job.perform_note, Job.perform_ofExcept]
  -- From here on nothing is asked: the output is read, and what was found is kept.
  cases b.host.answers.pylint.inProcess with
  | error f => rfl
  | ok output =>
    dsimp only
    split
    · rfl
    · split
      · rfl
      · rw [Job.perform_bind, Job.perform_ofExcept]
        split
        · next hread =>
          cases (Prod.mk.inj hread).2
          rfl
        · next hread =>
          cases (Prod.mk.inj hread).2
          rfl

/-- **For a document that was not saved** what was found before is repeated, and nothing is asked. -/
theorem perform_lintFile_unsaved (v : DocumentView) (options : String) (b : Bench) :
    (lintFile v false options).perform b = (.ok ((Table.get? b.reports v.document.path).getD []), b) := rfl

end Lint.Pylint

namespace Client

open EditorService.Service
open EditorService.Server

/-! ## Requests that wait together -/

/-- The flags of the requests for a URI that wait together, after one more turn. A message adds a request when the URI
waits for another timer after it. When the timer of the URI expires, none is left. -/
def collapse (uri : String) (s : Server) (flags : List Bool) (turn : Turn) : List Bool :=
  match turn with
  | .message _ method _ =>
    if Table.get? (turn.serve s).2.timers.waiting uri = Table.get? s.timers.waiting uri then flags
    else flags ++ method.lintsAs?.toList
  | .expiry _ number => if Table.get? s.timers.waiting uri = some number then [] else flags

/-- The same after a run. -/
def collapsedFrom (uri : String) (s : Server) (flags : List Bool) : List Turn → List Bool
  | [] => flags
  | turn :: rest => collapsedFrom uri (turn.serve s).2 (collapse uri s flags turn) rest

/-- **The requests for a URI that wait together** after a run: their flags, in order. -/
def collapsed (uri : String) (s : Server) (run : List Turn) : List Bool := collapsedFrom uri s [] run

variable {s : Server} {uri : String} {flags : List Bool}

theorem collapsedFrom_append (uri : String) (s : Server) (flags : List Bool) (run more : List Turn) :
    collapsedFrom uri s flags (run ++ more) =
      collapsedFrom uri (afterTurns s run) (collapsedFrom uri s flags run) more := by
  induction run generalizing s flags with
  | nil => rfl
  | cons turn rest ih => exact ih _ _

/-- A timer that is still to be started is not the one that a URI waits for. -/
theorem waits_ne_of_next_le (hs : s.Timed) {number : Nat} (h : s.timers.next ≤ number) :
    Table.get? s.timers.waiting uri ≠ some number := by
  intro hwaits
  obtain ⟨t, ht, -⟩ := hs.armed hwaits
  exact absurd (hs.fresh ht) (Nat.not_lt.mpr h)

/-- **One turn**: the URI waits for a timer with the flag of the last request. -/
theorem action?_serve (hs : s.Timed) (h : s.timers.action? uri = flags.getLast?.map (Timer.lint uri)) (turn : Turn) :
    (turn.serve s).2.timers.action? uri = (collapse uri s flags turn).getLast?.map (Timer.lint uri) := by
  cases turn with
  | message host method params =>
    rw [collapse]
    rcases (asked_serve hs host method params).each uri with
      ⟨hwaiting, haction⟩ | ⟨number, saved, hflag, hnumber, hwaiting, haction⟩
    · rw [if_pos hwaiting, haction, h]
    · rw [if_neg, haction, hflag]
      · simp
      · rw [hwaiting]
        exact (waits_ne_of_next_le hs hnumber).symm
  | expiry host number =>
    rw [collapse, (expired_serve hs host number).action]
    split
    · rfl
    · exact h

theorem action?_afterTurns (hs : s.Timed) (h : s.timers.action? uri = flags.getLast?.map (Timer.lint uri))
    (run : List Turn) :
    (afterTurns s run).timers.action? uri = (collapsedFrom uri s flags run).getLast?.map (Timer.lint uri) := by
  induction run generalizing s flags with
  | nil => exact h
  | cons turn rest ih => exact ih (timed_serve hs turn) (action?_serve hs h turn)

/-- **A message that opens, saves or changes a document is a request**, with the flag of its method. -/
theorem collapse_request (hs : s.Timed) (flags : List Bool) (host : Host) {method : Method}
    (hmethod : method.lintsOne = true) {params : Params} (huri : (documentParam params).item "uri" = .ok (.str uri))
    (hok : ((Turn.message host method params).serve s).1 = .ok ()) :
    collapse uri s flags (.message host method params) = flags ++ method.lintsAs?.toList := by
  have hserve : (Turn.message host method params).serve s = (.ok (), ((Turn.message host method params).serve s).2) :=
    Prod.ext hok rfl
  obtain ⟨r, t, hhandle, hanswer⟩ := perform_bind_eq_ok.mp hserve
  obtain ⟨saved, -, htimers⟩ := handle_requests hmethod huri hhandle
  have hafter : ((Turn.message host method params).serve s).2.timers = s.timers.request uri (.lint uri saved) := by
    rw [← (Prod.mk.inj hanswer).2]
    exact htimers
  rw [collapse, hafter, Clock.waiting_request, if_pos rfl, if_neg]
  exact (waits_ne_of_next_le hs (Nat.le_refl _)).symm

/-- **Requests that wait together are carried out as the last of them.** After the start and any turns, a message that
opens, saves or changes a document is one more request for it. When the timer of its URI expires, an open document is
linted with the flag of the last request that waited. And pylint is run again exactly if this flag says that the
document was saved. -/
theorem collapsed_requests_lint_as_last {s₀ : Server} (hstart : Started s₀) {run : List Turn}
    (hrun : ∀ turn ∈ run, turn.method? ≠ some .start) (uri : String) :
    let s := afterTurns s₀ run
    (∀ host method params, method.lintsOne = true → (documentParam params).item "uri" = .ok (.str uri) →
      ((Turn.message host method params).serve s).1 = .ok () →
      collapsed uri s₀ (run ++ [.message host method params]) = collapsed uri s₀ run ++ method.lintsAs?.toList) ∧
    ∀ host number, Table.get? s.timers.waiting uri = some number →
      ∃ saved, (collapsed uri s₀ run).getLast? = some saved ∧
        ((s.held? uri).isSome → ∃ q, (s.under host).lintQuestion? uri saved = some q ∧
          q.argument "is_saved" = .bool saved ∧
          ((Turn.expiry host number).serve s).2.bench = (q.ask.perform (s.under host).bench).2) ∧
        ∀ v options b,
          if saved then
            ((Lint.Pylint.lintFile v saved options).perform b).2.calls =
              b.calls ++ [Lint.Pylint.call b.host.platform v.document.path options]
          else
            (Lint.Pylint.lintFile v saved options).perform b =
              (.ok ((Table.get? b.reports v.document.path).getD []), b) := by
  intro s
  obtain ⟨htimed₀, hnothing⟩ := hstart.timed
  have htimed : s.Timed := timed_afterTurns htimed₀ run
  have hequipped : s.Equipped := equipped_afterTurns (fromFirst_equipped.of_started hstart) hrun
  have haction : s.timers.action? uri = (collapsed uri s₀ run).getLast?.map (Timer.lint uri) :=
    action?_afterTurns htimed₀ (htimed₀.action?_eq_none.mpr (hnothing uri)) run
  refine ⟨fun host method params hmethod huri hok => ?_, fun host number hdue => ?_⟩
  · rw [collapsed, collapsedFrom_append]
    exact collapse_request htimed _ host hmethod huri hok
  · obtain ⟨timer, harmed, -⟩ := htimed.armed hdue
    rw [Clock.action?, hdue, Option.bind_some, harmed] at haction
    obtain ⟨saved, hlast, rfl⟩ := Option.map_eq_some_iff.mp haction.symm
    refine ⟨saved, hlast, fun hopen => ?_, fun v options b => ?_⟩
    · have hhost := hequipped.of_steady (steady_under s host)
      obtain ⟨q, hq⟩ := Option.isSome_iff_exists.mp ((isSome_lintQuestion? hhost uri saved).trans hopen)
      refine ⟨q, hq, argument_lintQuestion? hq, ?_⟩
      rw [serve_expiry_open htimed harmed hq, Question.findings]
      split
      · next hfound => exact (Prod.mk.inj hfound).2.symm
      · next hfault => exact (Prod.mk.inj hfault).2.symm
    · cases saved with
      | true => exact Lint.Pylint.calls_lintFile_saved v options b
      | false => exact Lint.Pylint.perform_lintFile_unsaved v options b

/-- A document is opened and linted. Then it is saved, and another file changes on disk before the timer expires. -/
def savedBesideAnother : List Turn :=
  let opening := Notice.opening {} "file:///ws/a.py" "x" (.int 1)
  [.message {} .didOpen opening.params, .expiry {} 0, .message {} .didSave opening.params,
    .message {} .didChangeFiles [("changes", .list [.dict [("uri", .str "file:///ws/b.py")]])]]

/-- The save is lost: two requests waited together, the first of them a save, and the plugins are told that the
document was not saved. -/
theorem collapsed_requests_lint_as_last_saved_beside_another :
    Started (startedAt "file:///ws") ∧ (∀ turn ∈ savedBesideAnother, turn.method? ≠ some .start) ∧
      collapsed "file:///ws/a.py" (startedAt "file:///ws") savedBesideAnother = [true, false] ∧
      Table.get? (afterTurns (startedAt "file:///ws") savedBesideAnother).timers.waiting "file:///ws/a.py" = some 2 ∧
      ∃ q, ((afterTurns (startedAt "file:///ws") savedBesideAnother).under {}).lintQuestion? "file:///ws/a.py" false =
          some q ∧
        q.argument "is_saved" = .bool false := by
  have hstart : Started (startedAt "file:///ws") := started_startedAt (by decide +kernel)
  have hrun : ∀ turn ∈ savedBesideAnother, turn.method? ≠ some .start := by decide
  have hflags : collapsed "file:///ws/a.py" (startedAt "file:///ws") savedBesideAnother = [true, false] := by
    decide +kernel
  have hdue : Table.get? (afterTurns (startedAt "file:///ws") savedBesideAnother).timers.waiting "file:///ws/a.py" =
      some 2 := by decide +kernel
  obtain ⟨-, hexpiry⟩ := collapsed_requests_lint_as_last hstart hrun "file:///ws/a.py"
  obtain ⟨saved, hlast, hasked, -⟩ := hexpiry {} 2 hdue
  rw [hflags] at hlast
  cases hlast
  obtain ⟨q, hq, hargument, -⟩ := hasked (by decide +kernel)
  exact ⟨hstart, hrun, hflags, hdue, q, hq, hargument⟩

end Client

end EditorService
