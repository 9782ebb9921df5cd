import EditorService.Proofs.Debouncing

/-!
# What pylint found last in a file

Pylint on the file of a document looks at the disk, so it is run only when the document has been saved. What it finds is
kept under the path of the file, and is repeated as long as the document is not saved again.

A `Call` is one use of the linter, with the surroundings at that moment: pylint may fail, its output may be different each
time, and need not be a report at all. `answers` has the calls of a history with what they answered, and
`lastReport? path` looks in it for the last call that pylint was run for and that did not end in a fault.

**The law** (`unsaved_repeats_last_report`): without a save this report is the answer, and pylint is not run. A call that
ends in a fault leaves all that is kept as it was, also when the fault is in the middle of the report. And what is kept
for a path is the same when the calls for other paths are left out.
-/

namespace EditorService.Lint.Pylint

/-- **A call of the linter** for the file of a document. -/
structure Call where
  host : Host := {}
  view : DocumentView
  saved : Bool
  flags : String := ""

namespace Call

/-- The path that the call's diagnostics are kept under. -/
def path (c : Call) : String := c.view.document.path

/-- What the call answers, and the bench that it leaves. -/
def run (c : Call) (b : Bench) : Except Fault (List Diagnostic) × Bench :=
  (lintFile c.view c.saved c.flags).perform { b with host := c.host }

/-- **What an output of pylint says**: nothing at all, or a report. -/
def readingOf (c : Call) (output : String) : Except Fault (List Diagnostic) :=
  if (Text.trim output.toList).isEmpty then .ok []
  else
    match Value.parse? output with
    | none => .error .badJson
    | some report => do reportDiagnostics (c.view.document.lines c.host.files) none (← report.elements)

/-- **What pylint says**, if it prints anything at all. -/
def reading (c : Call) : Except Fault (List Diagnostic) := do c.readingOf (← c.host.answers.pylint.inProcess)

/-- The reports after a call with an outcome. -/
def keep (c : Call) (reports : Table String (List Diagnostic)) :
    Except Fault (List Diagnostic) → Table String (List Diagnostic)
  | .ok found => Table.put reports c.path found
  | .error _ => reports

theorem run_unsaved {c : Call} (h : c.saved = false) (b : Bench) :
    c.run b = (.ok ((Table.get? b.reports c.path).getD []), { b with host := c.host }) := by
  rw [run, h]
  exact perform_lintFile_unsaved c.view c.flags _

/-- **All that a call does for a document that was saved**: it asks pylint once, it answers what the output says, and
the answer is kept. Nothing of this depends on what was kept before. -/
theorem run_saved {c : Call} (h : c.saved = true) (b : Bench) :
    c.run b =
      (c.reading, { b with
        host := c.host
        calls := b.calls ++ [call c.host.platform c.path c.flags]
        reports := c.keep b.reports c.reading }) := by
  simp only [run, h, lintFile, Bool.not_true, Bool.false_eq_true, if_false]
  simp only [Job.perform_bind, Job.perform_host, Job.perform_note, Job.perform_ofExcept]
  -- The exits of the job are those of the reading, one by one.
  cases hprinted : c.host.answers.pylint.inProcess with
  | error f =>
    rw [show c.reading = .error f by rw [reading, hprinted]; rfl]
    rfl
  | ok output =>
    rw [show c.reading = c.readingOf output by rw [reading, hprinted]; rfl]
    simp only [readingOf]
    split
    · rfl
    · cases Value.parse? output with
      | none => rfl
      | some report =>
        dsimp only
        rw [Job.perform_bind, Job.perform_ofExcept]
        generalize (report.elements >>= _ : Except Fault (List Diagnostic)) = outcome
        cases outcome with
        | ok found => rfl
        | error f => rfl

end Call

/-! ## Histories -/

/-- The bench after the calls of a history. -/
def after (b : Bench) (history : List Call) : Bench := history.foldl (fun b c => (c.run b).2) b

/-- **The calls of a history with what they answered.** -/
def answers (b : Bench) : List Call → List (Call × Except Fault (List Diagnostic))
  | [] => []
  | c :: rest => (c, (c.run b).1) :: answers (c.run b).2 rest

/-- The report on a file that an answered call leaves behind: it was for the file, the document was saved, and there was
no fault. -/
def report? (path : String) (answered : Call × Except Fault (List Diagnostic)) : Option (List Diagnostic) :=
  if answered.1.saved = true ∧ answered.1.path = path then answered.2.toOption else none

/-- **The last report on a file.** -/
def lastReport? (path : String) (answered : List (Call × Except Fault (List Diagnostic))) : Option (List Diagnostic) :=
  answered.reverse.findSome? (report? path)

theorem lastReport?_cons (path : String) (first : Call × Except Fault (List Diagnostic))
    (rest : List (Call × Except Fault (List Diagnostic))) :
    lastReport? path (first :: rest) = (lastReport? path rest).or (report? path first) := by
  simp [lastReport?, List.findSome?_append]

theorem get?_keep (c : Call) (reports : Table String (List Diagnostic)) (outcome : Except Fault (List Diagnostic))
    (path : String) :
    Table.get? (c.keep reports outcome) path =
      (if c.path = path then outcome.toOption else none).or (Table.get? reports path) := by
  cases outcome with
  | ok found =>
    rw [Call.keep, Table.get?_put]
    by_cases h : c.path = path
    · rw [if_pos h, if_pos h.symm]
      rfl
    · rw [if_neg h, if_neg (Ne.symm h)]
      rfl
  | error f => simp [Call.keep, Except.toOption]

/-- **One call**: a path has the report of the call, or else the one from before. -/
theorem get?_reports_run (c : Call) (b : Bench) (path : String) :
    Table.get? (c.run b).2.reports path = (report? path (c, (c.run b).1)).or (Table.get? b.reports path) := by
  cases h : c.saved with
  | true =>
    simp only [Call.run_saved h, report?, h, true_and]
    exact get?_keep c b.reports c.reading path
  | false =>
    simp only [Call.run_unsaved h, report?, h, Bool.false_eq_true, false_and, if_false, Option.none_or]

/-- **All calls of a history**: a path has the last report on it. -/
theorem get?_reports_after (b : Bench) (history : List Call) (path : String) :
    Table.get? (after b history).reports path =
      (lastReport? path (answers b history)).or (Table.get? b.reports path) := by
  induction history generalizing b with
  | nil => rfl
  | cons c rest ih =>
    rw [answers, lastReport?_cons, Option.or_assoc, ← get?_reports_run]
    exact ih (c.run b).2

/-- A call for another path keeps no report on this one. -/
theorem get?_reports_run_of_ne {c : Call} {path : String} (h : c.path ≠ path) (b : Bench) :
    Table.get? (c.run b).2.reports path = Table.get? b.reports path := by
  rw [get?_reports_run, report?, if_neg (fun hmine => h hmine.2), Option.none_or]

/-- What is kept for a path after a call depends only on what was kept for it before. -/
theorem get?_reports_run_congr (c : Call) {b m : Bench} {path : String}
    (h : Table.get? b.reports path = Table.get? m.reports path) :
    Table.get? (c.run b).2.reports path = Table.get? (c.run m).2.reports path := by
  cases hsaved : c.saved with
  | true => simp only [Call.run_saved hsaved, get?_keep, h]
  | false => simpa only [Call.run_unsaved hsaved] using h

/-- **The calls for other paths can be left out.** -/
theorem get?_reports_after_filter {path : String} (history : List Call) {b m : Bench}
    (h : Table.get? b.reports path = Table.get? m.reports path) :
    Table.get? (after b (history.filter (·.path = path))).reports path = Table.get? (after m history).reports path := by
  induction history generalizing b m with
  | nil => exact h
  | cons c rest ih =>
    by_cases hpath : c.path = path
    · rw [List.filter_cons_of_pos (by simpa using hpath)]
      exact ih (get?_reports_run_congr c h)
    · rw [List.filter_cons_of_neg (by simpa using hpath)]
      exact ih (h.trans (get?_reports_run_of_ne hpath m).symm)

theorem reports_run_of_fault {c : Call} {b : Bench} {f : Fault} (h : (c.run b).1 = .error f) :
    (c.run b).2.reports = b.reports := by
  cases hsaved : c.saved with
  | true =>
    rw [Call.run_saved hsaved] at h ⊢
    have hreading : c.reading = .error f := h
    simp only [hreading, Call.keep]
  | false => rw [Call.run_unsaved hsaved]

/-- **Without a save the last report is repeated.** After any calls, whatever pylint printed for them:

* a call for a document that was not saved answers the last report on its path, or nothing if there is none; it asks
  nothing, and leaves the bench as it was;
* a call for a document that was saved asks pylint once and answers what the output says;
* a call that ends in a fault leaves every path's report as it was;
* and the report on a path is the one that the calls for this path alone would leave. -/
theorem unsaved_repeats_last_report {b : Bench} (hempty : b.reports = []) (history : List Call) :
    let now := after b history
    (∀ c : Call, c.saved = false →
      c.run now = (.ok ((lastReport? c.path (answers b history)).getD []), { now with host := c.host })) ∧
    (∀ c : Call, c.saved = true →
      (c.run now).1 = c.reading ∧ (c.run now).2.calls = now.calls ++ [call c.host.platform c.path c.flags]) ∧
    (∀ (c : Call) f, (c.run now).1 = .error f → (c.run now).2.reports = now.reports) ∧
    ∀ path, Table.get? (after b (history.filter (·.path = path))).reports path = Table.get? now.reports path := by
  intro now
  refine ⟨fun c hsaved => ?_, fun c hsaved => ?_, fun c f hfault => reports_run_of_fault hfault,
    fun path => get?_reports_after_filter history rfl⟩
  · have hkept : Table.get? now.reports c.path = lastReport? c.path (answers b history) := by
      rw [get?_reports_after, hempty, Table.get?_nil, Option.or_none]
    rw [Call.run_unsaved hsaved, hkept]
  · rw [Call.run_saved hsaved]
    exact ⟨rfl, rfl⟩

/-- A call for a document of one line. -/
def callFor (path : String) (saved : Bool) (output : Except Fault String) : Call where
  host := { answers := { pylint := { inProcess := output } } }
  view := {
    document := { uri := "file://" ++ path, path, dottedName := "", fileName := "", source := some "x=1\n", home := 0 }
    config := none
    rootPath := "/ws" }
  saved := saved

/-- A report with one entry. -/
def reported : Call :=
  callFor "/ws/a.py" true <| .ok
    ("[\x7b\"line\": 1, \"column\": 0, \"type\": \"error\", \"symbol\": \"s\", \"message\": \"m\", " ++
      "\"message-id\": \"E1\"\x7d]")

/-- A report, one with an entry that has no line, a text that is no report, options that pylint cannot split, and then a
file where nothing is found. -/
def linted : List Call :=
  [reported, callFor "/ws/a.py" true (.ok "[\x7b\x7d]"), callFor "/ws/a.py" true (.ok "Traceback"),
    callFor "/ws/a.py" true (.error (.tool .value "No closing quotation")), callFor "/ws/b.py" true (.ok "")]

/-- The three faults leave the report on the first file. -/
theorem unsaved_repeats_last_report_after_faults :
    (answers {} linted).map (fun answered => answered.2.toOption.map List.length) = [some 1, none, none, none, some 0] ∧
    ((callFor "/ws/a.py" false (.ok "")).run (after {} linted)).1 = reported.reading ∧
    ((callFor "/ws/b.py" false (.ok "")).run (after {} linted)).1 = .ok [] := by
  obtain ⟨hunsaved, -⟩ := unsaved_repeats_last_report (b := {}) rfl linted
  rw [hunsaved (callFor "/ws/a.py" false (.ok "")) rfl, hunsaved (callFor "/ws/b.py" false (.ok "")) rfl]
  decide +kernel

end EditorService.Lint.Pylint
