import EditorService.Plugin.Answer
import EditorService.Proofs.FileReports
import EditorService.Proofs.LinterOutput

/-!
# The reports of linters

Each of the linters has its own way to report what it found, and each report is made into diagnostics by code of its own.
`Report` has all the ways in which a report can come, and `diagnosed` what is made of it. `Made` says which reports a linter
makes when it is asked, by the settings and by what the linter finds.

**What is published** (`lint_publishes`): a linter that answers at all answers with the dictionaries of what its reports are
made into, one after the other. Two answers are not of this kind (`Silent`): none at all for a program that cannot be
compiled, and pylint's last answer for a document that was not saved.
-/

namespace EditorService.Lint

open EditorService.Protocol (Range Severity)

/-- **A report about a document**, from any of the linters. Those that run as processes report a line of output; the
linter pylint, run on the file, an entry of a list, behind one whose severity is known or none. -/
inductive Report where
  | complexity (threshold : Value) (function : Tool.Complexity)
  | documentation (finding : Tool.DocumentationError)
  | names (event : Tool.NameEvent)
  | style (rules : Tool.StyleReport) (line column : Int) (text : String)
  | output (linter : ProcessLinter) (text : List Char)
  | listed (before : Option Severity) (entry : Value)

namespace Report

/-- **What a report is made into.** -/
def diagnosed (lines : List (List Char)) : Report → Except Fault (List Diagnostic)
  | .complexity threshold function => (Complexity.diagnostic? (.ok lines) threshold function).map Option.toList
  | .documentation finding => .ok [Documentation.diagnostic lines finding]
  | .names event => (Names.diagnostic lines event).map fun d => [d]
  | .style rules line column text => (Style.diagnostic? rules lines line column text).map Option.toList
  | .output linter text => linter.parse lines text
  | .listed before entry => (Pylint.entryDiagnostic (.ok lines) before entry).map fun d => [d.1]

/-- **What reports are made into**, one after the other. -/
def allDiagnosed (lines : List (List Char)) (rs : List Report) : Except Fault (List Diagnostic) :=
  (rs.mapM (diagnosed lines)).map List.flatten

/-- The severity of an entry's kind. -/
def severityOf? (entry : Value) : Option Severity := (entry.item "type").toOption.bind Pylint.severityOfKind?

/-- **The entries of a list as reports**: each comes behind the severity that is known last before it. -/
def ofEntries (before : Option Severity) : List Value → List Report
  | [] => []
  | entry :: rest => .listed before entry :: ofEntries ((severityOf? entry).or before) rest

/-! ## Linter by linter -/

theorem mapM_map_eq {α β γ : Type} (step : α → Except Fault β) (g : β → γ) (xs : List α) :
    (xs.mapM fun x => (step x).map g) = (xs.mapM step).map (List.map g) := by
  induction xs with
  | nil => rfl
  | cons x rest ih =>
    rw [List.mapM_cons, List.mapM_cons, ih]
    cases step x with
    | error f => rfl
    | ok y => cases rest.mapM step <;> rfl

variable {lines : List (List Char)}

/-- **Reports of one kind**, each of which is one step: what they are made into is what the steps give. -/
theorem allDiagnosed_map {α β : Type} {report : α → Report} {step : α → Except Fault β} {shown : β → List Diagnostic}
    (h : ∀ x, (report x).diagnosed lines = (step x).map shown) (xs : List α) :
    allDiagnosed lines (xs.map report) = (xs.mapM step).map (List.flatMap shown) := by
  have hsteps : diagnosed lines ∘ report = fun x => (step x).map shown := funext h
  rw [allDiagnosed, List.mapM_map, hsteps, mapM_map_eq]
  cases xs.mapM step <;> rfl

/-- Reports that are passed over or shown. -/
theorem allDiagnosed_optional {α : Type} {report : α → Report} {step : α → Except Fault (Option Diagnostic)}
    (h : ∀ x, (report x).diagnosed lines = (step x).map Option.toList) (xs : List α) :
    allDiagnosed lines (xs.map report) = (do return (← xs.mapM step).filterMap fun d => d) := by
  rw [allDiagnosed_map h]
  have hshown : List.flatMap Option.toList = List.filterMap fun d : Option Diagnostic => d :=
    funext fun ds => (List.filterMap_eq_flatMap_toList _ ds).symm
  rw [hshown]
  cases xs.mapM step <;> rfl

/-- Reports that are all shown. -/
theorem allDiagnosed_each {α : Type} {report : α → Report} {step : α → Except Fault Diagnostic}
    (h : ∀ x, (report x).diagnosed lines = (step x).map fun d => [d]) (xs : List α) :
    allDiagnosed lines (xs.map report) = xs.mapM step := by
  rw [allDiagnosed_map h]
  cases xs.mapM step with
  | error f => rfl
  | ok ds => exact congrArg Except.ok (List.flatMap_singleton' ds)

/-- What a report is made into is part of what all are made into. -/
theorem diagnosed_of_mem {rs : List Report} {found : List Diagnostic} (h : allDiagnosed lines rs = .ok found) {r : Report}
    (hr : r ∈ rs) : ∃ shown, r.diagnosed lines = .ok shown ∧ shown ⊆ found := by
  obtain ⟨each, heach, rfl⟩ := Fault.map_eq_ok.mp h
  obtain ⟨hlength, hget⟩ := List.forall₂_iff_get.mp (Feature.mapM_eq_ok.mp heach)
  obtain ⟨i, hi, rfl⟩ := List.mem_iff_getElem.mp hr
  exact ⟨each[i], hget i hi (hlength ▸ hi), fun d hd => List.mem_flatten.mpr ⟨_, List.getElem_mem _, hd⟩⟩

theorem allDiagnosed_documentation (findings : List Tool.DocumentationError) :
    allDiagnosed lines (findings.map .documentation) = .ok (findings.map (Documentation.diagnostic lines)) := by
  have hshown : ∀ finding : Tool.DocumentationError, (Report.documentation finding).diagnosed lines =
      (pure (Documentation.diagnostic lines finding) : Except Fault Diagnostic).map fun d => [d] := fun _ => rfl
  rw [allDiagnosed_each hshown]
  exact List.mapM_pure

theorem allDiagnosed_output (l : ProcessLinter) (output : List Char) :
    allDiagnosed lines ((Text.bareLines output).map (.output l)) = l.parse lines output := by
  rw [l.parse_eq_mapM lines output, allDiagnosed, List.mapM_map]
  rfl

/-- The severity that an entry leaves to the next one. -/
theorem severity_of_entryDiagnostic {before : Option Severity} {entry : Value} {d : Diagnostic} {severity : Severity}
    (h : Pylint.entryDiagnostic (.ok lines) before entry = .ok (d, severity)) :
    (severityOf? entry).or before = some severity := by
  simp only [Pylint.entryDiagnostic, Fault.bind_eq_ok] at h
  obtain ⟨_, -, _, -, _, -, _, -, h⟩ := h
  -- Both lengths of a line lead to the same end.
  obtain ⟨kind, hkind, hknown⟩ : ∃ kind, entry.item "type" = .ok kind ∧
      (Pylint.severityOfKind? kind <|> before) = some severity := by
    split at h <;>
    · obtain ⟨_, -, h⟩ := Fault.bind_eq_ok.mp h
      simp only [Fault.bind_eq_ok] at h
      obtain ⟨kind, hkind, _, -, _, -, h⟩ := h
      refine ⟨kind, hkind, ?_⟩
      cases hknown : Pylint.severityOfKind? kind <|> before with
      | none =>
        rw [hknown] at h
        cases h
      | some known =>
        rw [hknown] at h
        obtain ⟨code, -, h⟩ := Fault.bind_eq_ok.mp h
        cases h
        rfl
  have hown : severityOf? entry = Pylint.severityOfKind? kind := by
    rw [severityOf?, hkind]
    rfl
  rw [hown, ← hknown]
  cases Pylint.severityOfKind? kind <;> rfl

theorem allDiagnosed_ofEntries (before : Option Severity) (entries : List Value) :
    allDiagnosed lines (ofEntries before entries) = Pylint.reportDiagnostics (.ok lines) before entries := by
  induction entries generalizing before with
  | nil => rfl
  | cons entry rest ih =>
    rw [ofEntries, Pylint.reportDiagnostics, allDiagnosed, List.mapM_cons, diagnosed]
    cases hentry : Pylint.entryDiagnostic (.ok lines) before entry with
    | error f => rfl
    | ok shown =>
      obtain ⟨d, severity⟩ := shown
      have hrest := ih (some severity)
      rw [severity_of_entryDiagnostic hentry]
      show ((((ofEntries (some severity) rest).mapM (diagnosed lines)) >>= fun ys => .ok ([d] :: ys)).map List.flatten) =
        (Pylint.reportDiagnostics (.ok lines) (some severity) rest >>= fun ds => .ok (d :: ds))
      rw [← hrest, allDiagnosed]
      cases (ofEntries (some severity) rest).mapM (diagnosed lines) <;> rfl

end Report

/-! ## What is published -/

section

open EditorService.Job (Keeps)
open EditorService.Feature (fixtures keeps_note keeps_reading)

variable {b : Bench} {lines : List (List Char)}

/-- Asking for settings leaves the rest alone. -/
theorem keeps_pluginSettings (c : Config) (plugin : String) (path : Option String) :
    Keeps (fun b => (b.host, b.checks, b.reports)) (Job.pluginSettings c plugin path) := by
  refine Keeps.bind (fun b => ?_) fun _ => (Keeps.ofExcept _).bind fun _ => Keeps.ofExcept _
  rw [Config.perform_settings]

@[simp] theorem host_pluginSettings (c : Config) (plugin : String) (path : Option String) (b : Bench) :
    ((Job.pluginSettings c plugin path).perform b).2.host = b.host :=
  congrArg Prod.fst (keeps_pluginSettings c plugin path b)

theorem keeps_runLinter (v : DocumentView) (report : Tool.ProcessReport) (program : Value) (module : String)
    (args : List Value) : Keeps fixtures (runLinter v report program module args) := by
  have hstart : ∀ program args, Keeps fixtures (startProgram report.missing program args) := by
    intro program args
    refine (keeps_note _ _).bind fun _ => ?_
    split
    · split
      · exact Keeps.throw _
      · exact Keeps.pure _
    · exact Keeps.pure _
  refine ((hstart _ _).tryCatch fun f => ?_).bind fun _ =>
    (keeps_reading v.document.text).bind fun _ => (keeps_note _ _).bind fun _ => Keeps.pure _
  split
  · exact hstart _ _
  · exact Keeps.throw _

@[simp] theorem host_runLinter (v : DocumentView) (report : Tool.ProcessReport) (program : Value) (module : String)
    (args : List Value) (b : Bench) : ((runLinter v report program module args).perform b).2.host = b.host :=
  congrArg Prod.fst (keeps_runLinter v report program module args b)

/-- A program that runs prints its output. -/
theorem runLinter_eq_ok {v : DocumentView} {report : Tool.ProcessReport} {program : Value} {module : String}
    {args : List Value} {output : String} (h : ((runLinter v report program module args).perform b).1 = .ok output) :
    output = report.output := by
  simp only [runLinter, Job.outcome_bind, Fault.bind_eq_ok] at h
  obtain ⟨_, -, _, -, _, -, h⟩ := h
  exact (Except.ok.inj h).symm

/-! ## What linters report -/

/-- A setting of a plugin, as it is at the moment of a question. -/
def settingOf (b : Bench) (q : Question) (plugin : String) (path : Option String) (key : String) (otherwise : Value) :
    Except Fault Value := do
  let settings ← ((Job.pluginSettings q.config plugin path).perform b).1
  settings.getD key otherwise

/-- Whether the settings have a file looked at by the documentation checker. -/
def looksAtFile (b : Bench) (q : Question) (path : String) : Except Fault Bool := do
  let names ← settingOf b q "pydocstyle" (some path) "match" (.str Documentation.defaultMatch)
  if !(← Documentation.matchesName names (Path.baseOf path)) then return false
  let directories ← settingOf b q "pydocstyle" (some path) "matchDir" (.str Documentation.defaultMatchDirectory)
  Documentation.matchesName directories (Path.baseOf (Path.directoryOf path))

/-- Whether the settings have pylint run as a process. -/
def runsPylint (b : Bench) (q : Question) : Except Fault Bool := do
  return (← settingOf b q "pylint" none "executable" .null).truthy

/-- **The reports that a linter makes** when it is asked about a document. The complexity checker goes by a threshold, the
documentation checker by the names of files, and pylint reports lines of output as a process, and otherwise the entries of a
list, if the document was saved. -/
inductive Made (b : Bench) (q : Question) (v : DocumentView) : BuiltIn → List Report → Prop
  | mccabe {threshold : Value} :
      settingOf b q "mccabe" (some v.document.path) "threshold" (.int Complexity.defaultThreshold) = .ok threshold →
      Made b q v .mccabe (b.host.answers.complexity.graphs.map (.complexity threshold))
  | pydocstyle : looksAtFile b q v.document.path = .ok true →
      Made b q v .pydocstyle (b.host.answers.documentation.files.flatMap fun file =>
        (b.host.answers.documentation.errors.filter fun e => file.codes.contains e.code).map .documentation)
  | unchecked : looksAtFile b q v.document.path = .ok false → Made b q v .pydocstyle []
  | pyflakes : Made b q v .pyflakes (b.host.answers.names.map .names)
  | pycodestyle : Made b q v .pycodestyle ((b.host.answers.style b.checks).errors.map fun e =>
      .style (b.host.answers.style b.checks) e.1 e.2.1 e.2.2)
  | flake8 : Made b q v .flake8 ((Text.bareLines b.host.answers.flake8.output.toList).map (.output .flake8))
  | pylint : runsPylint b q = .ok true →
      Made b q v .pylint ((Text.bareLines b.host.answers.pylint.output.toList).map (.output .pylint))
  | blank {output : String} : runsPylint b q = .ok false → (q.argument "is_saved").truthy = true →
      b.host.answers.pylint.inProcess = .ok output → (Text.trim output.toList).isEmpty = true → Made b q v .pylint []
  | listed {output : String} {list : Value} {entries : List Value} : runsPylint b q = .ok false →
      (q.argument "is_saved").truthy = true → b.host.answers.pylint.inProcess = .ok output →
      (Text.trim output.toList).isEmpty = false → Value.parse? output = some list → list.elements = .ok entries →
      Made b q v .pylint (Report.ofEntries none entries)

/-- **A linter has nothing new to say**: the program cannot be compiled, or the document was not saved, and what pylint found
last in its file is repeated. -/
def Silent (b : Bench) (q : Question) (v : DocumentView) (p : BuiltIn) (answer : Value) : Prop :=
  p = .mccabe ∧ b.host.answers.complexity.syntaxError = true ∧ answer = .null ∨
  p = .pylint ∧ runsPylint b q = .ok false ∧ (q.argument "is_saved").truthy = false ∧
    answer = .list (((Table.get? b.reports v.document.path).getD []).map Diagnostic.toValue)

/-- **A linter's answer is what its reports are made into.** -/
def Publishes (lines : List (List Char)) (b : Bench) (q : Question) (v : DocumentView) (p : BuiltIn) (answer : Value) :
    Prop :=
  ∃ rs found, Made b q v p rs ∧ Report.allDiagnosed lines rs = .ok found ∧
    answer = .list (found.map Diagnostic.toValue)

/-! ## What linters publish -/

variable {q : Question} {v : DocumentView} {answer : Value}

theorem outcome_shown {r : Except Fault (List Diagnostic)} :
    ((do return Value.list ((← Job.ofExcept r).map Diagnostic.toValue) : Job Value).perform b).1 = .ok answer ↔
      ∃ found, r = .ok found ∧ answer = .list (found.map Diagnostic.toValue) := by
  rw [Job.outcome_bind, Job.perform_ofExcept, Fault.bind_eq_ok]
  refine exists_congr fun found => and_congr_right fun _ => ⟨fun h => ?_, fun h => congrArg Except.ok h.symm⟩
  exact (Except.ok.inj h).symm

theorem complexity_publishes (hlines : v.document.lines b.host.files = .ok lines)
    (h : ((Complexity.lint q.config v).perform b).1 = .ok answer) :
    Silent b q v .mccabe answer ∨ Publishes lines b q v .mccabe answer := by
  simp only [Complexity.lint, Job.outcome_bind, Job.perform_ofExcept, Job.perform_text, Job.perform_answers,
    host_pluginSettings, Fault.bind_eq_ok] at h
  obtain ⟨settings, hsettings, threshold, hthreshold, _, -, _, hanswers, h⟩ := h
  cases hanswers
  split at h
  · next hbad => exact .inl (.inl ⟨rfl, hbad, (Except.ok.inj h).symm⟩)
  · rw [Job.outcome_bind, Fault.bind_eq_ok] at h
    obtain ⟨files, hfiles, h⟩ := h
    obtain rfl : b.host.files = files := by
      rw [← host_pluginSettings q.config "mccabe" (some v.document.path) b]
      exact Except.ok.inj hfiles
    obtain ⟨found, hfound, rfl⟩ := outcome_shown.mp h
    rw [hlines] at hfound
    exact .inr ⟨_, found, .mccabe (Fault.bind_eq_ok.mpr ⟨settings, hsettings, hthreshold⟩),
      (Report.allDiagnosed_optional (fun _ => rfl) _).trans hfound, rfl⟩

theorem names_publishes (hlines : v.document.lines b.host.files = .ok lines)
    (h : ((Names.lint v).perform b).1 = .ok answer) : Publishes lines b q v .pyflakes answer := by
  simp only [Names.lint, Job.outcome_bind, Job.perform_lines, Job.perform_note, Job.perform_answers, Job.perform_ofExcept,
    hlines, Fault.bind_eq_ok] at h
  obtain ⟨_, hread, _, -, _, hanswers, found, hfound, h⟩ := h
  cases hread
  cases hanswers
  cases h
  exact ⟨_, found, .pyflakes, (Report.allDiagnosed_each (fun _ => rfl) _).trans hfound, rfl⟩

/-- Where the workspace has no configuration, nothing is answered. -/
theorem ownConfig_bind_eq_ok {w : View} {next : Config → Job Value}
    (h : ((w.ownConfig >>= next).perform b).1 = .ok answer) : ∃ config, ((next config).perform b).1 = .ok answer := by
  unfold View.ownConfig at h
  split at h
  · next config _ => exact ⟨config, h⟩
  · cases h

theorem style_publishes {w : View} (hlines : w.document.document.lines b.host.files = .ok lines)
    (h : ((Style.lint w).perform b).1 = .ok answer) : Publishes lines b q v .pycodestyle answer := by
  obtain ⟨config, h⟩ := ownConfig_bind_eq_ok h
  have hread : ∀ b : Bench, (get : Job Bench).perform b = (.ok b, b) := fun _ => rfl
  have hchecks : ∀ plugin path, ((Job.pluginSettings config plugin path).perform b).2.checks = b.checks :=
    fun plugin path => congrArg (·.2.1) (keeps_pluginSettings config plugin path b)
  simp only [Job.outcome_bind, Job.perform_ofExcept, Job.perform_lines, Job.perform_note, Job.perform_answers, hread,
    host_pluginSettings, hchecks, hlines, Fault.bind_eq_ok] at h
  obtain ⟨settings, -, options, -, _, -, _, hlines, _, -, _, hanswers, _, hbench, found, hfound, h⟩ := h
  cases hlines
  cases hanswers
  cases hbench
  cases h
  exact ⟨_, found, .pycodestyle, (Report.allDiagnosed_optional (fun _ => rfl) _).trans hfound, rfl⟩

/-- What a process printed is read line by line. -/
theorem ProcessLinter.publishes (l : ProcessLinter) {p : BuiltIn} {output : String}
    (hlines : v.document.lines b.host.files = .ok lines)
    (hmade : Made b q v p ((Text.bareLines output.toList).map (.output l))) {b' : Bench} (hhost : b'.host = b.host)
    (h : ((l.parseFor v output).perform b').1 = .ok answer) : Publishes lines b q v p answer := by
  rw [← hhost] at hlines
  obtain ⟨found, hfound, rfl⟩ := (l.perform_parseFor_eq_ok hlines).mp h
  exact ⟨_, found, hmade, (Report.allDiagnosed_output l output.toList).trans hfound, rfl⟩

theorem flake8_publishes {w : View} (hlines : w.document.document.lines b.host.files = .ok lines)
    (h : ((Flake8.lint w).perform b).1 = .ok answer) : Publishes lines b q w.document .flake8 answer := by
  obtain ⟨config, h⟩ := ownConfig_bind_eq_ok h
  simp only [Job.outcome_bind, Job.perform_ofExcept, Job.perform_host, host_pluginSettings, Fault.bind_eq_ok] at h
  obtain ⟨settings, -, options, -, _, hhost, _, -, program, -, args, -, program', -, output, houtput, h⟩ := h
  cases hhost
  cases runLinter_eq_ok houtput
  refine ProcessLinter.flake8.publishes hlines .flake8 ?_ h
  rw [host_runLinter, host_pluginSettings]

/-- What pylint finds in the file of a document. -/
theorem lintFile_publishes {flags : String} {found : List Diagnostic} (hruns : runsPylint b q = .ok false)
    (hlines : v.document.lines b.host.files = .ok lines) {b' : Bench} (hhost : b'.host = b.host)
    (hreports : b'.reports = b.reports)
    (h : ((Pylint.lintFile v (q.argument "is_saved").truthy flags).perform b').1 = .ok found) :
    Silent b q v .pylint (.list (found.map Diagnostic.toValue)) ∨
      Publishes lines b q v .pylint (.list (found.map Diagnostic.toValue)) := by
  cases hsaved : (q.argument "is_saved").truthy with
  | false =>
    rw [hsaved, Pylint.perform_lintFile_unsaved, hreports] at h
    cases h
    exact .inl (.inr ⟨rfl, hruns, hsaved, rfl⟩)
  | true =>
    right
    rw [hsaved] at h
    let c : Pylint.Call := { host := b'.host, view := v, saved := true, flags }
    have hrun := Pylint.Call.run_saved (c := c) rfl b'
    replace h : c.reading = .ok found := (congrArg Prod.fst hrun).symm.trans h
    obtain ⟨output, houtput, hreading⟩ := Fault.bind_eq_ok.mp h
    have hprinted : b.host.answers.pylint.inProcess = .ok output := hhost ▸ houtput
    rw [Pylint.Call.readingOf] at hreading
    split at hreading
    · next hblank =>
      cases hreading
      exact ⟨_, [], .blank hruns hsaved hprinted hblank, rfl, rfl⟩
    · next hblank =>
      cases hparsed : Value.parse? output with
      | none =>
        rw [hparsed] at hreading
        cases hreading
      | some list =>
        rw [hparsed] at hreading
        obtain ⟨entries, hentries, hfound⟩ := Fault.bind_eq_ok.mp hreading
        have hread : v.document.lines c.host.files = .ok lines := (congrArg (v.document.lines ·.files) hhost).trans hlines
        rw [hread] at hfound
        exact ⟨_, found, .listed hruns hsaved hprinted (Bool.eq_false_iff.mpr hblank) hparsed hentries,
          (Report.allDiagnosed_ofEntries none entries).trans hfound, rfl⟩

theorem pylint_publishes {w : View} (hconfig : w.config = q.config)
    (hlines : w.document.document.lines b.host.files = .ok lines)
    (h : ((Pylint.lint w (q.argument "is_saved")).perform b).1 = .ok answer) :
    Silent b q w.document .pylint answer ∨ Publishes lines b q w.document .pylint answer := by
  simp only [Pylint.lint, hconfig, Job.outcome_bind, Job.perform_ofExcept, Fault.bind_eq_ok] at h
  obtain ⟨settings, hsettings, program, hprogram, args, -, h⟩ := h
  have hruns : runsPylint b q = .ok program.truthy :=
    Fault.bind_eq_ok.mpr ⟨program, Fault.bind_eq_ok.mpr ⟨settings, hsettings, hprogram⟩, rfl⟩
  have hhost := host_pluginSettings q.config "pylint" none b
  have hreports : ((Job.pluginSettings q.config "pylint" none).perform b).2.reports = b.reports :=
    congrArg (·.2.2) (keeps_pluginSettings q.config "pylint" none b)
  generalize ((Job.pluginSettings q.config "pylint" none).perform b).2 = m at h hhost hreports
  have hprocess : program.truthy = true → ∀ flags, ((do
      let answers ← Job.answers
      Pylint.parseFor w.document (← runLinter w.document answers.pylint program "pylint" flags) : Job Value).perform m).1 =
        .ok answer → Publishes lines b q w.document .pylint answer := by
    intro hprogram flags h
    simp only [Job.outcome_bind, Job.perform_answers, Fault.bind_eq_ok] at h
    obtain ⟨_, hanswers, output, houtput, h⟩ := h
    cases hanswers
    cases runLinter_eq_ok houtput
    refine ProcessLinter.pylint.publishes hlines ?_ ?_ h
    · rw [hhost]
      exact .pylint (by rw [hruns, hprogram])
    · rw [host_runLinter, hhost]
  have hfile : program.truthy = false → ∀ flags, ((do
      let found ← Pylint.lintFile w.document (q.argument "is_saved").truthy flags
      return .list (found.map Diagnostic.toValue) : Job Value).perform m).1 = .ok answer →
        Silent b q w.document .pylint answer ∨ Publishes lines b q w.document .pylint answer := by
    intro hprogram flags h
    rw [Job.outcome_bind, Fault.bind_eq_ok] at h
    obtain ⟨found, hfound, h⟩ := h
    cases h
    exact lintFile_publishes (by rw [hruns, hprogram]) hlines hhost hreports hfound
  -- The flags are read in one way for a process and in another for the file; what they are does not matter.
  split at h
  · next hprogram =>
    right
    split at h
    · exact hprocess hprogram _ h
    · rw [Job.outcome_bind, Job.perform_ofExcept, Fault.bind_eq_ok] at h
      obtain ⟨flags, -, h⟩ := h
      exact hprocess hprogram _ h
  · next hprogram =>
    rw [Bool.not_eq_true] at hprogram
    split at h
    · exact hfile hprogram _ h
    · rw [Job.outcome_bind, Job.perform_ofExcept, Fault.bind_eq_ok] at h
      obtain ⟨texts, -, h⟩ := h
      exact hfile hprogram _ h

/-- The files of a report, one after the other. -/
theorem allDiagnosed_files (errors : List Tool.DocumentationError) (files : List Tool.DocumentationFile) :
    Report.allDiagnosed lines (files.flatMap fun file =>
        (errors.filter fun e => file.codes.contains e.code).map .documentation) =
      .ok (files.map (Documentation.fileDiagnostics lines errors)).flatten := by
  have hreports : (files.flatMap fun file => (errors.filter fun e => file.codes.contains e.code).map Report.documentation) =
      (files.flatMap fun file => errors.filter fun e => file.codes.contains e.code).map .documentation := by
    rw [List.map_flatMap]
  rw [hreports, Report.allDiagnosed_documentation, List.map_flatMap]
  rfl

theorem fileDiagnostics_answers (hlines : v.document.lines b.host.files = .ok lines)
    (errors : List Tool.DocumentationError) (file : Tool.DocumentationFile) :
    Job.Answers (·.host = b.host) (do
        let _ ← v.text
        Job.note "pydocstyle.check_source" [("filename", .str file.name), ("ignore_decorators", file.ignoreDecorators)]
        return Documentation.fileDiagnostics (← v.lines) errors file)
      (.ok (Documentation.fileDiagnostics lines errors file)) := by
  intro m hm
  obtain ⟨text, htext, -⟩ := Fault.bind_eq_ok.mp hlines
  simp only [Job.perform_bind, Job.perform_text, Job.perform_note, Job.perform_lines, hm, htext, hlines]
  exact ⟨rfl, rfl⟩

theorem documentation_publishes (hlines : v.document.lines b.host.files = .ok lines)
    (h : ((Documentation.lint q.config v).perform b).1 = .ok answer) : Publishes lines b q v .pydocstyle answer := by
  simp only [Documentation.lint, Job.outcome_bind, Job.perform_ofExcept, Fault.bind_eq_ok] at h
  obtain ⟨settings, hsettings, names, hnames, named, hnamed, h⟩ := h
  have hlooks : looksAtFile b q v.document.path =
      if !named then .ok false
      else settings.getD "matchDir" (.str Documentation.defaultMatchDirectory) >>= fun directories =>
        Documentation.matchesName directories (Path.baseOf (Path.directoryOf v.document.path)) := by
    simp only [looksAtFile, settingOf, hsettings, hnames, hnamed, bind, Except.bind]
    rfl
  have hhost := host_pluginSettings q.config "pydocstyle" (some v.document.path) b
  generalize ((Job.pluginSettings q.config "pydocstyle" (some v.document.path)).perform b).2 = m at h hhost
  split at h
  · next hother =>
    cases h
    rw [if_pos hother] at hlooks
    exact ⟨_, [], .unchecked hlooks, rfl, rfl⟩
  · next hother =>
  simp only [Job.outcome_bind, Job.perform_ofExcept, Fault.bind_eq_ok] at h
  obtain ⟨directories, hdirectories, placed, hplaced, h⟩ := h
  rw [if_neg hother, Fault.bind_eq_ok.mpr ⟨directories, hdirectories, hplaced⟩] at hlooks
  split at h
  · next hother =>
    cases h
    rw [Bool.not_eq_true'] at hother
    exact ⟨_, [], .unchecked (hother ▸ hlooks), rfl, rfl⟩
  · next hother =>
  rw [Bool.not_eq_true', Bool.not_eq_false] at hother
  simp only [Job.outcome_bind, Job.perform_ofExcept, Job.perform_note, Job.perform_answers, hhost, Fault.bind_eq_ok] at h
  obtain ⟨args, -, _, -, _, hanswers, found, hfound, h⟩ := h
  cases hanswers
  cases h
  obtain rfl : b.host.answers.documentation.files.map
      (Documentation.fileDiagnostics lines b.host.answers.documentation.errors) = found := by
    have hsteps := Job.Answers.mapM (fileDiagnostics_answers hlines b.host.answers.documentation.errors)
      b.host.answers.documentation.files
    have hanswer := (hsteps { m with host := b.host, calls := _ } rfl).1.symm.trans hfound
    exact Except.ok.inj (List.mapM_pure.symm.trans hanswer)
  exact ⟨_, _, .pydocstyle (hother ▸ hlooks), allDiagnosed_files _ _, rfl⟩

/-- **What a linter publishes.** A linter that answers a question about a document whose lines can be read answers with the
dictionaries of what its reports are made into, or has nothing new to say. -/
theorem lint_publishes {p : BuiltIn} (hlint : Hook.lint ∈ p.hooks) (hhook : q.hook = .lint)
    (hdocument : q.document = some v) (hlines : v.document.lines b.host.files = .ok lines)
    (h : ((p.answer q).perform b).1 = .ok answer) : Silent b q v p answer ∨ Publishes lines b q v p answer := by
  have hview : q.view = pure
      { config := q.config, workspace := q.workspace, workspaceConfig := q.workspaceConfig, document := v } := by
    rw [Question.view, hdocument]
  have hother : (q.hook == .settings) = false := by rw [hhook]; rfl
  simp only [BuiltIn.answer, hother, hview, pure_bind, Bool.false_eq_true, if_false] at h
  cases p with
  | mccabe => exact complexity_publishes hlines h
  | pylint => exact pylint_publishes rfl hlines h
  | pycodestyle => exact .inr (style_publishes hlines h)
  | pydocstyle => exact .inr (documentation_publishes hlines h)
  | pyflakes => exact .inr (names_publishes hlines h)
  | flake8 => exact .inr (flake8_publishes hlines h)
  | _ => exact absurd hlint (by decide)

end

end EditorService.Lint
