import EditorService.Proofs.WholeEdits

/-!
# The check that is lent to a formatter

One check of the style checker has a second implementation, which belongs to a formatter. While the formatter runs, its
own one is registered in the place of the style checker's; then the style checker's is put back. A fault in between ends
the call, and nothing is put back.

A `CheckCall` is a request that the registry matters for: to format a document or a range of it, or to lint. It has the
surroundings at its moment, so that each call has its own text and its own reply of the formatter.

**The law** (`checks_home_iff_none_stopped`): the style checker's check is the registered one before and after every call of
a history exactly if no call stopped while the formatter had it (`stops`). Up to then every call answers as if none had
been before it. From then on the formatter's check stays registered: no request to format is carried out any more, and the
style checker finds what it finds with the formatter's check.
-/

namespace EditorService.Feature

/-! ## Calls -/

/-- What a call asks for. -/
inductive CheckUse where
  | formatDocument
  | formatRange (range : Value)
  | lint

namespace CheckUse

/-- The hook of a use. -/
def hook : CheckUse → Hook
  | .formatDocument => .formatDocument
  | .formatRange _ => .formatRange
  | .lint => .lint

/-- The plugin that is asked. -/
def plugin : CheckUse → BuiltIn
  | .formatDocument => .autopep8
  | .formatRange _ => .autopep8
  | .lint => .pycodestyle

/-- What the hook is given beside the document. -/
def arguments : CheckUse → List (String × Value)
  | .formatRange range => [("range", range)]
  | _ => []

/-- Whether the formatter is asked. -/
def formats : CheckUse → Bool
  | .lint => false
  | _ => true

end CheckUse

/-- **A call that the registered checks matter for.** -/
structure CheckCall where
  host : Host := {}
  config : Config
  workspace : Workspace
  workspaceConfig : Option Config
  document : DocumentView
  use : CheckUse

namespace CheckCall

/-- The question that the plugin is asked. -/
def question (c : CheckCall) : Question where
  hook := c.use.hook
  config := c.config
  workspace := c.workspace
  workspaceConfig := c.workspaceConfig
  document := some c.document
  arguments := c.use.arguments

/-- What the call answers, and the bench that it leaves. -/
def run (c : CheckCall) (b : Bench) : Except Fault Value × Bench :=
  (c.use.plugin.answer c.question).perform { b with host := c.host }

/-- Whether the call gets as far as the registry: its range can be widened, and its options can be read. -/
def reaches (c : CheckCall) (b : Bench) : Bool :=
  (spanFor c.question).isOk && ((formatterOptions c.config c.document).perform { b with host := c.host }).1.isOk

/-- Whether the formatter can be given the text, and gives one back. -/
def succeeds (c : CheckCall) : Bool := (c.document.document.text c.host.files).isOk && c.host.answers.autopep8.isOk

/-- **The call stops while the formatter has the check.** -/
def stops (c : CheckCall) (b : Bench) : Bool := c.use.formats && c.reaches b && b.checks.own && !c.succeeds

end CheckCall

/-- The registry while the formatter has the check. -/
def lent : Tool.Checks := { own := false, formatter := true }

theorem exists_of_isOk {α : Type} {r : Except Fault α} (h : r.isOk = true) : ∃ a, r = .ok a := by
  cases r with
  | ok a => exact ⟨a, rfl⟩
  | error f => cases h

/-! ## One call -/

/-- **What formatting leaves of the registry.** -/
theorem checks_formatWithAutopep8 (c : Config) (v : DocumentView) (span : Option (Int × Int)) (b : Bench) :
    ((formatWithAutopep8 c v span).perform b).2.checks =
      if ((formatterOptions c v).perform b).1.isOk && b.checks.own then
        if (v.document.text b.host.files).isOk && b.host.answers.autopep8.isOk then {} else lent
      else b.checks := by
  have hkept := keeps_formatterOptions c v b
  unfold formatWithAutopep8
  rw [Job.perform_bind]
  rcases hrun : (formatterOptions c v).perform b with ⟨r, m⟩
  rw [hrun] at hkept
  obtain ⟨hhost, hchecks⟩ : m.host = b.host ∧ m.checks = b.checks := Prod.mk.inj hkept
  cases r with
  | error f => exact hchecks
  | ok options =>
    simp only [Job.perform_bind, perform_lendChecks]
    rw [← hhost, ← hchecks]
    cases hown : m.checks.own with
    | false => rfl
    | true =>
      simp only [if_true, Job.perform_text, Job.perform_note, Job.perform_answers, Job.perform_ofExcept]
      cases v.document.text m.host.files with
      | error f => rfl
      | ok source =>
        dsimp only
        cases m.host.answers.autopep8 with
        | error f => rfl
        | ok formatted =>
          simp only [perform_returnChecks, Job.perform_lines]
          cases v.document.lines m.host.files <;> rfl

namespace CheckCall

/-- What a call for the formatter does, after the range was widened. -/
theorem run_formats {c : CheckCall} (h : c.use.formats = true) (b : Bench) :
    c.run b = ((do return editsValue (← formatWithAutopep8 c.config c.document (← spanOf c.question))) :
      Job Value).perform { b with host := c.host } := by
  unfold run question
  cases huse : c.use with
  | formatDocument => rfl
  | formatRange range => rfl
  | lint => rw [huse] at h; cases h

theorem run_lint {c : CheckCall} (h : c.use.formats = false) (b : Bench) :
    c.run b = (Lint.Style.lint
      { config := c.config, workspace := c.workspace, workspaceConfig := c.workspaceConfig,
        document := c.document }).perform { b with host := c.host } := by
  unfold run question
  cases huse : c.use with
  | lint => rfl
  | formatDocument => rw [huse] at h; cases h
  | formatRange range => rw [huse] at h; cases h

/-- Linting leaves the registry alone. -/
theorem keeps_lint (v : View) : Job.Keeps fixtures (Lint.Style.lint v) := by
  have hconfig : Job.Keeps fixtures v.ownConfig := by
    unfold View.ownConfig
    split
    · exact Job.Keeps.pure _
    · exact Job.Keeps.throw _
  exact hconfig.bind fun _ => (keeps_pluginSettings _ _ _).bind fun _ => (Job.Keeps.ofExcept _).bind fun _ =>
    (keeps_note _ _).bind fun _ => (keeps_reading v.document.document.lines).bind fun _ => (keeps_note _ _).bind fun _ =>
      Job.Keeps.bind (j := Job.answers) (fun _ => rfl) fun _ => Job.Keeps.bind (j := get) (fun _ => rfl) fun _ =>
        (Job.Keeps.ofExcept _).bind fun _ => Job.Keeps.pure _

/-- **What a call leaves of the registry.** -/
theorem checks_run (c : CheckCall) (b : Bench) :
    (c.run b).2.checks =
      if c.use.formats && c.reaches b && b.checks.own then if c.succeeds then {} else lent else b.checks := by
  cases hformats : c.use.formats with
  | false =>
    rw [run_lint hformats]
    exact congrArg Prod.snd (keeps_lint _ { b with host := c.host })
  | true =>
    rw [run_formats hformats, Job.perform_bind, perform_spanOf, reaches]
    cases spanFor c.question with
    | error f => rfl
    | ok span =>
      dsimp only
      have hformat := checks_formatWithAutopep8 c.config c.document span { b with host := c.host }
      rw [Job.perform_bind]
      rcases hrun : (formatWithAutopep8 c.config c.document span).perform { b with host := c.host } with ⟨r, m⟩
      rw [hrun] at hformat
      cases r with
      | error f => exact hformat
      | ok edits => exact hformat

theorem checks_run_of_stops {c : CheckCall} {b : Bench} (h : c.stops b = true) : (c.run b).2.checks = lent := by
  simp only [stops, Bool.and_eq_true, Bool.not_eq_true'] at h
  obtain ⟨⟨⟨hformats, hreaches⟩, hown⟩, hfails⟩ := h
  rw [checks_run, hformats, hreaches, hown, hfails]
  rfl

/-- A call that does not stop puts back what it took. -/
theorem checks_run_of_home {c : CheckCall} {b : Bench} (hb : b.checks = {}) (h : c.stops b = false) :
    (c.run b).2.checks = {} := by
  rw [checks_run]
  split
  · next htaken =>
    have hsucceeds : c.succeeds = true := by
      simpa only [stops, htaken, Bool.true_and, Bool.not_eq_false'] using h
    rw [hsucceeds]
    rfl
  · exact hb

theorem checks_run_of_lent {c : CheckCall} {b : Bench} (hb : b.checks = lent) : (c.run b).2.checks = lent := by
  have hown : b.checks.own = false := by rw [hb]; rfl
  rw [checks_run, hown, Bool.and_false]
  exact hb

/-! ## Histories -/

/-- The bench after the calls of a history. -/
def after (b : Bench) (history : List CheckCall) : Bench := history.foldl (fun b c => (c.run b).2) b

/-- **Whether a call of a history stopped** while the formatter had the check. -/
def stopped (b : Bench) : List CheckCall → Bool
  | [] => false
  | c :: rest => c.stops b || stopped (c.run b).2 rest

theorem checks_after_of_lent {b : Bench} (hb : b.checks = lent) (history : List CheckCall) :
    (after b history).checks = lent := by
  induction history generalizing b with
  | nil => exact hb
  | cons c rest ih => exact ih (checks_run_of_lent hb)

/-- **The registry after a history** tells whether a call stopped. -/
theorem checks_after {b : Bench} (hb : b.checks = {}) (history : List CheckCall) :
    (after b history).checks = if stopped b history then lent else {} := by
  induction history generalizing b with
  | nil => exact hb
  | cons c rest ih =>
    rw [stopped]
    cases hstops : c.stops b with
    | true => exact checks_after_of_lent (checks_run_of_stops hstops) rest
    | false => exact ih (checks_run_of_home hb hstops)

/-- Where no call of a history stopped, none did in its first part. -/
theorem stopped_append (b : Bench) (earlier later : List CheckCall) :
    stopped b (earlier ++ later) = (stopped b earlier || stopped (after b earlier) later) := by
  induction earlier generalizing b with
  | nil => rfl
  | cons c rest ih =>
    rw [List.cons_append, stopped, stopped, ih, Bool.or_assoc]
    rfl

end CheckCall

/-! ## Calls without a history -/

section

open EditorService.Job (Answers)

/-- **A bench whose memory can be trusted** for a configuration, in given surroundings. -/
def Trusted (c : Config) (host : Host) (b : Bench) : Prop := c.Current b ∧ b.host = host

variable {c : Config} {host : Host}

/-- Whether a memory can be trusted is a matter of its entries. -/
theorem trusted_of_settings {b : Bench}
    (h : ∀ entry ∈ b.settings, (c.compute host entry.1.2.path?).toOption = some entry.2) :
    Trusted c host { b with host := host } := by
  refine ⟨?_, rfl⟩
  intro query v hmem
  have hentry : (c.compute host query.path?).toOption = some v := h ((c.id, query), v) hmem
  exact Fault.eq_ok_of_toOption hentry

theorem answers_settings_trusted (query : Settings.Query) :
    Answers (Trusted c host) (Job.settings c query) (c.compute host query.path?) := by
  rintro b ⟨hcurrent, rfl⟩
  obtain ⟨hanswer, hconsults⟩ := Config.answers_settings hcurrent query b (Config.Consults.rest c b)
  exact ⟨hanswer, hconsults.current hcurrent, hconsults.host⟩

/-- The settings of a plugin, worked out without a memory. -/
def pluginAfresh (c : Config) (host : Host) (plugin : String) (path : Option String) : Except Fault Value := do
  let all ← c.compute host path
  let plugins ← all.getD "plugins" (.dict [])
  plugins.getD plugin (.dict [])

theorem answers_pluginSettings (plugin : String) (path : Option String) :
    Answers (Trusted c host) (Job.pluginSettings c plugin path) (pluginAfresh c host plugin path) :=
  (answers_settings_trusted (.forPath path)).bind fun _ _ => (Answers.ofExcept _).bind fun _ _ => Answers.ofExcept _

/-- The options of the formatter do not depend on what is remembered. -/
theorem exists_answers_formatterOptions (c : Config) (host : Host) (v : DocumentView) :
    ∃ r, Answers (Trusted c host) (formatterOptions c v) r :=
  ⟨_, (answers_pluginSettings _ _).bind fun _ _ =>
    (Answers.mapM (fun _ => (Answers.ofExcept _).bind fun _ _ => Answers.pure _) _).bind fun _ _ => Answers.pure _⟩

/-- The same for given checks. -/
def TrustedWith (c : Config) (host : Host) (checks : Tool.Checks) (b : Bench) : Prop :=
  Trusted c host b ∧ fixtures b = (host, checks)

/-- Nor do the findings of the style checker, but they do depend on the checks that are registered. -/
theorem exists_answers_lint (c : Config) (host : Host) (checks : Tool.Checks) {v : View}
    (h : v.workspaceConfig = some c) :
    ∃ r, Answers (TrustedWith c host checks) (Lint.Style.lint v) r := by
  have hconfig : v.ownConfig = pure c := by rw [View.ownConfig, h]
  have hsettings : ∀ plugin path,
      Answers (TrustedWith c host checks) (Job.pluginSettings c plugin path) (pluginAfresh c host plugin path) :=
    fun plugin path => (answers_pluginSettings plugin path).keeping (keeps_pluginSettings c plugin path) (host, checks)
  have hnote : ∀ fn args, Answers (TrustedWith c host checks) (Job.note fn args) (.ok ()) :=
    fun _ _ b hb => ⟨rfl, hb⟩
  have hlines : Answers (TrustedWith c host checks) v.document.lines
      (v.document.document.lines host.files) := by
    rintro b ⟨⟨hcurrent, rfl⟩, hfixtures⟩
    rw [Job.perform_lines]
    exact ⟨rfl, ⟨hcurrent, rfl⟩, hfixtures⟩
  -- What is looked up behind the notes is the registry and nothing else of the bench.
  have hfound : ∀ lines, ∃ r, Answers (TrustedWith c host checks)
      (do
        let report := (← Job.answers).style (← get).checks
        let found ← Job.ofExcept (Lint.Style.diagnostics report lines)
        return .list (found.map Lint.Diagnostic.toValue) : Job Value) r := by
    intro lines
    refine ⟨(Lint.Style.diagnostics (host.answers.style checks) lines).map fun found =>
      .list (found.map Lint.Diagnostic.toValue), ?_⟩
    rintro b ⟨⟨hcurrent, rfl⟩, hfixtures⟩
    obtain rfl : b.checks = checks := (Prod.mk.inj hfixtures).2
    have hread : (get : Job Bench).perform b = (.ok b, b) := rfl
    simp only [Job.perform_bind, Job.perform_answers, hread, Job.perform_ofExcept]
    cases Lint.Style.diagnostics (b.host.answers.style b.checks) lines with
    | error f => exact ⟨rfl, ⟨hcurrent, rfl⟩, rfl⟩
    | ok found => exact ⟨rfl, ⟨hcurrent, rfl⟩, rfl⟩
  choose found hfound using hfound
  rw [Lint.Style.lint, hconfig, pure_bind]
  exact ⟨_, (hsettings _ _).bind fun _ _ => (Answers.ofExcept _).bind fun _ _ => (hnote _ _).bind fun _ _ =>
    hlines.bind fun lines _ => (hnote _ _).bind fun _ _ => hfound lines⟩

end

namespace CheckCall

/-- The configuration whose settings a call looks at. -/
def consulted (c : CheckCall) : Option Config := if c.use.formats then some c.config else c.workspaceConfig

/-- **What is remembered of the settings that a call looks at is current.** -/
def Trusts (c : CheckCall) (b : Bench) : Prop := ∀ config, c.consulted = some config →
  Trusted config c.host { b with host := c.host }

/-- A bench on which nothing is remembered can be trusted. -/
theorem trusts_new (c : CheckCall) (checks : Tool.Checks) : c.Trusts { checks } := by
  intro config _
  exact ⟨fun hmem => absurd hmem List.not_mem_nil, rfl⟩

theorem outcome_formats {c : CheckCall} (h : c.use.formats = true) (b : Bench) :
    (c.run b).1 = do
      let _ ← spanFor c.question
      Formatter.autopep8.prepare c.config c.document { b with host := c.host }
      let source ← c.document.document.text c.host.files
      let formatted ← c.host.answers.autopep8
      return editsValue (editsTo (lineCount source) (formatted.newText.getD source)
        (Formatter.autopep8.reportsChange source formatted)) := by
  have hhook : c.question.hook = .formatDocument ∨ c.question.hook = .formatRange := by
    cases huse : c.use with
    | formatDocument => exact .inl (congrArg CheckUse.hook huse)
    | formatRange range => exact .inr (congrArg CheckUse.hook huse)
    | lint => rw [huse] at h; cases h
  have hplugin : c.use.plugin = Formatter.autopep8.plugin := by
    cases huse : c.use with
    | formatDocument => rfl
    | formatRange range => rfl
    | lint => rw [huse] at h; cases h
  rw [run, hplugin]
  exact Formatter.outcome_answer .autopep8 hhook rfl { b with host := c.host }

/-- A call that gets as far as the registry is carried out or not. -/
theorem outcome_of_reaches {c : CheckCall} {b : Bench} (hformats : c.use.formats = true) (h : c.reaches b = true) :
    (b.checks.own = false → (c.run b).1 = .error .checkMissing) ∧
      (b.checks.own = true → c.succeeds = true → ∃ answer, (c.run b).1 = .ok answer) := by
  obtain ⟨hspan, hoptions⟩ := Bool.and_eq_true_iff.mp h
  obtain ⟨span, hspan⟩ := exists_of_isOk hspan
  obtain ⟨options, hoptions⟩ := exists_of_isOk hoptions
  rw [outcome_formats hformats, hspan, Formatter.prepare, hoptions]
  refine ⟨fun hown => ?_, fun hown hsucceeds => ?_⟩
  · rw [hown]
    rfl
  · obtain ⟨hsource, hreply⟩ := Bool.and_eq_true_iff.mp hsucceeds
    obtain ⟨source, hsource⟩ := exists_of_isOk hsource
    obtain ⟨formatted, hreply⟩ := exists_of_isOk hreply
    rw [hown, hsource, hreply]
    exact ⟨_, rfl⟩

/-- Whether a call gets as far as the registry does not depend on what is remembered. -/
theorem reaches_eq_of_trusts {c : CheckCall} {b m : Bench} (hformats : c.use.formats = true) (hb : c.Trusts b)
    (hm : c.Trusts m) : c.reaches b = c.reaches m := by
  have hconsulted : c.consulted = some c.config := by rw [consulted, hformats, if_pos rfl]
  obtain ⟨options, hoptions⟩ := exists_answers_formatterOptions c.config c.host c.document
  rw [reaches, reaches, (hoptions _ (hb _ hconsulted)).1, (hoptions _ (hm _ hconsulted)).1]

/-- Calls with the same registry answer the same, whatever is remembered. -/
theorem answer_eq_of_trusts {c : CheckCall} {b m : Bench} (hb : c.Trusts b) (hm : c.Trusts m)
    (h : b.checks = m.checks) : (c.run b).1 = (c.run m).1 := by
  cases hformats : c.use.formats with
  | true =>
    have hconsulted : c.consulted = some c.config := by rw [consulted, hformats, if_pos rfl]
    obtain ⟨options, hoptions⟩ := exists_answers_formatterOptions c.config c.host c.document
    have hprepare : Formatter.autopep8.prepare c.config c.document { b with host := c.host } =
        Formatter.autopep8.prepare c.config c.document { m with host := c.host } := by
      simp only [Formatter.prepare]
      rw [(hoptions _ (hb _ hconsulted)).1, (hoptions _ (hm _ hconsulted)).1, h]
    rw [outcome_formats hformats, outcome_formats hformats, hprepare]
  | false =>
    rw [run_lint hformats, run_lint hformats]
    cases hconfig : c.workspaceConfig with
    | none => rfl
    | some config =>
      have hconsulted : c.consulted = some config := by rw [consulted, hformats, ← hconfig]; rfl
      obtain ⟨found, hfound⟩ := exists_answers_lint config c.host m.checks (v :=
        { config := c.config, workspace := c.workspace, workspaceConfig := some config, document := c.document }) rfl
      rw [(hfound _ ⟨hb _ hconsulted, congrArg (Prod.mk c.host) h⟩).1, (hfound _ ⟨hm _ hconsulted, rfl⟩).1]

/-- **The style checker's check is registered exactly as long as no call stopped.** From a registry as it should be, after
any requests to format or to lint:

* the style checker's check is registered, and not the formatter's, before and after each of them exactly if none stopped;
* if none stopped, the next call answers as one that nothing came before, provided that the settings it looks at are
  remembered as they are;
* if one stopped, the formatter's check is registered in its place. Every request to format that gets as far as the registry
  ends in a fault, also where it would have been carried out if nothing had come before; and every call, a lint too, answers
  as one that only this registry came before. -/
theorem checks_home_iff_none_stopped {b : Bench} (hhome : b.checks = {}) (history : List CheckCall) :
    let now := after b history
    ((∀ earlier, earlier <+: history → (after b earlier).checks = {}) ↔ stopped b history = false) ∧
    (stopped b history = false → ∀ c : CheckCall, c.Trusts now → (c.run now).1 = (c.run {}).1) ∧
    (stopped b history = true → now.checks = lent ∧ ∀ c : CheckCall, c.use.formats = true → c.reaches now = true →
      (c.run now).1 = .error .checkMissing ∧
        (c.succeeds = true → c.Trusts now → ∃ answer, (c.run {}).1 = .ok answer)) ∧
    (stopped b history = true → ∀ c : CheckCall, c.Trusts now → (c.run now).1 = (c.run { checks := lent }).1) := by
  intro now
  have hnow : now.checks = if stopped b history then lent else {} := checks_after hhome history
  refine ⟨⟨fun hall => ?_, fun hnone earlier hearlier => ?_⟩, fun hnone c htrusts => ?_, fun hstopped => ?_,
    fun hstopped c htrusts => ?_⟩
  · have hend := hall history (List.prefix_refl history)
    rw [checks_after hhome] at hend
    cases hstopped : stopped b history with
    | false => rfl
    | true => rw [hstopped] at hend; exact absurd hend (by decide)
  · obtain ⟨later, rfl⟩ := hearlier
    rw [stopped_append, Bool.or_eq_false_iff] at hnone
    rw [checks_after hhome, hnone.1]
    rfl
  · rw [hnone] at hnow
    exact answer_eq_of_trusts htrusts (c.trusts_new {}) hnow
  · rw [hstopped] at hnow
    refine ⟨hnow, fun c hformats hreaches => ⟨?_, fun hsucceeds htrusts => ?_⟩⟩
    · exact (outcome_of_reaches hformats hreaches).1 (by rw [hnow]; rfl)
    · rw [reaches_eq_of_trusts hformats htrusts (c.trusts_new {})] at hreaches
      exact (outcome_of_reaches hformats hreaches).2 rfl hsucceeds
  · rw [hstopped] at hnow
    exact answer_eq_of_trusts htrusts (c.trusts_new lent) hnow

/-- A call about a document of one line, with a reply of the formatter. -/
def callWith (use : CheckUse) (reply : Except Fault Tool.Formatted) : CheckCall where
  host := { answers := { autopep8 := reply } }
  config := (questionOf .formatDocument).config
  workspace := (questionOf .formatDocument).workspace
  workspaceConfig := some (questionOf .formatDocument).config
  document := { document := unbroken, config := none, rootPath := "/ws" }
  use := use

/-- A request that is carried out. -/
def laidOut : CheckCall := callWith .formatDocument (.ok { newText := some "x = 1\n" })

/-- A request during which the formatter fails. -/
def failed : CheckCall := callWith .formatDocument (.error .wrongType)

/-- A lint in which the style checker finds something with the formatter's check only. -/
def linted : CheckCall where
  __ := callWith .lint (.error .wrongType)
  host := { answers := { style := fun checks => { errors := if checks.own then [] else [(1, 0, "E122 indentation")] } } }

/-- After a request that is carried out and a lint all is as before; after one during which the formatter fails, the
request that was carried out is refused, and the lint that found nothing finds something. -/
theorem checks_home_iff_none_stopped_failed_once :
    (after {} [laidOut, linted]).checks = {} ∧
    (∃ answer, (laidOut.run {}).1 = .ok answer) ∧
    (after {} [laidOut, failed]).checks = lent ∧
    (laidOut.run (after {} [laidOut, failed])).1 = .error .checkMissing ∧
    (linted.run {}).1 = .ok (.list []) ∧ (linted.run (after {} [failed])).1 ≠ .ok (.list []) := by
  obtain ⟨hhome, -⟩ := checks_home_iff_none_stopped (b := {}) rfl [laidOut, linted]
  obtain ⟨-, -, hstopped, -⟩ := checks_home_iff_none_stopped (b := {}) rfl [laidOut, failed]
  obtain ⟨-, -, -, hanswers⟩ := checks_home_iff_none_stopped (b := {}) rfl [failed]
  obtain ⟨hlent, hrefused⟩ := hstopped (by decide +kernel)
  have htrusts : linted.Trusts (after {} [failed]) := by
    intro config hconsulted
    obtain rfl : failed.config = config := Option.some.inj hconsulted
    exact trusted_of_settings (by decide +kernel)
  refine ⟨hhome.mpr (by decide +kernel) _ (List.prefix_refl _), ?_, hlent, ?_, ?_, ?_⟩
  · exact (outcome_of_reaches rfl (by decide +kernel)).2 rfl rfl
  · exact (hrefused laidOut rfl (by decide +kernel)).1
  · exact Fault.eq_ok_of_toOption (by decide +kernel)
  · rw [hanswers (by decide +kernel) linted htrusts]
    decide +kernel

end CheckCall

end EditorService.Feature
