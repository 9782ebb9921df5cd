import EditorService.Proofs.LinterReports

/-!
# Diagnostics on the lines they are about

A linter counts lines from one, and each of the linters' reports is made into a diagnostic by code of its own. A diagnostic
should start and end on the line of its report, and not reach past the end of that line (`OnLine`).

* **Lines** (`diagnosed_eq`): a diagnostic is on the right line, and ends where the kind of report says (`reach`).
* **Ends** (`reach_le_iff`): two kinds of reports look at another line to see where the diagnostic ends. A complexity is
  drawn as far as the line after it is long, and a finding about documentation as far as the first line.

**The law** (`diagnostic_on_line_iff`): a report about a line of the document is made into a diagnostic on that line exactly
if it fits, which only reports of these two kinds can fail to do. Only a complexity on the last line ends in a fault. What a
linter answers is made of such diagnostics.
-/

namespace EditorService

/-- No line of a text is empty, for it has its break at least. -/
theorem Text.ne_nil_of_mem_lines {text line : List Char} (h : line ∈ Text.lines text) : line ≠ [] := by
  fun_induction Text.lines text with
  | case1 => exact absurd h List.not_mem_nil
  | case2 c =>
    cases List.mem_singleton.mp h
    exact List.cons_ne_nil c []
  | case3 c d rest _ _ ih =>
    rcases List.mem_cons.mp h with rfl | h
    · exact List.cons_ne_nil _ _
    · exact ih h
  | case4 c d rest _ _ ih =>
    rcases List.mem_cons.mp h with rfl | h
    · exact List.cons_ne_nil _ _
    · exact ih h
  | case5 c d rest _ ih =>
    cases hlines : Text.lines (d :: rest) with
    | nil =>
      rw [hlines] at h
      cases List.mem_singleton.mp h
      exact List.cons_ne_nil _ _
    | cons first more =>
      rw [hlines] at h ih
      rcases List.mem_cons.mp h with rfl | h
      · exact List.cons_ne_nil _ _
      · exact ih (List.mem_cons_of_mem first h)

namespace Lint

open EditorService.Lint.OutputLine
open EditorService.Protocol (Range Severity)

/-! ## Lines counted from one -/

/-- How long a line is. Past the end of the document there is nothing. -/
def width (lines : List (List Char)) (line : Int) : Int := ((lines[(line - 1).toNat]?).getD []).length

/-- **A range on a line**: it starts and ends there, and does not reach past the end of the line. -/
structure OnLine (lines : List (List Char)) (line : Int) (r : Range) : Prop where
  start : r.start.line = line - 1
  stop : r.stop.line = line - 1
  least : 0 ≤ r.stop.character
  most : r.stop.character ≤ width lines line

variable {lines : List (List Char)} {line : Int}

theorem at?_line (hfirst : 1 ≤ line) (hlast : line ≤ lines.length) :
    ∃ text ∈ lines, SignedIndex.at? lines (line - 1) = some text ∧ (text.length : Int) = width lines line := by
  have hplace : (line - 1).toNat < lines.length := by omega
  have hindex : ((line - 1).toNat : Int) = line - 1 := by omega
  obtain ⟨text, hat⟩ : ∃ text, lines[(line - 1).toNat]? = some text := ⟨_, List.getElem?_eq_getElem hplace⟩
  refine ⟨text, List.mem_of_getElem? hat, ?_, ?_⟩
  · rw [← hindex, SignedIndex.at?_ofNat, hat]
  · rw [width, hat]
    rfl

theorem lineLength_line (hfirst : 1 ≤ line) (hlast : line ≤ lines.length) :
    lineLength lines (line - 1) = .ok (width lines line) := by
  obtain ⟨text, -, hat, hlength⟩ := at?_line hfirst hlast
  exact ProcessLinter.lineLength_eq_ok_iff.mpr ⟨text, hat, hlength.symm⟩

/-- Behind the last line there is none to look at. -/
theorem lineLength_past_end (h : (lines.length : Int) ≤ line) : ∃ f, lineLength lines line = .error f := by
  cases hlength : lineLength lines line with
  | error f => exact ⟨f, rfl⟩
  | ok length =>
    obtain ⟨text, hat, -⟩ := ProcessLinter.lineLength_eq_ok_iff.mp hlength
    have hsome := (SignedIndex.isSome_at?_iff lines line).mp (Option.isSome_iff_exists.mpr ⟨text, hat⟩)
    omega

theorem range_eq {r : Range} {first stop : Int} (hstart : r.start = ⟨line - 1, first⟩) (hline : r.stop.line = line - 1)
    (hstop : r.stop.character = stop) : r = Range.onLine (line - 1) first stop := by
  obtain ⟨start, stopLine, character⟩ := r
  cases hstart
  cases hline
  cases hstop
  rfl

namespace Report

/-! ## Reports about a line -/

/-- Whether the style checker's rules pass over a finding. -/
def passesOver (rules : Tool.StyleReport) (text : String) : Bool :=
  rules.ignored.contains (String.ofList (text.toList.take 4)) ||
    (rules.expected.getD []).contains (String.ofList (text.toList.take 4))

/-- **A report about a line** that is complete and is to be shown: a complexity that reaches the threshold, a message whose
template can be filled, a finding that is not passed over, a line of output or an entry that has all its parts. -/
def About (line : Int) : Report → Prop
  | .complexity threshold function =>
    function.line = line ∧ ∃ least, threshold.number = .ok least ∧ least ≤ function.complexity
  | .documentation finding => finding.line = line
  | .names (.flake _ place _ message args) => place = line ∧ ∃ text, Text.fillTemplate message.toList args = .ok text
  | .names _ => False
  | .style rules place _ text => place = line ∧ text ≠ "" ∧ passesOver rules text = false
  | .output linter text => Text.IsBare text ∧ ∃ o, Reads linter.mark text o ∧
    o.line ≠ [] ∧ o.column ≠ [] ∧ linter.knows o.code = true ∧ (Text.decimal o.line : Int) = line
  | .listed before entry => entry.item "line" = .ok (.int line) ∧
    (∃ column, entry.item "column" = .ok (.int column)) ∧
    (∃ kind, entry.item "type" = .ok kind ∧ ((Pylint.severityOfKind? kind).isSome = true ∨ before.isSome = true)) ∧
    (∃ symbol, entry.item "symbol" = .ok symbol) ∧ (∃ message, entry.item "message" = .ok message) ∧
    ∃ code, entry.item "message-id" = .ok code

/-- Whether the line after the one of the report is looked at. -/
def looksAhead : Report → Bool
  | .complexity _ _ => true
  | _ => false

/-- **Where a diagnostic ends.** -/
def reach (lines : List (List Char)) (line : Int) : Report → Int
  | .complexity _ _ => width lines (line + 1)
  | .documentation _ => width lines 1
  | .output linter _ => width lines line - linter.margin
  | _ => width lines line

/-- **A report that fits its line**: where another line is looked at, there is one, and it is not longer. -/
def Fits (lines : List (List Char)) (line : Int) : Report → Prop
  | .complexity _ _ => line < lines.length ∧ width lines (line + 1) ≤ width lines line
  | .documentation _ => width lines 1 ≤ width lines line
  | _ => True

/-! ## What reports are made into -/

/-- A complexity that reaches the threshold is shown as far as the line after it is long. -/
theorem complexity_eq (lines : List (List Char)) {threshold : Value} {function : Tool.Complexity} {least : Int}
    (hleast : threshold.number = .ok least) (hle : least ≤ function.complexity) :
    ∃ made : Int → Diagnostic,
      Complexity.diagnostic? (.ok lines) threshold function =
        (lineLength lines function.line).map (fun stop => some (made stop)) ∧
      ∀ stop, (made stop).range = Range.onLine (function.line - 1) function.column stop ∧ (made stop).column = none := by
  refine ⟨fun stop => {
    source := "mccabe"
    range := Range.onLine (function.line - 1) function.column stop
    message := .str ("Cyclomatic complexity too high: " ++ toString function.complexity ++ " (threshold " ++
      threshold.plain ++ ")")
    severity := .warning }, ?_, fun _ => ⟨rfl, rfl⟩⟩
  have hnot : ¬ function.complexity < least := by omega
  rw [Complexity.diagnostic?, hleast]
  show (if function.complexity < least then _ else _) = _
  rw [if_neg hnot]
  show (lineLength lines function.line >>= _) = _
  cases lineLength lines function.line <;> rfl

theorem style_eq {rules : Tool.StyleReport} {column stop : Int} {text : String} (hlast : line ≤ lines.length)
    (hlength : lineLength lines (line - 1) = .ok stop) (hne : text ≠ "") (hpass : passesOver rules text = false) :
    ∃ shown, Style.diagnostic? rules lines line column text = .ok (some shown) ∧
      shown.range = Range.onLine (line - 1) column stop ∧ shown.column = none := by
  have hnot : ¬ (lines.length : Int) < line := by omega
  obtain ⟨c, rest, hcode⟩ : ∃ c rest, text.toList.take 4 = c :: rest := by
    cases htext : text.toList with
    | nil => exact absurd (String.toList_eq_nil_iff.mp htext) hne
    | cons c rest => exact ⟨c, rest.take 3, rfl⟩
  have hseverity : Style.severity (text.toList.take 4) = .ok (if c == 'E' || c == 'W' then .warning else .information) := by
    rw [hcode, Style.severity]
  unfold passesOver at hpass
  simp only [Style.diagnostic?, hpass, hnot, hlength, hseverity, if_false, Bool.false_eq_true]
  exact ⟨_, rfl, rfl, rfl⟩

theorem listed_eq {before : Option Severity} {entry : Value} (hne : lines ≠ []) {stop : Int}
    (hlength : lineLength lines (line - 1) = .ok stop) (h : (Report.listed before entry).About line) :
    ∃ shown first, Pylint.entryDiagnostic (.ok lines) before entry = .ok shown ∧
      shown.1.range = Range.onLine (line - 1) first stop ∧ shown.1.column = none := by
  obtain ⟨hline, ⟨column, hcolumn⟩, ⟨kind, hkind, hknown⟩, ⟨symbol, hsymbol⟩, ⟨message, hmessage⟩, code, hcode⟩ := h
  obtain ⟨severity, hseverity⟩ : ∃ severity, (Pylint.severityOfKind? kind <|> before) = some severity := by
    cases hkindly : Pylint.severityOfKind? kind with
    | some severity => exact ⟨severity, rfl⟩
    | none =>
      rw [hkindly] at hknown
      exact Option.isSome_iff_exists.mp (hknown.resolve_left Bool.false_ne_true)
  have hsome : lines.isEmpty = false := List.isEmpty_eq_false_iff.mpr hne
  have hbind : ∀ {α β : Type} (a : α) (next : α → Except Fault β), (Except.ok a >>= next) = next a := fun _ _ => rfl
  simp only [Pylint.entryDiagnostic, hbind, hline, hcolumn, Value.number, hsome, Bool.false_eq_true, if_false, hlength,
    hkind, hsymbol, hmessage, hseverity, hcode]
  exact ⟨_, column, rfl, rfl, rfl⟩

/-- **A diagnostic is on the line of its report**, and ends where the kind of report says. -/
theorem diagnosed_eq {r : Report} (hr : r.About line) (hfirst : 1 ≤ line) (hlast : line ≤ lines.length)
    (hahead : r.looksAhead = true → line < lines.length) :
    ∃ shown first, r.diagnosed lines = .ok [shown] ∧
      shown.range = Range.onLine (line - 1) first (r.reach lines line) ∧ shown.column = none := by
  have hlength : lineLength lines (line - 1) = .ok (width lines line) := lineLength_line hfirst hlast
  cases r with
  | complexity threshold function =>
    obtain ⟨rfl, least, hleast, hle⟩ := hr
    obtain ⟨made, heq, hrange⟩ := complexity_eq lines hleast hle
    have hnext : lineLength lines function.line = .ok (width lines (function.line + 1)) := by
      have hbefore : function.line < lines.length := hahead rfl
      rw [← lineLength_line (by omega) (by omega), Int.add_sub_cancel]
    refine ⟨_, _, ?_, hrange _⟩
    rw [diagnosed, heq, hnext]
    rfl
  | documentation finding =>
    cases hr
    have hwidth : (lines.headD []).length = width lines 1 := by
      cases lines <;> rfl
    exact ⟨_, _, rfl, congrArg (Range.onLine _ _) hwidth, rfl⟩
  | names event =>
    cases event with
    | syntaxError | unexpected => exact absurd hr id
    | flake kind place column message args =>
      obtain ⟨rfl, text, htext⟩ := hr
      obtain ⟨shown, hshown, hrange⟩ : ∃ shown, Names.diagnostic lines (.flake kind place column message args) = .ok shown ∧
          shown.range = Range.onLine (place - 1) column (width lines place) ∧ shown.column = none :=
        ⟨_, Fault.bind_eq_ok.mpr ⟨_, hlength, Fault.bind_eq_ok.mpr ⟨_, htext, rfl⟩⟩, rfl, rfl⟩
      refine ⟨shown, column, ?_, hrange⟩
      rw [diagnosed, hshown]
      rfl
  | style rules place column text =>
    obtain ⟨rfl, hne, hpass⟩ := hr
    obtain ⟨shown, hshown, hrange⟩ := style_eq hlast hlength hne hpass
    refine ⟨shown, column, ?_, hrange⟩
    rw [diagnosed, hshown]
    rfl
  | output linter text =>
    obtain ⟨hbare, o, hreads, hsomeLine, hsomeColumn, hknown, rfl⟩ := hr
    have hsound : linter.Sound lines.length o := ⟨hsomeLine, hsomeColumn, hknown, by omega, by omega⟩
    obtain ⟨shown, hshown⟩ := ProcessLinter.diagnostic_of_sound hreads.1 hsound
    obtain ⟨-, hshows⟩ := ProcessLinter.shows_of_diagnostic hreads.1 hshown
    obtain ⟨found, hfound, hstop⟩ := hshows.stop
    obtain ⟨known, -, hat, hwidth⟩ := at?_line hfirst hlast
    cases hfound.symm.trans hat
    rw [hwidth] at hstop
    refine ⟨shown, _, ?_, range_eq hshows.start hshows.line hstop, hshows.column⟩
    rw [diagnosed, ProcessLinter.parse_of_reads lines hbare hreads, hshown]
    rfl
  | listed before entry =>
    have hne : lines ≠ [] := by
      rintro rfl
      exact absurd hlast (by simp; omega)
    obtain ⟨shown, first, hshown, hrange⟩ := listed_eq hne hlength hr
    refine ⟨shown.1, first, ?_, hrange⟩
    rw [diagnosed, hshown]
    rfl

/-- A complexity on the last line does not fit, and ends in a fault. -/
theorem diagnosed_ahead {r : Report} (hr : r.About line) (hahead : r.looksAhead = true) (hlast : line = lines.length) :
    (∃ f, r.diagnosed lines = .error f) ∧ ¬ r.Fits lines line := by
  cases r with
  | complexity threshold function =>
    obtain ⟨rfl, least, hleast, hle⟩ := hr
    obtain ⟨made, heq, -⟩ := complexity_eq lines hleast hle
    obtain ⟨f, hf⟩ := lineLength_past_end (Int.le_of_eq hlast.symm)
    refine ⟨⟨f, ?_⟩, fun hfits => ?_⟩
    · rw [diagnosed, heq, hf]
      rfl
    · have hbefore : function.line < lines.length := hfits.1
      omega
  | _ => cases hahead

theorem lt_of_not_past {r : Report} (hlast : line ≤ lines.length) (h : ¬ (r.looksAhead = true ∧ line = lines.length)) :
    r.looksAhead = true → line < lines.length := by
  intro hahead
  have hne : line ≠ lines.length := fun heq => h ⟨hahead, heq⟩
  omega

/-- **A report is made into one diagnostic**, if it is made into any, and the diagnostic's range is in numbers. -/
theorem diagnosed_single {r : Report} (hr : r.About line) (hfirst : 1 ≤ line) (hlast : line ≤ lines.length)
    {ds : List Diagnostic} (h : r.diagnosed lines = .ok ds) : ∃ shown, ds = [shown] ∧ shown.column = none := by
  by_cases hpast : r.looksAhead = true ∧ line = lines.length
  · obtain ⟨⟨f, hf⟩, -⟩ := diagnosed_ahead hr hpast.1 hpast.2
    cases hf.symm.trans h
  · obtain ⟨shown, first, hshown, -, hcolumn⟩ := diagnosed_eq hr hfirst hlast (lt_of_not_past hlast hpast)
    cases hshown.symm.trans h
    exact ⟨shown, rfl, hcolumn⟩

theorem width_nonneg (lines : List (List Char)) (line : Int) : 0 ≤ width lines line := Int.natCast_nonneg _

/-- In a document no diagnostic ends before its line starts. -/
theorem reach_nonneg {text : List Char} (hlines : lines = Text.lines text) (hfirst : 1 ≤ line) (hlast : line ≤ lines.length)
    (r : Report) : 0 ≤ r.reach lines line := by
  cases r with
  | output linter text =>
    -- A margin is cut off here, and a line has room for it.
    obtain ⟨known, hmem, -, hwidth⟩ := at?_line hfirst hlast
    have hne : known ≠ [] := Text.ne_nil_of_mem_lines (hlines ▸ hmem)
    have hpos : 0 < known.length := List.length_pos_iff.mpr hne
    have hmargin : linter.margin ≤ 1 := by cases linter <;> decide
    show 0 ≤ width lines line - linter.margin
    omega
  | _ => exact width_nonneg lines _

/-- **Only two kinds of reports can reach too far.** -/
theorem reach_le_iff (r : Report) (hahead : r.looksAhead = true → line < lines.length) :
    r.reach lines line ≤ width lines line ↔ r.Fits lines line := by
  cases r with
  | complexity threshold function => exact ⟨fun h => ⟨hahead rfl, h⟩, fun h => h.2⟩
  | documentation finding => exact Iff.rfl
  | output linter text =>
    have hmargin : 0 ≤ linter.margin := by cases linter <;> decide
    exact ⟨fun _ => trivial, fun _ => by show width lines line - linter.margin ≤ _; omega⟩
  | _ => exact ⟨fun _ => trivial, fun _ => Int.le_refl _⟩

/-- A report that a linter made is among those whose diagnostics it publishes. -/
theorem publishes_report {d : Document} {files : FileTree} (hlines : d.lines files = .ok lines) {r : Report}
    (hr : r.About line) (hfirst : 1 ≤ line) (hlast : line ≤ lines.length) {p : BuiltIn} {q : Question} {v : DocumentView}
    {b : Bench} {answer : Value} (hlint : Hook.lint ∈ p.hooks) (hhook : q.hook = .lint) (hdocument : q.document = some v)
    (hown : v.document = d) (hfiles : b.host.files = files) (h : ((p.answer q).perform b).1 = .ok answer) :
    Silent b q v p answer ∨ ∃ rs found, Made b q v p rs ∧ allDiagnosed lines rs = .ok found ∧
      answer = .list (found.map Diagnostic.toValue) ∧
      (r ∈ rs → ∃ shown ∈ found, r.diagnosed lines = .ok [shown] ∧
        (do Range.ofValue (← shown.toValue.item "range")) = .ok shown.range) := by
  subst hown hfiles
  refine (lint_publishes hlint hhook hdocument hlines h).imp_right ?_
  rintro ⟨rs, found, hmade, hfound, hanswer⟩
  refine ⟨rs, found, hmade, hfound, hanswer, fun hmem => ?_⟩
  obtain ⟨ds, hds, hsub⟩ := diagnosed_of_mem hfound hmem
  obtain ⟨shown, rfl, hcolumn⟩ := diagnosed_single hr hfirst hlast hds
  exact ⟨shown, hsub List.mem_cons_self, hds, shown.saidBy_toValue.range hcolumn⟩

/-- **A report about a line of the document is made into one diagnostic on that line, exactly if it fits.** It ends in a
fault exactly if it looks at the line after the last one. A diagnostic is on the line of its report in any case; what does
not fit reaches past its end. A linter that answers a question about the document publishes the diagnostics of the reports
that it made, this one among them if it made it, and their dictionaries have their ranges; or it has nothing new to say. -/
theorem diagnostic_on_line_iff {d : Document} {files : FileTree} (hlines : d.lines files = .ok lines) {r : Report}
    (hr : r.About line) (hfirst : 1 ≤ line) (hlast : line ≤ lines.length) :
    ((∃ shown, r.diagnosed lines = .ok [shown] ∧ OnLine lines line shown.range) ↔ r.Fits lines line) ∧
    ((∃ f, r.diagnosed lines = .error f) ↔ r.looksAhead = true ∧ line = lines.length) ∧
    (∀ found, r.diagnosed lines = .ok found → ∃ shown, found = [shown] ∧ shown.range.start.line = line - 1 ∧
      shown.range.stop.line = line - 1 ∧ 0 ≤ shown.range.stop.character) ∧
    ∀ (p : BuiltIn) (q : Question) (v : DocumentView) (b : Bench) (answer : Value), Hook.lint ∈ p.hooks →
      q.hook = .lint → q.document = some v → v.document = d → b.host.files = files →
      ((p.answer q).perform b).1 = .ok answer →
        Silent b q v p answer ∨ ∃ rs found, Made b q v p rs ∧ allDiagnosed lines rs = .ok found ∧
          answer = .list (found.map Diagnostic.toValue) ∧
          (r ∈ rs → ∃ shown ∈ found, r.diagnosed lines = .ok [shown] ∧
            (do Range.ofValue (← shown.toValue.item "range")) = .ok shown.range) := by
  obtain ⟨source, -, hsource⟩ := Fault.bind_eq_ok.mp hlines
  have htext : lines = Text.lines source.toList := (Except.ok.inj hsource).symm
  have hreach := reach_nonneg htext hfirst hlast r
  by_cases hpast : r.looksAhead = true ∧ line = lines.length
  · obtain ⟨⟨f, hf⟩, hunfit⟩ := diagnosed_ahead hr hpast.1 hpast.2
    refine ⟨⟨?_, fun hfits => absurd hfits hunfit⟩, ⟨fun _ => hpast, fun _ => ⟨f, hf⟩⟩, ?_,
      fun p q v b answer => publishes_report hlines hr hfirst hlast⟩
    · rintro ⟨shown, hshown, -⟩
      cases hf.symm.trans hshown
    · intro found hfound
      cases hf.symm.trans hfound
  · have hahead := lt_of_not_past hlast hpast
    obtain ⟨shown, first, hshown, hrange, -⟩ := diagnosed_eq hr hfirst hlast hahead
    rw [← reach_le_iff r hahead]
    refine ⟨⟨?_, fun hle => ⟨shown, hshown, ?_⟩⟩, ⟨?_, fun h => absurd h hpast⟩, ?_,
      fun p q v b answer => publishes_report hlines hr hfirst hlast⟩
    · rintro ⟨other, hother, hon⟩
      cases hshown.symm.trans hother
      have hmost := hon.most
      rwa [hrange] at hmost
    · rw [hrange]
      exact ⟨rfl, rfl, hreach, hle⟩
    · rintro ⟨f, hf⟩
      cases hshown.symm.trans hf
    · intro found hfound
      cases hshown.symm.trans hfound
      refine ⟨shown, rfl, ?_⟩
      rw [hrange]
      exact ⟨rfl, rfl, hreach⟩

/-- A document of two lines, the first one the longer. -/
def twoLines : Document where
  uri := "file:///ws/a.py"
  path := "/ws/a.py"
  dottedName := "a"
  fileName := "a.py"
  source := some "def f(): pass\nx"
  home := 0

/-- On the last line a complexity ends in a fault, a finding about documentation reaches too far, and a line of output is
shown where it should be. -/
theorem diagnostic_on_line_iff_last_line :
    (∃ f, (complexity (.int 15) ⟨2, 0, 20⟩).diagnosed ["def f(): pass\n".toList, ['x']] = .error f) ∧
    (¬ ∃ shown, (documentation ⟨"D103", "Missing docstring", 2⟩).diagnosed ["def f(): pass\n".toList, ['x']] = .ok [shown] ∧
      OnLine ["def f(): pass\n".toList, ['x']] 2 shown.range) ∧
    ∃ shown, (output .pylint "a.py:2:0: W0104: Statement seems to have no effect".toList).diagnosed
        ["def f(): pass\n".toList, ['x']] = .ok [shown] ∧
      OnLine ["def f(): pass\n".toList, ['x']] 2 shown.range := by
  have hlines : twoLines.lines {} = .ok ["def f(): pass\n".toList, ['x']] := by decide +kernel
  have hcomplexity : (complexity (.int 15) ⟨2, 0, 20⟩).About 2 := ⟨rfl, 15, rfl, by decide⟩
  have hdocumentation : (documentation ⟨"D103", "Missing docstring", 2⟩).About 2 := rfl
  have houtput : (output .pylint "a.py:2:0: W0104: Statement seems to have no effect".toList).About 2 := by
    refine ⟨by decide +kernel,
      ⟨['2'], ['0'], "W0104".toList, "Statement seems to have no effect".toList⟩, ?_⟩
    rw [← read?_eq_some_iff ProcessLinter.pylint.endsCode_mark]
    decide +kernel
  refine ⟨?_, ?_, ?_⟩
  · exact (diagnostic_on_line_iff hlines hcomplexity (by decide) (by decide)).2.1.mpr ⟨rfl, rfl⟩
  · rw [(diagnostic_on_line_iff hlines hdocumentation (by decide) (by decide)).1]
    show ¬ width _ 1 ≤ width _ 2
    decide +kernel
  · exact (diagnostic_on_line_iff hlines houtput (by decide) (by decide)).1.mpr trivial

end Report

end Lint

end EditorService
