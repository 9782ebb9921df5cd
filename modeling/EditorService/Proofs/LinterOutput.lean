import EditorService.Lint.Flake8
import EditorService.Lint.Pylint
import EditorService.Proofs.FeatureJobs
import EditorService.Proofs.OutputLines

/-!
# The output of linters that run as processes

Flake8 and pylint print one finding per line. The two differ in what stands behind the code, in the number of the first
column, in where a diagnostic ends and in what is shown of the message; `ProcessLinter` has these differences, and all
else is said for both.

**Line by line** (`output_read_iff_lines_taken`). A line that does not look like a finding is passed over. A line that
does can still be one that cannot be shown: without a number, behind the end of the document, or of a severity that is
not known. `Takes` says that a line is not of this kind. If all lines are taken, the output gives what the lines give.
If not, the first line that is not taken is the end of it, and the findings of all other lines are lost.

**Read back** (`findings_read_back`). Findings that were written one per line are read as they were, and stand in the
dictionaries of the answer. The path needs no care: it may hold colons and numbers, or look like a finding itself, since the
last place that looks like one counts. Only the message must not look like one.
-/

namespace EditorService

namespace SignedIndex

theorem isSome_at?_iff {α : Type} (xs : List α) (i : Int) :
    (at? xs i).isSome = true ↔ -(xs.length : Int) ≤ i ∧ i < xs.length := by
  unfold at? offset?
  by_cases hfront : 0 ≤ i
  · simp only [if_pos hfront, isSome_getElem?]
    omega
  · by_cases hback : 0 ≤ i + xs.length
    · simp only [if_neg hfront, if_pos hback, isSome_getElem?]
      omega
    · simp only [if_neg hfront, if_neg hback, Option.isSome_none, Bool.false_eq_true, false_iff]
      omega

end SignedIndex

namespace Lint

open EditorService.Lint.OutputLine
open EditorService.Protocol (Range Severity)

/-- **A dictionary says what a diagnostic does.** The range is there in numbers if the column is one. -/
structure Diagnostic.SaidBy (d : Diagnostic) (v : Value) : Prop where
  source : v.item "source" = .ok (.str d.source)
  code : ∀ code, d.code = some code → v.item "code" = .ok code
  range : d.column = none → (do Range.ofValue (← v.item "range")) = .ok d.range
  message : v.item "message" = .ok d.message
  severity : v.item "severity" = .ok (.int d.severity.code)

theorem Diagnostic.saidBy_toValue (d : Diagnostic) : d.SaidBy d.toValue := by
  obtain ⟨source, range, message, severity, code, column⟩ := d
  have hrange : column = none →
      Range.ofValue (Diagnostic.mk source range message severity code column).rangeValue = .ok range := by
    rintro rfl
    rfl
  cases code with
  | none => exact ⟨rfl, fun _ h => absurd h.symm (Option.some_ne_none _), hrange, rfl, rfl⟩
  | some code => exact ⟨rfl, fun _ h => congrArg Except.ok (Option.some.inj h), hrange, rfl, rfl⟩

/-- **The linters that run as processes.** -/
inductive ProcessLinter where
  | flake8
  | pylint
  deriving DecidableEq, Repr

namespace ProcessLinter

/-- What stands between a code and a message. -/
def mark : ProcessLinter → List Char
  | .flake8 => [' ']
  | .pylint => [':', ' ']

/-- The diagnostic of one finding. -/
def diagnostic : ProcessLinter → List (List Char) → OutputLine → Except Fault Diagnostic
  | .flake8 => Flake8.diagnostic
  | .pylint => Pylint.diagnostic

/-- Reads the output for the lines of a document. -/
def parse : ProcessLinter → List (List Char) → List Char → Except Fault (List Diagnostic)
  | .flake8 => Flake8.parse
  | .pylint => Pylint.parse

/-- Reads the output for a document. -/
def parseFor : ProcessLinter → DocumentView → String → Job Value
  | .flake8 => Flake8.parseFor
  | .pylint => Pylint.parseFor

/-- The linter's name. -/
def name : ProcessLinter → String
  | .flake8 => "flake8"
  | .pylint => "pylint"

/-- How serious a finding is, by its code. -/
def severity : ProcessLinter → List Char → Except Fault Severity
  | .flake8 => fun _ => .ok .warning
  | .pylint => Pylint.severityOfCode

/-- The number that the linter gives to the first column. -/
def firstColumn : ProcessLinter → Int
  | .flake8 => 1
  | .pylint => 0

/-- How many characters before the end of its line a diagnostic ends. -/
def margin : ProcessLinter → Int
  | .flake8 => 0
  | .pylint => 1

/-- What is shown of a finding. -/
def messageOf (l : ProcessLinter) (code message : List Char) : List Char :=
  match l with
  | .flake8 => code ++ ' ' :: message
  | .pylint => message

/-- Whether a code tells how serious a finding is. -/
def knows (l : ProcessLinter) (code : List Char) : Bool :=
  match l with
  | .flake8 => true
  | .pylint => code.head?.any ['C', 'E', 'F', 'R', 'W'].contains

theorem endsCode_mark (l : ProcessLinter) : EndsCode l.mark := by
  cases l with
  | flake8 => exact ⟨' ', [], rfl, by decide⟩
  | pylint => exact ⟨':', [' '], rfl, by decide⟩

theorem read?_mark (l : ProcessLinter) (text : List Char) : read? l.mark (l.mark ++ text) = read? l.mark text := by
  cases l with
  | flake8 => exact read?_skip (by decide) text
  | pylint =>
    exact (read?_cons_of_tail? (tail?_colon_blank text)).trans (read?_cons_of_tail? (tail?_of_ne_colon (by decide) text))

theorem parse_eq (l : ProcessLinter) (lines : List (List Char)) (output : List Char) :
    l.parse lines output = findings l.mark (l.diagnostic lines) output := by
  cases l <;> rfl

/-- What a process has found, for a reader of findings that looks at the files. -/
theorem perform_findings (mark : List Char) (finding : FileTree → OutputLine → Except Fault Diagnostic) (output : List Char)
    (b : Bench) :
    Job.perform (do
      let files ← Job.files
      let found ← Job.ofExcept (findings mark (finding files) output)
      return Value.list (found.map Diagnostic.toValue)) b =
      ((findings mark (finding b.host.files) output).map fun found => .list (found.map Diagnostic.toValue), b) := by
  rw [Job.perform_bind]
  show Job.perform (Job.ofExcept (findings mark (finding b.host.files) output) >>= _) b = _
  rw [Job.perform_bind, Job.perform_ofExcept]
  cases findings mark (finding b.host.files) output with
  | ok found => rfl
  | error f => rfl

/-- **What is read for a document is what is read for its lines.** -/
theorem perform_parseFor (l : ProcessLinter) {v : DocumentView} {b : Bench} {lines : List (List Char)}
    (hlines : v.document.lines b.host.files = .ok lines) (output : String) :
    (l.parseFor v output).perform b =
      ((l.parse lines output.toList).map fun found => .list (found.map Diagnostic.toValue), b) := by
  -- The numbers are read once before the lines are asked for, and once after: with lines there is no difference.
  cases l with
  | flake8 =>
    refine (perform_findings [' '] _ output.toList b).trans ?_
    have hfinding : (fun o : OutputLine => do
        let _ ← number o.line
        let _ ← number o.column
        Flake8.diagnostic (← v.document.lines b.host.files) o) = Flake8.diagnostic lines := by
      funext o
      simp only [hlines, Flake8.diagnostic]
      cases number o.line <;> cases number o.column <;> rfl
    rw [hfinding]
    rfl
  | pylint =>
    refine (perform_findings [':', ' '] _ output.toList b).trans ?_
    have hfinding : (fun o : OutputLine => do
        let _ ← number o.line
        let _ ← number o.column
        let _ ← Pylint.severityOfCode o.code
        Pylint.diagnostic (← v.document.lines b.host.files) o) = Pylint.diagnostic lines := by
      funext o
      simp only [hlines, Pylint.diagnostic]
      cases number o.line <;> cases number o.column <;> cases Pylint.severityOfCode o.code <;> rfl
    rw [hfinding]
    rfl

theorem perform_parseFor_eq_ok (l : ProcessLinter) {v : DocumentView} {b : Bench} {lines : List (List Char)}
    (hlines : v.document.lines b.host.files = .ok lines) {output : String} {answer : Value} :
    ((l.parseFor v output).perform b).1 = .ok answer ↔
      ∃ found, l.parse lines output.toList = .ok found ∧ answer = .list (found.map Diagnostic.toValue) := by
  rw [perform_parseFor l hlines]
  exact Fault.map_eq_ok

/-! ## One finding -/

/-- **A finding that can be shown** in a document of so many lines: both numbers are there, the severity is known, and so
is the line. Line zero stands for the last one. -/
def Sound (l : ProcessLinter) (height : Nat) (o : OutputLine) : Prop :=
  o.line ≠ [] ∧ o.column ≠ [] ∧ l.knows o.code = true ∧ 0 < height ∧ Text.decimal o.line ≤ height

/-- **A diagnostic shows a finding.** -/
structure Shows (l : ProcessLinter) (lines : List (List Char)) (o : OutputLine) (d : Diagnostic) : Prop where
  start : d.range.start = ⟨Text.decimal o.line - 1, Text.decimal o.column - l.firstColumn⟩
  line : d.range.stop.line = Text.decimal o.line - 1
  stop : ∃ text, SignedIndex.at? lines (Text.decimal o.line - 1) = some text ∧
    d.range.stop.character = text.length - l.margin
  column : d.column = none
  code : d.code = some (.str (String.ofList o.code))
  message : d.message = .str (String.ofList (l.messageOf o.code o.message))
  source : d.source = l.name
  severity : l.severity o.code = .ok d.severity

instance (l : ProcessLinter) (height : Nat) (o : OutputLine) : Decidable (l.Sound height o) :=
  inferInstanceAs (Decidable (_ ∧ _))

theorem number_eq_ok_iff {s : List Char} (h : ∀ c ∈ s, Text.isDigit c = true) {n : Int} :
    number s = .ok n ↔ s ≠ [] ∧ n = Text.decimal s := by
  constructor
  · intro hn
    have hne : s ≠ [] := by
      rintro rfl
      cases hn
    rw [number, Text.readInt?_digits hne h] at hn
    exact ⟨hne, (Except.ok.inj hn).symm⟩
  · rintro ⟨hne, rfl⟩
    rw [number, Text.readInt?_digits hne h]

theorem lineLength_eq_ok_iff {lines : List (List Char)} {i length : Int} :
    lineLength lines i = .ok length ↔ ∃ text, SignedIndex.at? lines i = some text ∧ length = text.length := by
  constructor
  · intro h
    cases htext : SignedIndex.get lines i with
    | error f =>
      rw [lineLength, htext] at h
      cases h
    | ok text =>
      rw [lineLength, htext] at h
      exact ⟨text, (SignedIndex.get_eq_ok_iff lines i text).mp htext, (Except.ok.inj h).symm⟩
  · rintro ⟨text, htext, rfl⟩
    rw [lineLength, (SignedIndex.get_eq_ok_iff lines i text).mpr htext]
    rfl

theorem knows_iff {code : List Char} :
    ProcessLinter.pylint.knows code = true ↔ ∃ severity, Pylint.severityOfCode code = .ok severity := by
  cases code with
  | nil =>
    constructor
    · intro h
      cases h
    · rintro ⟨severity, h⟩
      cases h
  | cons c rest =>
    have hletters : ProcessLinter.pylint.knows (c :: rest) = true ↔ c = 'C' ∨ c = 'E' ∨ c = 'F' ∨ c = 'R' ∨ c = 'W' := by
      simp [knows]
    rw [hletters]
    constructor
    -- Each of the letters has a severity, and no other branch leads to one.
    · rintro (rfl | rfl | rfl | rfl | rfl) <;> exact ⟨_, rfl⟩
    · rintro ⟨severity, h⟩
      unfold Pylint.severityOfCode at h
      grind

/-- The line that a number names, counted from one: there is one exactly if the document has so many. -/
theorem line_at_iff {lines : List (List Char)} (n : Nat) :
    (∃ text, SignedIndex.at? lines (n - 1) = some text) ↔ 0 < lines.length ∧ n ≤ lines.length := by
  rw [← Option.isSome_iff_exists, SignedIndex.isSome_at?_iff]
  omega

/-- **A finding that can be shown is shown.** -/
theorem diagnostic_of_sound {l : ProcessLinter} {lines : List (List Char)} {o : OutputLine} (ho : o.Spelled)
    (h : l.Sound lines.length o) : ∃ d, l.diagnostic lines o = .ok d := by
  obtain ⟨hsomeLine, hsomeColumn, hknown, hplace⟩ := h
  obtain ⟨text, htext⟩ := (line_at_iff _).mpr hplace
  have hline : number o.line = .ok (Text.decimal o.line : Int) := (number_eq_ok_iff ho.line).mpr ⟨hsomeLine, rfl⟩
  have hcolumn : number o.column = .ok (Text.decimal o.column : Int) := (number_eq_ok_iff ho.column).mpr ⟨hsomeColumn, rfl⟩
  have hstop : lineLength lines (Text.decimal o.line - 1) = .ok (text.length : Int) :=
    lineLength_eq_ok_iff.mpr ⟨text, htext, rfl⟩
  cases l with
  | flake8 =>
    exact ⟨_, Fault.bind_eq_ok.mpr ⟨_, hline, Fault.bind_eq_ok.mpr ⟨_, hcolumn, Fault.bind_eq_ok.mpr ⟨_, hstop, rfl⟩⟩⟩⟩
  | pylint =>
    obtain ⟨severity, hseverity⟩ := knows_iff.mp hknown
    exact ⟨_, Fault.bind_eq_ok.mpr ⟨_, hline, Fault.bind_eq_ok.mpr ⟨_, hcolumn,
      Fault.bind_eq_ok.mpr ⟨_, hseverity, Fault.bind_eq_ok.mpr ⟨_, hstop, rfl⟩⟩⟩⟩⟩

/-- **What is shown is a finding that can be**, and the diagnostic shows it. -/
theorem shows_of_diagnostic {l : ProcessLinter} {lines : List (List Char)} {o : OutputLine} {d : Diagnostic}
    (ho : o.Spelled) (h : l.diagnostic lines o = .ok d) : l.Sound lines.length o ∧ l.Shows lines o d := by
  cases l with
  | flake8 =>
    obtain ⟨_, hreadLine, h⟩ := Fault.bind_eq_ok.mp h
    obtain ⟨_, hreadColumn, h⟩ := Fault.bind_eq_ok.mp h
    obtain ⟨_, hstop, h⟩ := Fault.bind_eq_ok.mp h
    obtain ⟨hline, rfl⟩ := (number_eq_ok_iff ho.line).mp hreadLine
    obtain ⟨hcolumn, rfl⟩ := (number_eq_ok_iff ho.column).mp hreadColumn
    obtain ⟨text, htext, rfl⟩ := lineLength_eq_ok_iff.mp hstop
    cases h
    exact ⟨⟨hline, hcolumn, rfl, (line_at_iff _).mp ⟨text, htext⟩⟩,
      rfl, rfl, ⟨text, htext, (Int.sub_zero _).symm⟩, rfl, rfl, rfl, rfl, rfl⟩
  | pylint =>
    obtain ⟨_, hreadLine, h⟩ := Fault.bind_eq_ok.mp h
    obtain ⟨_, hreadColumn, h⟩ := Fault.bind_eq_ok.mp h
    obtain ⟨severity, hseverity, h⟩ := Fault.bind_eq_ok.mp h
    obtain ⟨_, hstop, h⟩ := Fault.bind_eq_ok.mp h
    obtain ⟨hline, rfl⟩ := (number_eq_ok_iff ho.line).mp hreadLine
    obtain ⟨hcolumn, rfl⟩ := (number_eq_ok_iff ho.column).mp hreadColumn
    obtain ⟨text, htext, rfl⟩ := lineLength_eq_ok_iff.mp hstop
    cases h
    have hstart : (Text.decimal o.column : Int) = Text.decimal o.column - pylint.firstColumn := (Int.sub_zero _).symm
    exact ⟨⟨hline, hcolumn, knows_iff.mpr ⟨severity, hseverity⟩, (line_at_iff _).mp ⟨text, htext⟩⟩,
      congrArg (Protocol.Position.mk _) hstart, rfl, ⟨text, htext, rfl⟩, rfl, rfl, rfl, rfl, hseverity⟩

/-! ## Line by line -/

/-- What one line of output gives. -/
theorem findings_line {α : Type} (mark : List Char) (finding : OutputLine → Except Fault α) {line : List Char}
    (h : Text.IsBare line) : findings mark finding line = ([line].filterMap (read? mark)).mapM finding := by
  by_cases hne : line = []
  · subst hne
    rfl
  · rw [findings, Text.bareLines, Text.lines_bare h hne, List.map_singleton, Text.dropBreak_bare h]

/-- Lines of output give what each of them gives. -/
theorem mapM_findings {α : Type} (mark : List Char) (finding : OutputLine → Except Fault α) {ls : List (List Char)}
    (h : ∀ line ∈ ls, Text.IsBare line) :
    (ls.filterMap (read? mark)).mapM finding = (ls.mapM (findings mark finding)).map List.flatten := by
  induction ls with
  | nil => rfl
  | cons line rest ih =>
    rw [List.mapM_cons, findings_line mark finding (h line List.mem_cons_self)]
    have hrest := ih fun l hl => h l (List.mem_cons_of_mem line hl)
    cases hread : read? mark line with
    | none =>
      have hnone : [line].filterMap (read? mark) = [] := List.filterMap_cons_none hread
      rw [List.filterMap_cons_none hread, hnone, hrest]
      cases rest.mapM (findings mark finding) <;> rfl
    | some o =>
      have hsome : [line].filterMap (read? mark) = [o] := List.filterMap_cons_some hread
      rw [List.filterMap_cons_some hread, hsome, List.mapM_cons, List.mapM_cons, hrest]
      cases finding o <;> cases rest.mapM (findings mark finding) <;> rfl

/-- **Output is read line by line.** -/
theorem parse_eq_mapM (l : ProcessLinter) (lines : List (List Char)) (output : List Char) :
    l.parse lines output = ((Text.bareLines output).mapM (l.parse lines)).map List.flatten := by
  have hparse : l.parse lines = findings l.mark (l.diagnostic lines) := funext (l.parse_eq lines)
  rw [hparse, findings, mapM_findings _ _ fun _ => Text.isBare_of_mem_bareLines]

/-- **A line that does not end in a fault**: if it can be read at all, the finding can be shown. -/
def Takes (l : ProcessLinter) (height : Nat) (line : List Char) : Prop := ∀ o, Reads l.mark line o → l.Sound height o

instance (l : ProcessLinter) (height : Nat) (line : List Char) : Decidable (l.Takes height line) :=
  decidable_of_iff (∀ o ∈ read? l.mark line, l.Sound height o)
    (forall_congr' fun _ => imp_congr_left (read?_eq_some_iff l.endsCode_mark))

theorem parse_of_not_readable (l : ProcessLinter) (lines : List (List Char)) {line : List Char} (hbare : Text.IsBare line)
    (h : ¬ Readable l.mark line) : l.parse lines line = .ok [] := by
  have hnone : [line].filterMap (read? l.mark) = [] :=
    List.filterMap_cons_none ((read?_eq_none_iff l.endsCode_mark).mpr h)
  rw [parse_eq, findings_line _ _ hbare, hnone]
  rfl

theorem parse_of_reads {l : ProcessLinter} (lines : List (List Char)) {line : List Char} (hbare : Text.IsBare line)
    {o : OutputLine} (h : Reads l.mark line o) : l.parse lines line = (l.diagnostic lines o).map fun d => [d] := by
  have hsome : [line].filterMap (read? l.mark) = [o] :=
    List.filterMap_cons_some ((read?_eq_some_iff l.endsCode_mark).mpr h)
  rw [parse_eq, findings_line _ _ hbare, hsome, List.mapM_cons]
  cases l.diagnostic lines o <;> rfl

/-- Every text that can be read says something. -/
theorem exists_reads {l : ProcessLinter} {line : List Char} (h : Readable l.mark line) : ∃ o, Reads l.mark line o := by
  cases hread : read? l.mark line with
  | none => exact absurd h ((read?_eq_none_iff l.endsCode_mark).mp hread)
  | some o => exact ⟨o, (read?_eq_some_iff l.endsCode_mark).mp hread⟩

theorem parse_line_iff {l : ProcessLinter} {lines : List (List Char)} {line : List Char} (hbare : Text.IsBare line) :
    (∃ found, l.parse lines line = .ok found) ↔ l.Takes lines.length line := by
  by_cases hreadable : Readable l.mark line
  · obtain ⟨o, ho⟩ := exists_reads hreadable
    have honly : ∀ other, Reads l.mark line other → other = o := by
      intro other hother
      have heq := (read?_eq_some_iff l.endsCode_mark).mpr hother
      rw [(read?_eq_some_iff l.endsCode_mark).mpr ho] at heq
      exact (Option.some.inj heq).symm
    rw [parse_of_reads lines hbare ho]
    constructor
    · rintro ⟨found, hfound⟩ other hother
      cases honly other hother
      obtain ⟨d, hd, -⟩ := Fault.map_eq_ok.mp hfound
      exact (shows_of_diagnostic ho.1 hd).1
    · intro htakes
      obtain ⟨d, hd⟩ := diagnostic_of_sound ho.1 (htakes o ho)
      rw [hd]
      exact ⟨[d], rfl⟩
  · rw [parse_of_not_readable l lines hbare hreadable]
    refine ⟨fun _ o ho => ?_, fun _ => ⟨[], rfl⟩⟩
    obtain ⟨hspelled, path, hpath, -⟩ := ho
    exact absurd ⟨path, o, hspelled, hpath⟩ hreadable

/-- **Output that is read to its end** gives what its lines give, one after the other. -/
theorem parse_eq_ok_iff {l : ProcessLinter} {lines : List (List Char)} {output : List Char} {found : List Diagnostic} :
    l.parse lines output = .ok found ↔
      ∃ each, List.Forall₂ (fun line found => l.parse lines line = .ok found) (Text.bareLines output) each ∧
        found = each.flatten := by
  rw [parse_eq_mapM, Fault.map_eq_ok]
  simp only [Feature.mapM_eq_ok]

theorem parse_iff_takes {l : ProcessLinter} {lines : List (List Char)} {output : List Char} :
    (∃ found, l.parse lines output = .ok found) ↔ ∀ line ∈ Text.bareLines output, l.Takes lines.length line := by
  have hlines : (∃ each, (Text.bareLines output).mapM (l.parse lines) = .ok each) ↔
      ∀ line ∈ Text.bareLines output, l.Takes lines.length line := by
    rw [Feature.exists_mapM_iff]
    exact forall₂_congr fun line hline => parse_line_iff (Text.isBare_of_mem_bareLines hline)
  rw [← hlines]
  constructor
  · rintro ⟨found, hfound⟩
    obtain ⟨each, heach, -⟩ := parse_eq_ok_iff.mp hfound
    exact ⟨each, Feature.mapM_eq_ok.mpr heach⟩
  · rintro ⟨each, heach⟩
    exact ⟨each.flatten, parse_eq_ok_iff.mpr ⟨each, Feature.mapM_eq_ok.mp heach, rfl⟩⟩

/-- The first line that ends in a fault is all that is left of the output. -/
theorem parse_of_first_fault {l : ProcessLinter} {lines : List (List Char)} {output line : List Char}
    {front rest : List (List Char)} (hsplit : Text.bareLines output = front ++ line :: rest)
    (hfront : ∀ x ∈ front, ∃ found, l.parse lines x = .ok found) {f : Fault} (hline : l.parse lines line = .error f) :
    l.parse lines output = .error f := by
  obtain ⟨each, heach⟩ := Feature.exists_mapM_iff.mpr hfront
  rw [parse_eq_mapM, hsplit, List.mapM_append, heach, List.mapM_cons, hline]
  rfl

/-- **Output is read line by line, up to the first finding that cannot be shown.** It is read to its end exactly if every
line is taken; then it gives what the lines give on their own, one after the other, and lines that cannot be read give
nothing. Otherwise the first line that is not taken ends in a fault, and so does all of the output. -/
theorem output_read_iff_lines_taken (l : ProcessLinter) {v : DocumentView} {b : Bench} {lines : List (List Char)}
    (hlines : v.document.lines b.host.files = .ok lines) (output : String) :
    ((∃ answer, ((l.parseFor v output).perform b).1 = .ok answer) ↔
      ∀ line ∈ Text.bareLines output.toList, l.Takes lines.length line) ∧
    (∀ answer, ((l.parseFor v output).perform b).1 = .ok answer →
      ∃ each : List (List Value), answer = .list each.flatten ∧
        List.Forall₂ (fun line found => (l.parseFor v (String.ofList line)).perform b = (.ok (.list found), b) ∧
          (¬ Readable l.mark line → found = [])) (Text.bareLines output.toList) each) ∧
    ∀ front line rest, Text.bareLines output.toList = front ++ line :: rest →
      (∀ x ∈ front, l.Takes lines.length x) → ¬ l.Takes lines.length line →
        ∃ f, (l.parseFor v (String.ofList line)).perform b = (.error f, b) ∧
          (l.parseFor v output).perform b = (.error f, b) := by
  have hbare : ∀ line ∈ Text.bareLines output.toList, Text.IsBare line := fun _ => Text.isBare_of_mem_bareLines
  refine ⟨?_, ?_, ?_⟩
  · rw [← parse_iff_takes]
    simp only [perform_parseFor_eq_ok l hlines]
    constructor
    · rintro ⟨_, found, hfound, -⟩
      exact ⟨found, hfound⟩
    · rintro ⟨found, hfound⟩
      exact ⟨_, found, hfound, rfl⟩
  · intro answer hanswer
    obtain ⟨_, hfound, rfl⟩ := (perform_parseFor_eq_ok l hlines).mp hanswer
    obtain ⟨each, heach, rfl⟩ := parse_eq_ok_iff.mp hfound
    refine ⟨each.map (List.map Diagnostic.toValue), congrArg Value.list List.map_flatten, ?_⟩
    rw [List.forall₂_map_right_iff]
    refine ((List.forall₂_and_left _ _).mpr ⟨hbare, heach⟩).imp ?_
    rintro line found ⟨hline, hfound⟩
    refine ⟨?_, fun hnot => ?_⟩
    · rw [perform_parseFor l hlines, String.toList_ofList, hfound]
      rfl
    · cases (parse_of_not_readable l lines hline hnot).symm.trans hfound
      rfl
  · intro front line rest hsplit hfront hline
    have hmem : ∀ x ∈ front ++ line :: rest, Text.IsBare x := hsplit ▸ hbare
    have hlineBare : Text.IsBare line := hmem line (by simp)
    cases hparse : l.parse lines line with
    | ok found => exact absurd ((parse_line_iff hlineBare).mp ⟨found, hparse⟩) hline
    | error f =>
      have hoks : ∀ x ∈ front, ∃ found, l.parse lines x = .ok found := fun x hx =>
        (parse_line_iff (hmem x (List.mem_append_left _ hx))).mpr (hfront x hx)
      refine ⟨f, ?_, ?_⟩
      · rw [perform_parseFor l hlines, String.toList_ofList, hparse]
        rfl
      · rw [perform_parseFor l hlines, parse_of_first_fault hsplit hoks hparse]
        rfl

/-- A document of one line. -/
def oneLine : DocumentView where
  document := {
    uri := "file:///ws/a.py", path := "/ws/a.py", dottedName := "a", fileName := "a.py", source := some "x=1\n", home := 0 }
  config := none
  rootPath := "/ws"

/-- A line of another kind is passed over. A finding without a line number, one behind the end of the document, and one of
a severity that is not known each take all others with them. -/
theorem output_read_iff_lines_taken_three_faults :
    (∃ answer, ((flake8.parseFor oneLine "warning: x\na.py:1:1: W1 y").perform {}).1 = .ok answer) ∧
    (∀ output ∈ ["a.py::1: E501 x\na.py:1:1: W1 y", "a.py:2:1: W391 x\na.py:1:1: W1 y"],
      ¬ ∃ answer, ((flake8.parseFor oneLine output).perform {}).1 = .ok answer) ∧
    ¬ ∃ answer, ((pylint.parseFor oneLine "a.py:1:0: I0011: x\na.py:1:0: W0611: y").perform {}).1 = .ok answer := by
  have hlines : oneLine.document.lines ({} : Bench).host.files = .ok ["x=1\n".toList] := by decide +kernel
  refine ⟨?_, fun output houtput => ?_, ?_⟩
  · exact (output_read_iff_lines_taken flake8 hlines _).1.mpr (by decide +kernel)
  · rw [(output_read_iff_lines_taken flake8 hlines _).1]
    revert output
    decide +kernel
  · rw [(output_read_iff_lines_taken pylint hlines _).1]
    decide +kernel

end ProcessLinter

/-! ## Findings that were written -/

/-- **A finding** as a linter knows it. Lines are counted from one. -/
structure Finding where
  path : List Char
  line : Nat
  column : Nat
  code : List Char
  message : List Char
  deriving DecidableEq, Repr

/-- A finding with its numbers in decimal digits. -/
def Finding.inDigits (f : Finding) : OutputLine where
  line := Nat.toDigits 10 f.line
  column := Nat.toDigits 10 f.column
  code := f.code
  message := f.message

/-- **A finding as a line of output.** -/
def Finding.write (mark : List Char) (f : Finding) : List Char := OutputLine.render mark f.path f.inDigits

namespace ProcessLinter

/-- **A finding of a linter about a document** of so many lines. Path and message are on one line, the code is a word
whose severity is known, and the message does not itself look like a finding. The path may. -/
structure Finds (l : ProcessLinter) (height : Nat) (f : Finding) : Prop where
  first : 1 ≤ f.line
  last : f.line ≤ height
  word : ∀ c ∈ f.code, Text.isWordChar c = true
  known : l.knows f.code = true
  path : Text.IsBare f.path
  message : Text.IsBare f.message
  plain : ¬ Readable l.mark f.message

variable {l : ProcessLinter} {height : Nat} {f : Finding}

theorem Finds.spelled (h : l.Finds height f) : f.inDigits.Spelled where
  line _ := Text.isDigit_of_mem_toDigits
  column _ := Text.isDigit_of_mem_toDigits
  code := h.word

theorem Finds.sound (h : l.Finds height f) : l.Sound height f.inDigits := by
  refine ⟨Nat.toDigits_ne_nil, Nat.toDigits_ne_nil, h.known, Nat.lt_of_lt_of_le h.first h.last, ?_⟩
  exact Nat.le_trans (Nat.le_of_eq (Text.decimal_toDigits f.line)) h.last

theorem Finds.isBare_write (h : l.Finds height f) : Text.IsBare (f.write l.mark) := by
  have hdigits : ∀ n, Text.IsBare (Nat.toDigits 10 n) := fun n =>
    Text.isBare_of_not_isBlank fun c hc => Text.not_isBlank_of_isDigit (Text.isDigit_of_mem_toDigits hc)
  have hcode : Text.IsBare f.code := Text.isBare_of_not_isBlank fun c hc => Text.not_isBlank_of_isWordChar (h.word c hc)
  have hmark : Text.IsBare l.mark := by
    cases l <;> decide
  have hcolon : Text.isBreak ':' = false := by decide
  have hblank : Text.isBreak ' ' = false := by decide
  intro c hc
  simp only [Finding.write, render, Finding.inDigits, List.append_assoc, List.cons_append, List.mem_append,
    List.mem_cons] at hc
  rcases hc with hc | rfl | hc | rfl | hc | rfl | rfl | hc | hc | hc
  · exact h.path c hc
  · exact hcolon
  · exact hdigits _ c hc
  · exact hcolon
  · exact hdigits _ c hc
  · exact hcolon
  · exact hblank
  · exact hcode c hc
  · exact hmark c hc
  · exact h.message c hc

/-- A line is read as the finding that it was written from. -/
theorem Finds.read?_write (h : l.Finds height f) : read? l.mark (f.write l.mark) = some f.inDigits := by
  refine read?_render l.endsCode_mark h.spelled ?_ f.path
  rw [read?_mark]
  exact (read?_eq_none_iff l.endsCode_mark).mpr h.plain

/-- **A dictionary shows a finding**: its range starts where the finding is, and goes on to the end of the line, up to the
linter's margin. -/
structure ShownBy (l : ProcessLinter) (lines : List (List Char)) (f : Finding) (v : Value) : Prop where
  range : ∃ text, lines[f.line - 1]? = some text ∧
    (do Range.ofValue (← v.item "range")) =
      .ok ⟨⟨f.line - 1, f.column - l.firstColumn⟩, ⟨f.line - 1, text.length - l.margin⟩⟩
  code : v.item "code" = .ok (.str (String.ofList f.code))
  message : v.item "message" = .ok (.str (String.ofList (l.messageOf f.code f.message)))
  source : v.item "source" = .ok (.str l.name)
  severity : ∃ severity, l.severity f.code = .ok severity ∧ v.item "severity" = .ok (.int severity.code)

/-- What is shown of a finding stands in the dictionary of its diagnostic. -/
theorem Finds.shownBy {lines : List (List Char)} {d : Diagnostic} (h : l.Finds lines.length f)
    (hd : l.diagnostic lines f.inDigits = .ok d) : l.ShownBy lines f d.toValue := by
  obtain ⟨-, hshows⟩ := shows_of_diagnostic h.spelled hd
  have hsaid := d.saidBy_toValue
  have hline : (Text.decimal f.inDigits.line : Int) = f.line := congrArg Nat.cast (Text.decimal_toDigits f.line)
  have hcolumn : (Text.decimal f.inDigits.column : Int) = f.column := congrArg Nat.cast (Text.decimal_toDigits f.column)
  obtain ⟨text, htext, hstop⟩ := hshows.stop
  have hstart := hshows.start
  have hend := hshows.line
  rw [hline] at htext hstart hend
  rw [hcolumn] at hstart
  refine ⟨⟨text, ?_, ?_⟩, hsaid.code _ hshows.code, ?_, ?_, ⟨d.severity, hshows.severity, hsaid.severity⟩⟩
  · have hindex : (f.line : Int) - 1 = (f.line - 1 : Nat) := by
      have := h.first
      omega
    rwa [hindex, SignedIndex.at?_ofNat] at htext
  · rw [hsaid.range hshows.column, ← hstart, ← hend, ← hstop]
  · rw [hsaid.message, hshows.message]
    rfl
  · rw [hsaid.source, hshows.source]

/-- **Findings that were written one per line are read back**, in order, whatever their paths look like. The answer is a
list of dictionaries, one for each finding, which start where the findings are and have their codes and messages. -/
theorem findings_read_back (l : ProcessLinter) {v : DocumentView} {b : Bench} {lines : List (List Char)}
    (hlines : v.document.lines b.host.files = .ok lines) {fs : List Finding} (hfs : ∀ f ∈ fs, l.Finds lines.length f)
    {output : String} (houtput : Text.OnePerLine (fs.map (Finding.write l.mark)) output.toList) :
    ∃ values : List Value, (l.parseFor v output).perform b = (.ok (.list values), b) ∧
      List.Forall₂ (l.ShownBy lines) fs values := by
  have hbare : ∀ line ∈ fs.map (Finding.write l.mark), Text.IsBare line := by
    intro line hline
    obtain ⟨f, hf, rfl⟩ := List.mem_map.mp hline
    exact (hfs f hf).isBare_write
  -- No line is dropped, so findings and diagnostics stay paired.
  have hread : (fs.map (Finding.write l.mark)).filterMap (read? l.mark) = fs.map Finding.inDigits := by
    rw [List.filterMap_map, ← List.filterMap_eq_map]
    exact List.filterMap_congr fun f hf => (hfs f hf).read?_write
  have hparse : l.parse lines output.toList = (fs.map Finding.inDigits).mapM (l.diagnostic lines) := by
    rw [parse_eq, findings, Text.bareLines_of_onePerLine houtput hbare, hread]
  have hall : ∀ o ∈ fs.map Finding.inDigits, ∃ d, l.diagnostic lines o = .ok d := by
    intro o ho
    obtain ⟨f, hf, rfl⟩ := List.mem_map.mp ho
    exact diagnostic_of_sound (hfs f hf).spelled (hfs f hf).sound
  obtain ⟨found, hfound⟩ := Feature.exists_mapM_iff.mpr hall
  refine ⟨found.map Diagnostic.toValue, ?_, ?_⟩
  · rw [perform_parseFor l hlines, hparse, hfound]
    rfl
  · have hshown := Feature.mapM_eq_ok.mp hfound
    rw [List.forall₂_map_left_iff] at hshown
    rw [List.forall₂_map_right_iff]
    refine ((List.forall₂_and_left _ _).mpr ⟨hfs, hshown⟩).imp ?_
    rintro f d ⟨hf, hd⟩
    exact hf.shownBy hd

/-- A finding whose path looks like a finding, and whose message holds numbers and colons. -/
def oddFinding : Finding where
  path := "C:/a:1:2: E501 b/c:7".toList
  line := 1
  column := 12
  code := "E231".toList
  message := "missing ':' at 3:4: x".toList

/-- Two such findings, on lines that end in two ways, are read back. -/
theorem findings_read_back_odd_paths :
    ∃ values : List Value,
      (flake8.parseFor oneLine (String.ofList
        (oddFinding.write flake8.mark ++ '\r' :: '\n' :: oddFinding.write flake8.mark))).perform {} =
          (.ok (.list values), {}) ∧ values.length = 2 ∧
      ∀ value ∈ values, (do Range.ofValue (← value.item "range")) = .ok ⟨⟨0, 11⟩, ⟨0, 4⟩⟩ ∧
        value.item "code" = .ok (.str "E231") ∧ value.item "message" = .ok (.str "E231 missing ':' at 3:4: x") := by
  have hlines : oneLine.document.lines ({} : Bench).host.files = .ok ["x=1\n".toList] := by decide +kernel
  have hfinds : flake8.Finds 1 oddFinding := by
    have hplain : read? flake8.mark oddFinding.message = none := by decide +kernel
    exact ⟨by decide, by decide, List.all_eq_true.mp (by decide +kernel), rfl, by decide +kernel, by decide +kernel,
      (read?_eq_none_iff flake8.endsCode_mark).mp hplain⟩
  have hprinted : Text.OnePerLine ([oddFinding, oddFinding].map (Finding.write flake8.mark))
      (oddFinding.write flake8.mark ++ (['\r', '\n'] ++ oddFinding.write flake8.mark)) :=
    .next _ (.inr rfl) (.last _ (by decide +kernel))
  have hboth : ∀ f ∈ [oddFinding, oddFinding], flake8.Finds 1 f := by simpa using hfinds
  obtain ⟨values, hvalues, hshown⟩ := findings_read_back flake8 (b := {}) hlines hboth
    (by rw [String.toList_ofList]; exact hprinted)
  have hread : ∀ value, flake8.ShownBy ["x=1\n".toList] oddFinding value →
      (do Range.ofValue (← value.item "range")) = .ok ⟨⟨0, 11⟩, ⟨0, 4⟩⟩ ∧
        value.item "code" = .ok (.str "E231") ∧ value.item "message" = .ok (.str "E231 missing ':' at 3:4: x") := by
    intro value hvalue
    have hcode : String.ofList oddFinding.code = "E231" := by decide +kernel
    have hmessage : String.ofList (flake8.messageOf oddFinding.code oddFinding.message) =
        "E231 missing ':' at 3:4: x" := by decide +kernel
    obtain ⟨text, htext, hrange⟩ := hvalue.range
    cases htext
    exact ⟨hrange, by rw [hvalue.code, hcode], by rw [hvalue.message, hmessage]⟩
  obtain ⟨first, rest, hfirst, hrest, rfl⟩ := List.forall₂_cons_left_iff.mp hshown
  obtain ⟨second, none, hsecond, hnone, rfl⟩ := List.forall₂_cons_left_iff.mp hrest
  cases List.forall₂_nil_left_iff.mp hnone
  refine ⟨_, hvalues, rfl, ?_⟩
  exact List.forall_mem_cons.mpr ⟨hread first hfirst, List.forall_mem_singleton.mpr (hread second hsecond)⟩

end ProcessLinter

end Lint

end EditorService
