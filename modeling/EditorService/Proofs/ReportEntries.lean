import EditorService.Proofs.DiagnosticLines
import EditorService.Proofs.FileReports

/-!
# The entries of pylint's reports

Pylint on the file of a document writes a list of entries, and each is made into a diagnostic. Its severity comes from the
entry's kind. An entry of another kind than the five that are known has no severity of its own: it takes the one of the
entry before, which may have taken it from the entry before that. The first entry has nobody to take it from, and the
whole report ends in a fault.

* **The report** (`report_eq`): an entry has its own range, code and message, and the severity of the last entry up to it
  whose kind is known.
* **The law** (`entries_on_their_own_iff`): a report is what its entries are each on their own exactly if all their kinds
  are known.
-/

namespace EditorService.Lint.Pylint

open EditorService.Protocol (Range Severity)

/-! ## Entries -/

/-- **An entry of a report**, as far as it is shown. -/
structure Entry where
  line : Int
  column : Int
  kind : String
  symbol : String
  message : String
  code : String

namespace Entry

/-- **A value says what an entry does.** It may say more. -/
structure SaidBy (e : Entry) (v : Value) : Prop where
  line : v.item "line" = .ok (.int e.line)
  column : v.item "column" = .ok (.int e.column)
  kind : v.item "type" = .ok (.str e.kind)
  symbol : v.item "symbol" = .ok (.str e.symbol)
  message : v.item "message" = .ok (.str e.message)
  code : v.item "message-id" = .ok (.str e.code)

/-- The severity of an entry's kind. -/
def severity? (e : Entry) : Option Severity := severityOfKind? (.str e.kind)

/-- An entry is about a line of the document, or the document is empty. -/
def Inside (lines : List (List Char)) (e : Entry) : Prop := lines = [] ∨ 1 ≤ e.line ∧ e.line ≤ lines.length

instance (lines : List (List Char)) (e : Entry) : Decidable (e.Inside lines) := inferInstanceAs (Decidable (_ ∨ _))

/-- **An entry as a diagnostic** of a severity. -/
def shown (lines : List (List Char)) (severity : Severity) (e : Entry) : Diagnostic where
  source := "pylint"
  range := Range.onLine (e.line - 1) e.column (width lines e.line)
  message := .str ("[" ++ e.symbol ++ "] " ++ e.message)
  severity := severity
  code := some (.str e.code)

variable {lines : List (List Char)} {e : Entry} {v : Value}

theorem stop_eq (h : e.Inside lines) {α : Type} (next : Int → Except Fault α) :
    (if lines.isEmpty then pure 0 >>= next else lineLength lines (e.line - 1) >>= next) = next (width lines e.line) := by
  rcases h with rfl | ⟨hfirst, hlast⟩
  · rfl
  · have hsome : lines.isEmpty = false := by
      cases lines with
      | nil => exact absurd hlast (by simp only [List.length_nil]; omega)
      | cons => rfl
    rw [hsome, if_neg Bool.false_ne_true, lineLength_line hfirst hlast]
    rfl

/-- **What one entry is made into**: a diagnostic, if its own kind or the entry before gives it a severity. -/
theorem entryDiagnostic_eq (hsaid : e.SaidBy v) (hinside : e.Inside lines) (before : Option Severity) :
    entryDiagnostic (.ok lines) before v =
      (e.severity?.or before).elim (.error .nameUnset) fun severity => .ok (e.shown lines severity, severity) := by
  have horElse : (severityOfKind? (.str e.kind) <|> before) = e.severity?.or before := by
    rw [severity?]
    cases severityOfKind? (.str e.kind) <;> rfl
  have hbind : ∀ {α β : Type} (a : α) (next : α → Except Fault β), (Except.ok a >>= next) = next a := fun _ _ => rfl
  simp only [entryDiagnostic, hbind, hsaid.line, hsaid.column, hsaid.kind, hsaid.symbol, hsaid.message, hsaid.code,
    Value.number, stop_eq hinside, horElse]
  cases e.severity?.or before <;> rfl

end Entry

/-! ## Reports -/

/-- **The severity that is known last** in a list of entries. -/
def lastKnown? (entries : List Entry) : Option Severity := entries.reverse.findSome? Entry.severity?

@[simp] theorem lastKnown?_nil : lastKnown? [] = none := rfl

theorem lastKnown?_cons (e : Entry) (rest : List Entry) :
    lastKnown? (e :: rest) = (lastKnown? rest).or e.severity? := by
  simp [lastKnown?, List.findSome?_append]

theorem lastKnown?_take {entries : List Entry} {i : Nat} {e : Entry} (he : entries[i]? = some e) :
    lastKnown? (entries.take (i + 1)) = e.severity?.or (lastKnown? (entries.take i)) := by
  simp only [lastKnown?, List.take_add_one, he, Option.toList_some, List.reverse_append, List.reverse_singleton,
    List.findSome?_append, List.findSome?_singleton]

/-- **A report shows entries**: one diagnostic for each, in order, with the severity that is known last up to the entry.
Those of the first entries may come from `before`. -/
structure Shows (lines : List (List Char)) (before : Option Severity) (entries : List Entry) (found : List Diagnostic) :
    Prop where
  length : found.length = entries.length
  entry : ∀ {i e}, entries[i]? = some e →
    ∃ severity, (lastKnown? (entries.take (i + 1))).or before = some severity ∧ found[i]? = some (e.shown lines severity)

/-- **On its own** an entry is the diagnostic. -/
def Alone (lines : List (List Char)) (v : Value) (d : Diagnostic) : Prop := reportDiagnostics (.ok lines) none [v] = .ok [d]

section

variable {lines : List (List Char)} {before : Option Severity} {entries : List Entry} {values : List Value}
  {e : Entry} {v : Value} {severity : Severity} {found : List Diagnostic}

/-- One more entry in front of a report: what comes behind it may take its severity. -/
theorem Shows.cons (hseverity : e.severity?.or before = some severity) (h : Shows lines (some severity) entries found) :
    Shows lines before (e :: entries) (e.shown lines severity :: found) := by
  refine ⟨congrArg (· + 1) h.length, fun {i e'} he => ?_⟩
  cases i with
  | zero =>
    cases he
    exact ⟨severity, by rwa [List.take_succ_cons, List.take_zero, lastKnown?_cons, lastKnown?_nil, Option.none_or], rfl⟩
  | succ i =>
    obtain ⟨known, hknown, hshown⟩ := h.entry he
    refine ⟨known, ?_, hshown⟩
    rw [List.take_succ_cons, lastKnown?_cons, Option.or_assoc, hseverity, hknown]

/-- An entry whose kind is known takes nothing from the others. -/
theorem Shows.own_severity (h : Shows lines before entries found) {i : Nat} (he : entries[i]? = some e)
    (hown : e.severity? = some severity) : found[i]? = some (e.shown lines severity) := by
  obtain ⟨known, hknown, hshown⟩ := h.entry he
  rw [lastKnown?_take he, hown, Option.some_or, Option.some_or] at hknown
  rw [hshown, Option.some.inj hknown]

/-- **A report with a severity for its first entry** shows all its entries. -/
theorem report_eq (hsaid : List.Forall₂ Entry.SaidBy entries values) (hinside : ∀ e ∈ entries, e.Inside lines)
    (before : Option Severity) (hfirst : ∀ e ∈ entries.head?, (e.severity?.or before).isSome = true) :
    ∃ found, reportDiagnostics (.ok lines) before values = .ok found ∧ Shows lines before entries found := by
  induction hsaid generalizing before with
  | nil => exact ⟨[], rfl, rfl, fun he => by cases he⟩
  | @cons e v entries values hsaid _ ih =>
    obtain ⟨severity, hseverity⟩ := Option.isSome_iff_exists.mp (hfirst e rfl)
    have hentry := Entry.entryDiagnostic_eq hsaid (hinside e List.mem_cons_self) before
    rw [hseverity] at hentry
    -- From here on there is always an entry before, so the rest cannot fail.
    obtain ⟨found, hfound, hshows⟩ := ih (fun e he => hinside e (List.mem_cons_of_mem _ he)) (some severity)
      fun e _ => by cases e.severity? <;> rfl
    refine ⟨e.shown lines severity :: found, ?_, hshows.cons hseverity⟩
    rw [reportDiagnostics, hentry]
    show (reportDiagnostics (.ok lines) (some severity) values >>= _) = _
    rw [hfound]
    rfl

/-- Without a severity for its first entry, a report ends in a fault. -/
theorem report_of_unknown (hsaid : e.SaidBy v) (hinside : e.Inside lines) (hunknown : e.severity? = none)
    (rest : List Value) : reportDiagnostics (.ok lines) none (v :: rest) = .error .nameUnset := by
  rw [reportDiagnostics, Entry.entryDiagnostic_eq hsaid hinside none, hunknown]
  rfl

theorem report_singleton (hsaid : e.SaidBy v) (hinside : e.Inside lines) (hown : e.severity? = some severity) :
    reportDiagnostics (.ok lines) none [v] = .ok [e.shown lines severity] := by
  rw [reportDiagnostics, Entry.entryDiagnostic_eq hsaid hinside none, hown]
  rfl

/-- An entry can be shown on its own only if its kind is known. -/
theorem isSome_of_alone {d : Diagnostic} (hsaid : e.SaidBy v) (hinside : e.Inside lines) (h : Alone lines v d) :
    e.severity?.isSome = true := by
  by_contra hnone
  rw [Bool.not_eq_true, Option.isSome_eq_false_iff, Option.isNone_iff_eq_none] at hnone
  have hfault := report_of_unknown hsaid hinside hnone []
  rw [h] at hfault
  cases hfault

theorem isSome_of_forall₂_alone (hsaid : List.Forall₂ Entry.SaidBy entries values)
    (hinside : ∀ e ∈ entries, e.Inside lines) (h : List.Forall₂ (Alone lines) values found) :
    ∀ e ∈ entries, e.severity?.isSome = true := by
  induction hsaid generalizing found with
  | nil => exact fun e he => absurd he List.not_mem_nil
  | cons hsaid _ ih =>
    cases h with
    | cons halone hrest =>
      obtain ⟨hfirst, hinside⟩ := List.forall_mem_cons.mp hinside
      exact List.forall_mem_cons.mpr ⟨isSome_of_alone hsaid hfirst halone, ih hinside hrest⟩

/-- **Where all kinds are known**, the report is what its entries are on their own. -/
theorem Shows.alone (h : Shows lines before entries found) (hsaid : List.Forall₂ Entry.SaidBy entries values)
    (hinside : ∀ e ∈ entries, e.Inside lines) (hknown : ∀ e ∈ entries, e.severity?.isSome = true) :
    List.Forall₂ (Alone lines) values found := by
  obtain ⟨hlength, hget⟩ := List.forall₂_iff_get.mp hsaid
  refine List.forall₂_iff_get.mpr ⟨by rw [← hlength, h.length], fun i hvalue hfound => ?_⟩
  have hentry : i < entries.length := by omega
  have hmem := List.get_mem entries ⟨i, hentry⟩
  obtain ⟨severity, hown⟩ := Option.isSome_iff_exists.mp (hknown _ hmem)
  have hshown := h.own_severity (List.getElem?_eq_getElem hentry) hown
  rw [List.getElem?_eq_getElem hfound, Option.some.injEq] at hshown
  show Alone lines values[i] found[i]
  rw [hshown]
  exact report_singleton (hget i hentry hvalue) (hinside _ hmem) hown

end

/-! ## Calls -/

/-- **Pylint prints the entries of a report**, or nothing at all if there are none. -/
def Call.Prints (c : Call) (values : List Value) : Prop :=
  ∃ output ∈ c.host.answers.pylint.inProcess.toOption,
    if (Text.trim output.toList).isEmpty then values = [] else Value.parse? output = some (.list values)

instance (c : Call) (values : List Value) : Decidable (c.Prints values) := by
  unfold Call.Prints
  infer_instance

theorem Call.reading_of_prints {c : Call} {values : List Value} (h : c.Prints values) :
    c.reading = reportDiagnostics (c.view.document.lines c.host.files) none values := by
  obtain ⟨output, hprinted, h⟩ := h
  have houtput : c.host.answers.pylint.inProcess = .ok output := Fault.eq_ok_of_toOption hprinted
  have hreading : c.reading = c.readingOf output := by
    rw [Call.reading, houtput]
    rfl
  rw [hreading, Call.readingOf]
  split at h <;> rename_i hblank
  · rw [if_pos hblank, h]
    rfl
  · rw [if_neg hblank, h]
    rfl

/-- **When the entries of a report are on their own.** A call for a document that was saved, with a report on lines of the
document, answers the diagnostics of the report, whatever was done before it:

* if the kind of the first entry is not known, this is a fault;
* otherwise every entry has a diagnostic in its place, with its own range, code and message, and with the severity of the
  last entry up to it whose kind is known;
* and this is the list of what the entries are each on their own exactly if the kinds of all entries are known. -/
theorem entries_on_their_own_iff {c : Call} {lines : List (List Char)} {values : List Value} {entries : List Entry}
    (hsaved : c.saved = true) (hlines : c.view.document.lines c.host.files = .ok lines) (hprints : c.Prints values)
    (hsaid : List.Forall₂ Entry.SaidBy entries values) (hinside : ∀ e ∈ entries, e.Inside lines) (b : Bench) :
    (c.run b).1 = reportDiagnostics (.ok lines) none values ∧
    ((∃ e ∈ entries.head?, e.severity? = none) → (c.run b).1 = .error .nameUnset) ∧
    ((∀ e ∈ entries.head?, e.severity?.isSome = true) →
      ∃ found, (c.run b).1 = .ok found ∧ Shows lines none entries found) ∧
    ((∃ found, (c.run b).1 = .ok found ∧ List.Forall₂ (Alone lines) values found) ↔
      ∀ e ∈ entries, e.severity?.isSome = true) := by
  have hanswer : (c.run b).1 = reportDiagnostics (.ok lines) none values := by
    rw [Call.run_saved hsaved, Call.reading_of_prints hprints, hlines]
  have hreport (hfirst : ∀ e ∈ entries.head?, e.severity?.isSome = true) :=
    report_eq hsaid hinside none fun e he => by rw [Option.or_none]; exact hfirst e he
  rw [hanswer]
  refine ⟨rfl, fun ⟨e, he, hunknown⟩ => ?_, hreport,
    fun ⟨_, _, halone⟩ => isSome_of_forall₂_alone hsaid hinside halone, fun hknown => ?_⟩
  · cases hsaid with
    | nil => cases he
    | cons hsaid _ =>
      cases he
      exact report_of_unknown hsaid (hinside e List.mem_cons_self) hunknown _
  · obtain ⟨found, hfound, hshows⟩ := hreport fun e he => hknown e (List.mem_of_mem_head? he)
    exact ⟨found, hfound, hshows.alone hsaid hinside hknown⟩

/-- An entry as pylint prints it. -/
def Entry.value (e : Entry) : Value :=
  .dict [("line", .int e.line), ("column", .int e.column), ("type", .str e.kind), ("symbol", .str e.symbol),
    ("message", .str e.message), ("message-id", .str e.code)]

theorem Entry.saidBy_values (entries : List Entry) : List.Forall₂ SaidBy entries (entries.map value) :=
  List.forall₂_map_right_iff.mpr (List.forall₂_same.mpr fun _ _ => ⟨rfl, rfl, rfl, rfl, rfl, rfl⟩)

/-- An error, and behind it an entry that only informs. -/
def errorThenInfo : List Entry := [⟨1, 0, "error", "s", "m", "E1"⟩, ⟨1, 2, "info", "t", "n", "I1"⟩]

def errorThenInfoCall : Call :=
  callFor "/ws/a.py" true <| .ok
    ("[\x7b\"line\":1,\"column\":0,\"type\":\"error\",\"symbol\":\"s\",\"message\":\"m\",\"message-id\":\"E1\"\x7d," ++
      "\x7b\"line\":1,\"column\":2,\"type\":\"info\",\"symbol\":\"t\",\"message\":\"n\",\"message-id\":\"I1\"\x7d]")

/-- The second entry is shown as an error, but only behind the first. -/
theorem entries_on_their_own_iff_error_then_info :
    (∃ found, (errorThenInfoCall.run {}).1 = .ok found ∧ found.map (·.severity) = [.error, .error]) ∧
    ¬ ∃ found, (errorThenInfoCall.run {}).1 = .ok found ∧
      List.Forall₂ (Alone ["x=1\n".toList]) (errorThenInfo.map Entry.value) found := by
  have hlines : errorThenInfoCall.view.document.lines errorThenInfoCall.host.files = .ok ["x=1\n".toList] := by
    decide +kernel
  obtain ⟨hanswer, -, -, halone⟩ := entries_on_their_own_iff (c := errorThenInfoCall) rfl hlines (by decide +kernel)
    (Entry.saidBy_values errorThenInfo) (by decide +kernel) {}
  refine ⟨⟨_, hanswer.trans rfl, rfl⟩, fun hown => ?_⟩
  have hknown := halone.mp hown
  revert hknown
  decide

end EditorService.Lint.Pylint
