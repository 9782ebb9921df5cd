import EditorService.Proofs.FeatureJobs
import EditorService.Proofs.Splice

/-!
# Edits that replace a whole text

Formatters and renaming answer with edits that replace a whole text. Such an edit starts at the top and ends at the start
of a line, and this line is counted in one text while the edit is made in another: formatters count the lines of the
document, the analysis engine those of the new text, and the refactoring library those of the file that it read.

**What such an edit does** is told exactly (`applyEdit_wholeEdit`): the new text comes first, and behind it stand all
lines of the document from the last line of the edit on. So an edit that ends too early leaves a tail, and one that ends
too late does no harm.

**The law** (`whole_edits_give_new_text`): the edits of both formatters make the document what the formatter said, and
there are none exactly if it reports no change; the edits of both ways to rename make a document what the library said,
as long as it has as many lines as the text that was counted.
-/

namespace EditorService.Feature

open EditorService.Protocol (Edit Range)
open EditorService.Document (Place Change)

/-! ## One edit -/

/-- **The change that an edit asks for**: its new text in the place of its range. -/
def changeOf (edit : Value) : Except Fault Change := do
  let text ← edit.item "newText"
  let range ← edit.item "range"
  Change.ofValue (.dict [("text", text), ("range", range)])

/-- **A document after an edit** that a plugin answered with. -/
def applyEdit (d : Document) (files : FileTree) (edit : Value) : Except Fault Document := do
  d.applyChange files (← changeOf edit)

/-- **An edit replaces everything** in documents of so many lines. -/
def Replaces (edit : Value) (lines : Nat) (newText : String) : Prop :=
  ∀ (d : Document) (files : FileTree) (source : String), d.text files = .ok source → lineCount source = lines →
    applyEdit d files edit = .ok { d with source := some newText }

/-- The start of a line stands behind all lines in front of it. -/
theorem offset_line (n : Nat) (lines : List (List Char)) :
    Place.offset ⟨n, 0⟩ lines = (lines.take n).flatten.length := by
  cases hline : lines[n]? with
  | some line => simp [Place.offset, hline]
  | none =>
    have hlength : lines.length ≤ n := List.getElem?_eq_none_iff.mp hline
    simp [Place.offset, hline, List.take_of_length_le hlength]

/-- Behind the first lines of a text stand the others. -/
theorem drop_flatten_take (n : Nat) (lines : List (List Char)) :
    lines.flatten.drop (lines.take n).flatten.length = (lines.drop n).flatten := by
  have hsplit : lines.flatten = (lines.take n).flatten ++ (lines.drop n).flatten := by
    rw [← List.flatten_append, List.take_append_drop]
  rw [hsplit, List.drop_left]

/-- **A range from the top to the start of a line**: what is left is the new text and the lines from there on. -/
theorem replaceRange_upToLine (source text : List Char) (n : Nat) :
    Document.replaceRange source (Range.upToLine n) text = text ++ ((Text.lines source).drop n).flatten := by
  have hrange : Range.upToLine n = Place.upTo ⟨0, 0⟩ ⟨n, 0⟩ := rfl
  have hle : (⟨0, 0⟩ : Place) ≤ ⟨n, 0⟩ := by
    rw [Place.le_def]
    simp only
    omega
  have hback := drop_flatten_take n (Text.lines source)
  rw [Text.flatten_lines] at hback
  rw [hrange, Document.replaceRange_eq_splice source text hle (Nat.zero_le _), offset_line, offset_line, Document.splice,
    hback]
  rfl

theorem changeOf_wholeEdit (n : Nat) (newText : String) :
    changeOf (wholeEdit n newText).toValue = .ok { text := some newText, range := some (Range.upToLine n) } := rfl

/-- **What an edit of so many lines does**: the lines behind them stay, behind the new text. -/
theorem applyEdit_wholeEdit {d : Document} {files : FileTree} {source : String} (h : d.text files = .ok source) (n : Nat)
    (newText : String) :
    applyEdit d files (wholeEdit n newText).toValue =
      .ok { d with source := some (newText ++ String.ofList ((Text.lines source.toList).drop n).flatten) } := by
  simp only [applyEdit, changeOf_wholeEdit, Document.applyChange, h, bind, Except.bind, pure, Except.pure,
    replaceRange_upToLine, String.ofList_append, String.ofList_toList]

/-- An edit that ends behind the last line leaves nothing of the old text. -/
theorem replaces_wholeEdit {lines n : Nat} (h : lines ≤ n) (newText : String) :
    Replaces (wholeEdit n newText).toValue lines newText := by
  intro d files source hsource hlines
  have hnone : (Text.lines source.toList).drop n = [] := List.drop_of_length_le (Nat.le_trans (Nat.le_of_eq hlines) h)
  rw [applyEdit_wholeEdit hsource, hnone]
  simp

/-! ## Formatters -/

theorem keeps_formatterOptions (c : Config) (v : DocumentView) : Job.Keeps fixtures (formatterOptions c v) :=
  (keeps_pluginSettings c _ _).bind fun _ =>
    (Job.Keeps.mapM (fun _ => (Job.Keeps.ofExcept _).bind fun _ => Job.Keeps.pure _) _).bind fun _ => Job.Keeps.pure _

theorem perform_lendChecks (b : Bench) :
    lendChecks.perform b =
      if b.checks.own then (.ok (), { b with checks := { own := false, formatter := true } })
      else (.error .checkMissing, b) := by
  show Job.perform (if b.checks.own = true then _ else _) b = _
  split <;> rfl

theorem perform_returnChecks (b : Bench) :
    returnChecks.perform b = (.ok (), { b with checks := { own := true, formatter := false } }) := rfl

/-- The lines that a question asks to format. -/
def spanFor (q : Question) : Except Fault (Option (Int × Int)) :=
  if q.hook == .formatRange then (widen (q.argument "range")).map fun w => some (w.first, w.last) else .ok none

theorem perform_spanOf (q : Question) (b : Bench) : (spanOf q).perform b = (spanFor q, b) := by
  unfold spanOf spanFor
  split
  · rw [Job.perform_bind, Job.perform_ofExcept]
    cases widen (q.argument "range") <;> rfl
  · rfl

/-- **The formatters.** -/
inductive Formatter where
  | autopep8
  | yapf
  deriving DecidableEq

namespace Formatter

/-- The plugin that asks the formatter. -/
def plugin : Formatter → BuiltIn
  | .autopep8 => .autopep8
  | .yapf => .yapf

/-- The job of the plugin. -/
def format (t : Formatter) (c : Config) (v : DocumentView) (span : Option (Int × Int)) : Job (List Edit) :=
  match t with
  | .autopep8 => formatWithAutopep8 c v span
  | .yapf => formatWithYapf v span

/-- What the formatter replies. -/
def reply (t : Formatter) (answers : Tool.Answers) : Except Fault Tool.Formatted :=
  match t with
  | .autopep8 => answers.autopep8
  | .yapf => answers.yapf

/-- **Whether the formatter reports a change**: one does it by giving another text, the other by a flag. -/
def reportsChange (t : Formatter) (source : String) (formatted : Tool.Formatted) : Bool :=
  match t with
  | .autopep8 => formatted.newText.getD source != source
  | .yapf => formatted.changed

/-- What is done before the formatter is asked: one of them needs options, and the style checker's check in its place. -/
def prepare (t : Formatter) (c : Config) (v : DocumentView) (b : Bench) : Except Fault Unit :=
  match t with
  | .autopep8 => do
    let _ ← ((formatterOptions c v).perform b).1
    if b.checks.own then .ok () else .error .checkMissing
  | .yapf => .ok ()

/-- **What the job of a formatter answers.** -/
theorem outcome_format (t : Formatter) (c : Config) (v : DocumentView) (span : Option (Int × Int)) (b : Bench) :
    ((t.format c v span).perform b).1 = do
      t.prepare c v b
      let source ← v.document.text b.host.files
      let formatted ← t.reply b.host.answers
      return editsTo (lineCount source) (formatted.newText.getD source) (t.reportsChange source formatted) := by
  cases t with
  | autopep8 =>
    have hkept := keeps_formatterOptions c v b
    unfold format formatWithAutopep8 prepare
    rw [Job.outcome_bind]
    rcases hrun : (formatterOptions c v).perform b with ⟨r, m⟩
    rw [hrun] at hkept
    obtain ⟨hhost, hchecks⟩ : m.host = b.host ∧ m.checks = b.checks := Prod.mk.inj hkept
    cases r with
    | error f => rfl
    | ok options =>
      rw [← hhost, ← hchecks]
      cases hown : m.checks.own with
      | false =>
        simp only [Job.outcome_bind, perform_lendChecks, hown]
        rfl
      | true =>
        simp only [Job.outcome_bind, perform_lendChecks, hown, if_true, Job.perform_text, Job.perform_note,
          Job.perform_answers, Job.perform_ofExcept, Job.perform_lines, perform_returnChecks, Document.lines]
        cases v.document.text m.host.files with
        | error f => rfl
        | ok source => rfl
  | yapf =>
    unfold format formatWithYapf
    simp only [Job.outcome_bind, Job.perform_text, Job.perform_note, Job.perform_answers, Job.perform_ofExcept,
      Job.perform_lines, Document.lines]
    cases v.document.text b.host.files with
    | error f => rfl
    | ok source => rfl

/-- **What the plugin of a formatter answers.** -/
theorem outcome_answer (t : Formatter) {q : Question} {v : DocumentView}
    (hhook : q.hook = .formatDocument ∨ q.hook = .formatRange) (hdocument : q.document = some v) (b : Bench) :
    ((t.plugin.answer q).perform b).1 = do
      let _ ← spanFor q
      t.prepare q.config v b
      let source ← v.document.text b.host.files
      let formatted ← t.reply b.host.answers
      return editsValue
        (editsTo (lineCount source) (formatted.newText.getD source) (t.reportsChange source formatted)) := by
  have hsettings : (q.hook == .settings) = false := by rcases hhook with h | h <;> rw [h] <;> rfl
  have hanswer : t.plugin.answer q = (do
      let v ← q.view
      return editsValue (← t.format q.config v.document (← spanOf q))) := by
    unfold BuiltIn.answer
    rw [hsettings]
    cases t <;> rfl
  have hview : q.view.perform b =
      (.ok { config := q.config, workspace := q.workspace, workspaceConfig := q.workspaceConfig, document := v }, b) := by
    unfold Question.view
    rw [hdocument]
    rfl
  rw [hanswer, Job.outcome_bind, hview]
  show (Job.perform (spanOf q >>= _) b).1 = _
  simp only [Job.outcome_bind, perform_spanOf, outcome_format, bind_assoc, pure_bind]
  rfl

/-- **A request to format can be carried out**: a range, if there is one, can be widened, and the formatter that needs
options and checks has them. -/
structure Ready (t : Formatter) (q : Question) (v : DocumentView) (b : Bench) : Prop where
  range : q.hook = .formatRange → ∃ w, widen (q.argument "range") = .ok w
  options : t = .autopep8 → ∃ options, ((formatterOptions q.config v).perform b).1 = .ok options
  checks : t = .autopep8 → b.checks.own = true

theorem spanFor_eq_ok {q : Question} :
    (∃ span, spanFor q = .ok span) ↔ (q.hook = .formatRange → ∃ w, widen (q.argument "range") = .ok w) := by
  unfold spanFor
  by_cases hrange : q.hook = .formatRange
  · simp only [hrange, BEq.rfl, if_true, forall_const]
    cases widen (q.argument "range") with
    | error f => exact ⟨fun ⟨_, h⟩ => (nomatch h), fun ⟨_, h⟩ => (nomatch h)⟩
    | ok w => exact ⟨fun _ => ⟨w, rfl⟩, fun _ => ⟨_, rfl⟩⟩
  · have hbeq : (q.hook == .formatRange) = false := beq_eq_false_iff_ne.mpr hrange
    rw [hbeq]
    exact ⟨fun _ h => absurd h hrange, fun _ => ⟨none, rfl⟩⟩

theorem prepare_eq_ok {t : Formatter} {c : Config} {v : DocumentView} {b : Bench} :
    t.prepare c v b = .ok () ↔
      (t = .autopep8 → ∃ options, ((formatterOptions c v).perform b).1 = .ok options) ∧
        (t = .autopep8 → b.checks.own = true) := by
  cases t with
  | yapf => exact ⟨fun _ => ⟨nofun, nofun⟩, fun _ => rfl⟩
  | autopep8 =>
    simp only [prepare, Fault.bind_eq_ok, forall_const]
    constructor
    · rintro ⟨options, hoptions, hchecks⟩
      refine ⟨⟨options, hoptions⟩, ?_⟩
      cases hown : b.checks.own with
      | true => rfl
      | false => rw [hown] at hchecks; exact nomatch hchecks
    · rintro ⟨⟨options, hoptions⟩, hown⟩
      exact ⟨options, hoptions, by rw [hown]; rfl⟩

/-- **When the plugin of a formatter answers, and what.** -/
theorem answer_eq_ok (t : Formatter) {q : Question} {v : DocumentView}
    (hhook : q.hook = .formatDocument ∨ q.hook = .formatRange) (hdocument : q.document = some v) {b : Bench}
    {answer : Value} :
    ((t.plugin.answer q).perform b).1 = .ok answer ↔
      t.Ready q v b ∧ ∃ source formatted, v.document.text b.host.files = .ok source ∧
        t.reply b.host.answers = .ok formatted ∧
        editsValue (editsTo (lineCount source) (formatted.newText.getD source) (t.reportsChange source formatted)) =
          answer := by
  rw [outcome_answer t hhook hdocument]
  simp only [Fault.bind_eq_ok]
  constructor
  · rintro ⟨span, hspan, ⟨⟩, hprepare, source, hsource, formatted, hreply, hanswer⟩
    obtain ⟨hoptions, hchecks⟩ := prepare_eq_ok.mp hprepare
    exact ⟨⟨spanFor_eq_ok.mp ⟨span, hspan⟩, hoptions, hchecks⟩, source, formatted, hsource, hreply,
      Except.ok.inj hanswer⟩
  · rintro ⟨hready, source, formatted, hsource, hreply, rfl⟩
    obtain ⟨span, hspan⟩ := spanFor_eq_ok.mpr hready.range
    exact ⟨span, hspan, (), prepare_eq_ok.mpr ⟨hready.options, hready.checks⟩, source, hsource, formatted, hreply, rfl⟩

end Formatter

/-! ## Renaming -/

/-- **A change of one file**: it names the URI of the file, and its one edit replaces everything in a document of so many
lines. -/
structure ReplacesFile (drives : Bool) (path : String) (lines : Nat) (newText : String) (change : Value) : Prop where
  target : ∃ target uri, change.item "textDocument" = .ok target ∧ target.item "uri" = .ok (.str uri) ∧
    Uri.ofPath drives path = .ok uri
  edits : ∃ edit, change.item "edits" = .ok (.list [edit]) ∧ Replaces edit lines newText

theorem replacesFile_documentChange {drives : Bool} {path uri newText : String} {lines : Nat}
    (h : Uri.ofPath drives path = .ok uri) (w : Workspace) :
    ReplacesFile drives path lines newText (documentChange w uri (wholeEdit lines newText)) where
  target := ⟨_, uri, rfl, rfl, h⟩
  edits := ⟨_, rfl, replaces_wholeEdit (Nat.le_refl lines) newText⟩

/-- The changes of the files that a library changes, each with one edit that counts the lines of some text. -/
theorem changes_eq_ok {α : Type} {files : List α} {step : α → Job Value} {b b' : Bench} {changes : List Value}
    (h : (files.mapM step).perform b = (.ok changes, b')) {drives : Bool} {w : Workspace} {path newText : α → String}
    {lines : α → Nat} (hstep : ∀ f, step f = do
      let uri ← Job.ofExcept (Uri.ofPath drives (path f))
      return documentChange w uri (wholeEdit (lines f) (newText f))) :
    List.Forall₂ (fun f change => ReplacesFile drives (path f) (lines f) (newText f) change) files changes := by
  have hanswers : ∀ f, Job.Answers (fun _ => True) (step f) (do
      let uri ← Uri.ofPath drives (path f)
      return documentChange w uri (wholeEdit (lines f) (newText f))) := by
    intro f
    rw [hstep]
    exact (Job.Answers.ofExcept _).bind fun uri _ => Job.Answers.pure _
  have hchanges := (Job.Answers.mapM hanswers files b trivial).1
  rw [h] at hchanges
  refine (mapM_eq_ok.mp hchanges.symm).imp fun f change hchange => ?_
  obtain ⟨uri, huri, hchange⟩ := Fault.bind_eq_ok.mp hchange
  cases hchange
  exact replacesFile_documentChange huri w

/-- A job whose faults are only replaced by other faults. -/
theorem tryCatch_eq_ok {α : Type} {j : Job α} {handler : Fault → Job α} {b b' : Bench} {r : α}
    (hhandler : ∀ f, ∃ g, handler f = throw g) (h : (tryCatch j handler).perform b = (.ok r, b')) :
    j.perform b = (.ok r, b') := by
  rw [Job.perform_tryCatch] at h
  rcases hrun : j.perform b with ⟨x, m⟩
  rw [hrun] at h
  cases x with
  | ok a => exact h
  | error f =>
    obtain ⟨g, hg⟩ := hhandler f
    simp only [hg] at h
    exact nomatch h

/-- **Renaming by the analysis engine** replaces each file that the engine changes, counted by the new text. -/
theorem renameByEngine_eq_ok {v : View} {position newName answer : Value} {b b' : Bench}
    (h : (renameByEngine v position newName).perform b = (.ok answer, b')) :
    ∃ changed changes, b.host.answers.engine.rename = .ok changed ∧ answer = changesValue changes ∧
      List.Forall₂ (fun file change => ReplacesFile b.host.drives file.1 (lineCount file.2) file.2 change)
        (Table.ofList changed) changes := by
  obtain ⟨word, b₁, hword, h⟩ := Job.perform_bind_eq_ok.mp h
  obtain ⟨place, b₂, hplace, h⟩ := Job.perform_bind_eq_ok.mp h
  obtain ⟨_, b₃, hopened, h⟩ := Job.perform_bind_eq_ok.mp h
  obtain ⟨changed, b₄, hchanged, h⟩ := Job.perform_bind_eq_ok.mp h
  obtain ⟨changes, b₅, hchanges, h⟩ := Job.perform_bind_eq_ok.mp (host_bind_eq_ok h)
  obtain ⟨hanswer, -⟩ := Prod.mk.inj h
  have hopen : b₃.host = b.host :=
    (host_of_keeps (keeps_openInEngine v.document .null false) hopened).trans
      ((host_of_keeps (keeps_reading (v.document.document.enginePosition · position)) hplace).trans
        (host_of_keeps (keeps_reading (v.document.document.wordAt · position)) hword))
  have hasked := tryCatch_eq_ok (fun f => by split <;> exact ⟨_, rfl⟩) hchanged
  obtain ⟨hrename, hkept⟩ := ask_eq_ok hasked
  rw [hkept, hopen] at hchanges
  rw [hopen] at hrename
  exact ⟨changed, changes, hrename, (Except.ok.inj hanswer).symm,
    changes_eq_ok hchanges fun _ => rfl⟩

theorem keeps_openProject (workspace : WorkspaceId) (rootPath : String) (settings : Value) :
    Job.Keeps fixtures (openProject workspace rootPath settings) := by
  unfold openProject
  refine Job.Keeps.bind (j := get) (fun _ => rfl) fun b => ?_
  extract_lets validated
  have hvalidated : ∀ x, Job.Keeps fixtures (validated x) := fun _ => keeps_note _ _
  split
  · exact (Job.Keeps.ofExcept _).bind fun _ => (keeps_note _ _).bind fun _ =>
      Job.Keeps.bind (j := modify _) (fun _ => rfl) fun _ => (Job.Keeps.ofExcept _).bind fun _ =>
        (keeps_note _ _).bind fun _ => (keeps_note _ _).bind fun _ => (keeps_note _ _).bind hvalidated
  · exact hvalidated ()

/-- **Renaming by the refactoring library** replaces each file that the library changes, counted by what it read. -/
theorem renameByLibrary_eq_ok {v : View} {position newName answer : Value} {b b' : Bench}
    (h : (renameByLibrary v position newName).perform b = (.ok answer, b')) :
    ∃ changed changes, b.host.answers.refactoring.changes = .ok changed ∧ answer = changesValue changes ∧
      List.Forall₂ (fun file change =>
        ReplacesFile b.host.drives file.path (lineCount file.contents) file.newContents change) changed changes := by
  have hsettings : Job.Keeps fixtures (projectSettings v.config v.document) :=
    (keeps_settings _ _).bind fun _ => Job.Keeps.ofExcept _
  obtain ⟨settings, b₁, hread, h⟩ := Job.perform_bind_eq_ok.mp h
  obtain ⟨_, b₂, hopened, h⟩ := Job.perform_bind_eq_ok.mp h
  obtain ⟨_, b₃, hfound, h⟩ := Job.perform_bind_eq_ok.mp h
  obtain ⟨offset, b₄, hoffset, h⟩ := Job.perform_bind_eq_ok.mp h
  obtain ⟨_, b₅, hnoted, h⟩ := Job.perform_bind_eq_ok.mp h
  obtain ⟨word, b₆, hword, h⟩ := Job.perform_bind_eq_ok.mp h
  obtain ⟨_, b₇, hasked, h⟩ := Job.perform_bind_eq_ok.mp h
  have hhost : b₇.host = b.host :=
    calc b₇.host = b₆.host := host_of_keeps (keeps_note _ _) hasked
      _ = b₅.host := host_of_keeps (keeps_reading (v.document.document.wordAt · position)) hword
      _ = b₄.host := host_of_keeps (keeps_note _ _) hnoted
      _ = b₃.host := host_of_keeps (keeps_reading (v.document.document.offsetAt · position)) hoffset
      _ = b₂.host := host_of_keeps (keeps_note _ _) hfound
      _ = b₁.host := host_of_keeps (keeps_openProject _ _ _) hopened
      _ = b.host := host_of_keeps hsettings hread
  obtain ⟨changed, b₈, hreply, hrest⟩ := Job.perform_bind_eq_ok.mp (answers_bind_eq_ok h)
  obtain ⟨hchanged, rfl⟩ := ofExcept_eq_ok hreply
  obtain ⟨changes, b₉, hchanges, hend⟩ := Job.perform_bind_eq_ok.mp (host_bind_eq_ok hrest)
  obtain ⟨hanswer, -⟩ := Prod.mk.inj hend
  rw [hhost] at hchanged hchanges
  exact ⟨changed, changes, hchanged, (Except.ok.inj hanswer).symm, changes_eq_ok hchanges fun _ => rfl⟩

/-- A plugin that looks at the document of a question leaves the rest to its feature. -/
theorem view_bind_eq_ok {q : Question} {feature : View → Job Value} {b : Bench} {answer : Value}
    (h : ((q.view >>= feature).perform b).1 = .ok answer) : ∃ v b', (feature v).perform b = (.ok answer, b') := by
  rw [Job.outcome_bind] at h
  obtain ⟨v, hv, h⟩ := Fault.bind_eq_ok.mp h
  have hbench : (q.view.perform b).2 = b := by
    unfold Question.view
    split <;> rfl
  rw [hbench] at h
  exact ⟨v, ((feature v).perform b).2, Prod.ext h rfl⟩

/-! ## All edits -/

/-- **Whole edits give the new text.** A formatter answers exactly if its settings can be read, the document can, and the
tool gives a text; it answers with no edit exactly if the tool reports no change, and else the document becomes the new
text. Renaming answers with one change for each file that the library names, in its order: a document at that file's
address with as many lines as the library's text becomes the new code. -/
theorem whole_edits_give_new_text :
    (∀ (t : Formatter) (q : Question) (v : DocumentView) (b : Bench),
      q.hook = .formatDocument ∨ q.hook = .formatRange → q.document = some v →
        ((∃ answer, ((t.plugin.answer q).perform b).1 = .ok answer) ↔
          t.Ready q v b ∧ (∃ source, v.document.text b.host.files = .ok source) ∧
            ∃ formatted, t.reply b.host.answers = .ok formatted) ∧
        ∀ answer source formatted, ((t.plugin.answer q).perform b).1 = .ok answer →
          v.document.text b.host.files = .ok source → t.reply b.host.answers = .ok formatted →
            ∃ edits, answer = .list edits ∧ (edits = [] ↔ t.reportsChange source formatted = false) ∧
              ∀ edit ∈ edits, applyEdit v.document b.host.files edit =
                .ok { v.document with source := some (formatted.newText.getD source) }) ∧
      (∀ (q : Question) (b : Bench) (answer : Value), q.hook = .rename →
        ((BuiltIn.engineRename.answer q).perform b).1 = .ok answer →
          ∃ changed changes, b.host.answers.engine.rename = .ok changed ∧ answer = changesValue changes ∧
            List.Forall₂ (fun file change => ReplacesFile b.host.drives file.1 (lineCount file.2) file.2 change)
              (Table.ofList changed) changes) ∧
      ∀ (q : Question) (b : Bench) (answer : Value), q.hook = .rename →
        ((BuiltIn.ropeRename.answer q).perform b).1 = .ok answer →
          ∃ changed changes, b.host.answers.refactoring.changes = .ok changed ∧ answer = changesValue changes ∧
            List.Forall₂ (fun file change =>
              ReplacesFile b.host.drives file.path (lineCount file.contents) file.newContents change)
              changed changes := by
  refine ⟨fun t q v b hhook hdocument => ⟨?_, ?_⟩, fun q b answer hhook h => ?_, fun q b answer hhook h => ?_⟩
  · simp only [Formatter.answer_eq_ok t hhook hdocument]
    constructor
    · rintro ⟨answer, hready, source, formatted, hsource, hreply, -⟩
      exact ⟨hready, ⟨source, hsource⟩, formatted, hreply⟩
    · rintro ⟨hready, ⟨source, hsource⟩, formatted, hreply⟩
      exact ⟨_, hready, source, formatted, hsource, hreply, rfl⟩
  · intro answer source formatted hanswer hsource hreply
    obtain ⟨-, source', formatted', hsource', hreply', rfl⟩ := (Formatter.answer_eq_ok t hhook hdocument).mp hanswer
    cases hsource.symm.trans hsource'
    cases hreply.symm.trans hreply'
    refine ⟨_, rfl, ?_, fun edit hedit => ?_⟩
    · cases t.reportsChange source formatted <;> simp [editsTo]
    · cases hchange : t.reportsChange source formatted with
      | false => simp [editsTo, hchange] at hedit
      | true =>
        rw [hchange] at hedit
        cases List.mem_singleton.mp hedit
        exact replaces_wholeEdit (Nat.le_refl _) _ v.document b.host.files source hsource rfl
  · have hplugin : BuiltIn.engineRename.answer q =
        (do renameByEngine (← q.view) (q.argument "position") (q.argument "new_name")) := by
      unfold BuiltIn.answer
      rw [hhook]
      rfl
    obtain ⟨v, b', hrename⟩ := view_bind_eq_ok (hplugin ▸ h)
    exact renameByEngine_eq_ok hrename
  · have hplugin : BuiltIn.ropeRename.answer q =
        (do renameByLibrary (← q.view) (q.argument "position") (q.argument "new_name")) := by
      unfold BuiltIn.answer
      rw [hhook]
      rfl
    obtain ⟨v, b', hrename⟩ := view_bind_eq_ok (hplugin ▸ h)
    exact renameByLibrary_eq_ok hrename

/-- A document of one line that does not end in a break. -/
def unbroken : Document where
  uri := "file:///ws/a.py"
  path := "/ws/a.py"
  dottedName := "a"
  fileName := "a.py"
  source := some "x=1"
  home := 0

/-- Tools that lay the document out anew, and rename in it. -/
def obligingTools : Bench where
  host :=
    { answers :=
        { yapf := .ok { newText := some "x = 1\n", changed := true }
          engine := { rename := .ok [("/ws/a.py", "y=1")] }
          refactoring := { changes := .ok [{ path := "/ws/a.py", contents := "x=1", newContents := "y=1" }] } } }

/-- A question about the document. -/
def questionOf (hook : Hook) : Question where
  hook := hook
  config :=
    { id := 0
      rootUri := "file:///ws"
      rootPath := "/ws"
      initOptions := .null
      processId := .null
      capabilities := .null
      client := .dict [] }
  workspace := { id := 0, rootUri := "file:///ws", rootPath := "/ws", scheme := "file" }
  workspaceConfig := none
  document := some { document := unbroken, config := none, rootPath := "/ws" }
  arguments := [("position", .dict [("line", .int 0), ("character", .int 0)]), ("new_name", .str "y")]

/-- A text without a final break, laid out anew and renamed in: each edit leaves nothing of the old text behind. -/
theorem whole_edits_give_new_text_unbroken :
    (∃ edit edits, ((BuiltIn.yapf.answer (questionOf .formatDocument)).perform obligingTools).1 =
        .ok (.list (edit :: edits)) ∧
      applyEdit unbroken obligingTools.host.files edit = .ok { unbroken with source := some "x = 1\n" }) ∧
    ∀ plugin ∈ [BuiltIn.engineRename, .ropeRename], ∃ change edit,
      ((plugin.answer (questionOf .rename)).perform obligingTools).1 = .ok (changesValue [change]) ∧
        change.item "edits" = .ok (.list [edit]) ∧
        applyEdit unbroken obligingTools.host.files edit = .ok { unbroken with source := some "y=1" } := by
  obtain ⟨hformat, hengine, hlibrary⟩ := whole_edits_give_new_text
  refine ⟨?_, fun plugin hplugin => ?_⟩
  · obtain ⟨hanswers, happlied⟩ := hformat .yapf (questionOf .formatDocument) _ obligingTools (.inl rfl) rfl
    obtain ⟨answer, hanswer⟩ := hanswers.mpr ⟨⟨nofun, nofun, nofun⟩, ⟨_, rfl⟩, _, rfl⟩
    obtain ⟨edits, rfl, hempty, happly⟩ := happlied answer _ _ hanswer rfl rfl
    cases edits with
    | nil => exact (nomatch hempty.mp rfl)
    | cons edit edits => exact ⟨edit, edits, hanswer, happly edit (.head _)⟩
  · have hok : ((plugin.answer (questionOf .rename)).perform obligingTools).1.toOption.isSome = true := by
      revert plugin
      decide +kernel
    obtain ⟨answer, hsome⟩ := Option.isSome_iff_exists.mp hok
    have hanswer := Fault.eq_ok_of_toOption hsome
    -- Both tools name one file, and the edit of that file is made for texts of one line.
    obtain ⟨change, rfl, hreplaces⟩ : ∃ change, answer = changesValue [change] ∧
        ReplacesFile false "/ws/a.py" 1 "y=1" change := by
      simp only [List.mem_cons, List.not_mem_nil, or_false] at hplugin
      obtain rfl | rfl := hplugin
      · obtain ⟨changed, changes, hchanged, rfl, hfiles⟩ := hengine _ _ _ rfl hanswer
        cases Except.ok.inj hchanged
        obtain ⟨change, rest, hfile, hrest, rfl⟩ := List.forall₂_cons_left_iff.mp hfiles
        cases List.forall₂_nil_left_iff.mp hrest
        exact ⟨change, rfl, hfile⟩
      · obtain ⟨changed, changes, hchanged, rfl, hfiles⟩ := hlibrary _ _ _ rfl hanswer
        cases Except.ok.inj hchanged
        obtain ⟨change, rest, hfile, hrest, rfl⟩ := List.forall₂_cons_left_iff.mp hfiles
        cases List.forall₂_nil_left_iff.mp hrest
        exact ⟨change, rfl, hfile⟩
    obtain ⟨edit, hedits, hreplace⟩ := hreplaces.edits
    exact ⟨change, edit, hanswer, hedits, hreplace unbroken _ _ rfl (by decide +kernel)⟩

end EditorService.Feature
