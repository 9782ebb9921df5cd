import EditorService.Feature.Hover
import EditorService.Proofs.WholeEdits

/-!
# The word under the cursor

Two functions read a position that may lie past the end of its line. The column for the analysis engine is moved back to
the end of the line's content (`clipColumn`). The word is read off the two halves that the line is cut into at the
character as it is (`wordAround`), and of what ends a line only a line feed is passed over.

`IsWordAt` says what the word at a column is, without either of them: the longest run of word characters that reaches
from the column to both sides.

**The law** (`word_at_clipped_column_iff`): the word is the one at the clipped column unless it is `Missed`. That happens
behind the end of a line that is ended by a carriage return, with or without a line feed, and whose content ends in a
word; then no word is found. A document on disk has no such lines.
-/

namespace EditorService

theorem Text.return_not_mem_unifyBreaks (s : List Char) : '\r' ∉ unifyBreaks s := by
  fun_induction unifyBreaks s with
  | case1 => simp
  | case2 c hc => decide
  | case3 c hc => exact fun hmem => hc (beq_iff_eq.mpr (List.mem_singleton.mp hmem).symm)
  | case4 c d rest hc hd ih => simpa using ih
  | case5 c d rest hc hd ih => simpa using ih
  | case6 c d rest hc ih =>
    intro hmem
    rcases List.mem_cons.mp hmem with heq | hrest
    · exact hc (beq_iff_eq.mpr heq.symm)
    · exact ih hrest

namespace Document

open EditorService.Text (isAsciiWordChar)

/-! ## The word at a column -/

/-- **The word at a column**: word characters on both sides of it, and none further out on either side. -/
def IsWordAt (line : List Char) (column : Nat) (word : List Char) : Prop :=
  ∃ front before after back, line = (front ++ before) ++ (after ++ back) ∧ (front ++ before).length = column ∧
    word = before ++ after ∧ (∀ c ∈ word, isAsciiWordChar c = true) ∧
    (∀ c, front.getLast? = some c → isAsciiWordChar c = false) ∧ ∀ c, back.head? = some c → isAsciiWordChar c = false

/-- The run of word characters at the end of a text. -/
def runBefore (s : List Char) : List Char := (s.reverse.takeWhile isAsciiWordChar).reverse

/-- The runs of word characters on both sides of a column. -/
def runsAround (line : List Char) (column : Nat) : List Char :=
  runBefore (line.take column) ++ wordAfter (line.drop column)

theorem wordAfter_append {run rest : List Char} (hrun : ∀ c ∈ run, isAsciiWordChar c = true)
    (hrest : ∀ c, rest.head? = some c → isAsciiWordChar c = false) : wordAfter (run ++ rest) = run := by
  have hnone : rest.takeWhile isAsciiWordChar = [] := by
    cases rest with
    | nil => rfl
    | cons c rest => exact List.takeWhile_cons_of_neg (by simp [hrest c rfl])
  rw [wordAfter, List.takeWhile_append_of_pos hrun, hnone, List.append_nil]

theorem runBefore_append {rest run : List Char} (hrun : ∀ c ∈ run, isAsciiWordChar c = true)
    (hrest : ∀ c, rest.getLast? = some c → isAsciiWordChar c = false) : runBefore (rest ++ run) = run := by
  have hreversed : wordAfter (run.reverse ++ rest.reverse) = run.reverse := by
    apply wordAfter_append
    · intro c hc
      exact hrun c (List.mem_reverse.mp hc)
    · intro c hc
      exact hrest c (by rwa [List.head?_reverse] at hc)
  rw [runBefore, List.reverse_append, ← wordAfter, hreversed, List.reverse_reverse]

/-- A text is cut where the word characters in front of its end begin. -/
theorem exists_wordAfter (s : List Char) : ∃ back, s = wordAfter s ++ back ∧
    (∀ c ∈ wordAfter s, isAsciiWordChar c = true) ∧ ∀ c, back.head? = some c → isAsciiWordChar c = false := by
  refine ⟨s.dropWhile isAsciiWordChar, List.takeWhile_append_dropWhile.symm, fun c hc => ?_, fun c hc => ?_⟩
  · exact List.all_eq_true.mp List.all_takeWhile c hc
  · have hnot := List.head?_dropWhile_not isAsciiWordChar s
    rw [hc] at hnot
    exact hnot

theorem exists_runBefore (s : List Char) : ∃ front, s = front ++ runBefore s ∧
    (∀ c ∈ runBefore s, isAsciiWordChar c = true) ∧ ∀ c, front.getLast? = some c → isAsciiWordChar c = false := by
  obtain ⟨back, hsplit, hrun, hback⟩ := exists_wordAfter s.reverse
  refine ⟨back.reverse, ?_, fun c hc => hrun c (List.mem_reverse.mp hc), fun c hc => ?_⟩
  · rw [runBefore, ← wordAfter, ← List.reverse_append, ← hsplit, List.reverse_reverse]
  · exact hback c (by rwa [List.getLast?_reverse] at hc)

/-- **There is exactly one word at a column of a line**: the runs on its two sides. -/
theorem isWordAt_iff {line word : List Char} {column : Nat} (h : column ≤ line.length) :
    IsWordAt line column word ↔ word = runsAround line column := by
  constructor
  · rintro ⟨front, before, after, back, rfl, rfl, rfl, hword, hfront, hback⟩
    have hbefore : ∀ c ∈ before, isAsciiWordChar c = true := fun c hc => hword c (List.mem_append_left after hc)
    have hafter : ∀ c ∈ after, isAsciiWordChar c = true := fun c hc => hword c (List.mem_append_right before hc)
    rw [runsAround, List.take_left, List.drop_left, runBefore_append hbefore hfront, wordAfter_append hafter hback]
  · rintro rfl
    obtain ⟨front, htake, hbefore, hfront⟩ := exists_runBefore (line.take column)
    obtain ⟨back, hdrop, hafter, hback⟩ := exists_wordAfter (line.drop column)
    refine ⟨front, runBefore (line.take column), wordAfter (line.drop column), back, ?_, ?_, rfl, ?_, hfront, hback⟩
    · rw [← htake, ← hdrop, List.take_append_drop]
    · rw [← htake, List.length_take, Nat.min_eq_left h]
    · intro c hc
      rcases List.mem_append.mp hc with hc | hc
      · exact hbefore c hc
      · exact hafter c hc

/-! ## Contents and what ends them -/

/-- **A text as it would be without its last carriage returns and line feeds**, when these are known. -/
theorem content_append {s ending : List Char} (hs : '\r' ∉ s ∧ '\n' ∉ s) (hending : ∀ c ∈ ending, c = '\r' ∨ c = '\n') :
    content (s ++ ending) = s := by
  have hdropped : ∀ c ∈ ending.reverse, (c == '\r' || c == '\n') = true := by
    intro c hc
    simpa using hending c (List.mem_reverse.mp hc)
  have hkept : s.reverse.dropWhile (fun c => c == '\r' || c == '\n') = s.reverse := by
    cases hreverse : s.reverse with
    | nil => rfl
    | cons c rest =>
      have hc : c ∈ s := List.mem_reverse.mp (hreverse ▸ List.mem_cons_self)
      have hnot : ¬ (c == '\r' || c == '\n') = true := by
        simp only [Bool.or_eq_true, beq_iff_eq]
        rintro (rfl | rfl)
        · exact hs.1 hc
        · exact hs.2 hc
      exact List.dropWhile_cons_of_neg hnot
  rw [content, List.reverse_append, List.dropWhile_append_of_pos hdropped, hkept, List.reverse_reverse]

/-- What can end a line, so far as its content does not go on to the end. -/
def endings : List (List Char) := [[], ['\n'], ['\r'], ['\r', '\n']]

/-- **A line is its content and what ends it.** The two characters that can end a line stand nowhere else in it. -/
theorem content_ending {text line : List Char} (h : line ∈ Text.lines text) :
    ('\r' ∉ content line ∧ '\n' ∉ content line) ∧ ∃ ending ∈ endings, line = content line ++ ending := by
  suffices hsplit : ∃ s, ('\r' ∉ s ∧ '\n' ∉ s) ∧ ∃ ending ∈ endings, line = s ++ ending by
    obtain ⟨s, hs, ending, hending, rfl⟩ := hsplit
    have hchars : ∀ c ∈ ending, c = '\r' ∨ c = '\n' := by
      revert ending
      simp [endings]
    rw [content_append hs hchars]
    exact ⟨hs, ending, hending, rfl⟩
  obtain ⟨s, hbare, hends⟩ := Text.exists_content h
  have hs : '\r' ∉ s ∧ '\n' ∉ s :=
    ⟨fun hc => absurd (hbare _ hc) (by decide), fun hc => absurd (hbare _ hc) (by decide)⟩
  rcases hends with rfl | rfl | ⟨c, -, rfl⟩
  · exact ⟨line, hs, [], by decide, (List.append_nil line).symm⟩
  · exact ⟨s, hs, ['\r', '\n'], by decide, rfl⟩
  · by_cases hfeed : c = '\n'
    · exact ⟨s, hs, ['\n'], by decide, by rw [hfeed]⟩
    · by_cases hreturn : c = '\r'
      · exact ⟨s, hs, ['\r'], by decide, by rw [hreturn]⟩
      -- Any other break counts as a part of the content.
      · refine ⟨s ++ [c], ?_, [], by decide, (List.append_nil _).symm⟩
        simp [hs.1, hs.2, Ne.symm hfeed, Ne.symm hreturn]

/-! ## The word that is found -/

/-- **A word that is missed**: the character lies past the end of a line that a carriage return ends, and the line's
content ends in a word. -/
def Missed (line : List Char) (character : Nat) : Prop :=
  (content line).length < character ∧ '\r' ∈ line ∧ runBefore (content line) ≠ []

instance (line : List Char) (character : Nat) : Decidable (Missed line character) :=
  inferInstanceAs (Decidable (_ ∧ _ ∧ _))

theorem wordBefore_concat_feed (s : List Char) : wordBefore (s ++ ['\n']) = runBefore s := by
  simp [wordBefore, runBefore]

theorem wordBefore_of_not_mem {s : List Char} (h : '\n' ∉ s) : wordBefore s = runBefore s := by
  unfold wordBefore runBefore
  split
  · next front hreverse => exact absurd (List.mem_reverse.mp (hreverse ▸ List.mem_cons_self)) h
  · rfl

/-- No word reaches over a carriage return. -/
theorem runBefore_concat_return (s : List Char) : runBefore (s ++ ['\r']) = [] := by
  have hstop : isAsciiWordChar '\r' = false := by decide
  simp [runBefore, hstop]

/-- **Past the content of a line** the word at its end is found, unless a carriage return stands in between. -/
theorem word_past_content {s ending : List Char} (hfeed : '\n' ∉ s) (hending : ending ∈ endings) {character : Nat}
    (hpast : s.length < character) :
    wordBefore ((s ++ ending).take character) ++ wordAfter ((s ++ ending).drop character) =
      if '\r' ∈ ending then [] else runBefore s := by
  -- A cut behind the whole line leaves nothing on the right.
  have hwhole : (s ++ ending).length ≤ character →
      wordBefore ((s ++ ending).take character) ++ wordAfter ((s ++ ending).drop character) =
        wordBefore (s ++ ending) := by
    intro hle
    rw [List.take_of_length_le hle, List.drop_of_length_le hle]
    exact List.append_nil _
  simp only [endings, List.mem_cons, List.not_mem_nil, or_false] at hending
  obtain rfl | rfl | rfl | rfl := hending
  · rw [hwhole (by simpa using Nat.le_of_lt hpast), List.append_nil, wordBefore_of_not_mem hfeed]
    rfl
  · rw [hwhole (by simpa using Nat.succ_le_of_lt hpast), wordBefore_concat_feed]
    rfl
  · rw [hwhole (by simpa using Nat.succ_le_of_lt hpast), wordBefore_of_not_mem (by simpa using hfeed), runBefore_concat_return]
    rfl
  · have hpair : s ++ ['\r', '\n'] = (s ++ ['\r']) ++ ['\n'] := by simp
    by_cases hbetween : character = s.length + 1
    · have hlength : character = (s ++ ['\r']).length := by simpa using hbetween
      rw [hpair, hlength, List.take_left, List.drop_left, wordBefore_of_not_mem (by simpa using hfeed),
        runBefore_concat_return]
      rfl
    · have hbehind : (s ++ ['\r', '\n']).length ≤ character := by
        simp only [List.length_append, List.length_cons, List.length_nil]
        omega
      rw [hwhole hbehind, hpair, wordBefore_concat_feed, runBefore_concat_return]
      rfl

/-- At the end of the content nothing of what ends the line belongs to the word. -/
theorem runsAround_content {s ending : List Char} (hending : ending ∈ endings) :
    runsAround (s ++ ending) s.length = runBefore s := by
  have hnone : wordAfter ending = [] := by
    revert ending
    decide
  rw [runsAround, List.take_left, List.drop_left, hnone, List.append_nil]

/-- **The word that is found**: the one at the clipped column, unless that one is missed. -/
theorem wordAround_eq {text line : List Char} (h : line ∈ Text.lines text) (character : Nat) :
    wordAround line character =
      if Missed line character then [] else runsAround line (min character (content line).length) := by
  obtain ⟨⟨hreturn, hfeed⟩, ending, hending, hline⟩ := content_ending h
  rw [wordAround, before_ofNat, onward_ofNat]
  by_cases hinside : character ≤ (content line).length
  · have hnot : ¬ Missed line character := fun hmissed => Nat.not_lt_of_le hinside hmissed.1
    have htake : '\n' ∉ line.take character := by
      rw [hline, List.take_append_of_le_length hinside]
      exact fun hc => hfeed (List.mem_of_mem_take hc)
    rw [if_neg hnot, Nat.min_eq_left hinside, runsAround, wordBefore_of_not_mem htake]
  · have hpast : (content line).length < character := Nat.lt_of_not_le hinside
    have hfound := word_past_content hfeed hending hpast
    have hthere := runsAround_content (s := content line) hending
    rw [← hline] at hfound hthere
    have hends : '\r' ∈ line ↔ '\r' ∈ ending := by
      rw [hline, List.mem_append]
      simp [hreturn]
    rw [hfound, Nat.min_eq_right (Nat.le_of_lt hpast), hthere]
    by_cases hmissed : Missed line character
    · rw [if_pos hmissed, if_pos (hends.mp hmissed.2.1)]
    · rw [if_neg hmissed]
      split
      · next hmem =>
        have hempty : ¬ runBefore (content line) ≠ [] := fun hrun => hmissed ⟨hpast, hends.mpr hmem, hrun⟩
        exact (not_not.mp hempty).symm
      · rfl

/-- Where a word is missed there is one. -/
theorem ne_runsAround_of_missed {text line : List Char} (h : line ∈ Text.lines text) {character : Nat}
    (hmissed : Missed line character) : [] ≠ runsAround line (min character (content line).length) := by
  obtain ⟨-, ending, hending, hline⟩ := content_ending h
  have hthere := runsAround_content (s := content line) hending
  rw [← hline] at hthere
  rw [Nat.min_eq_right (Nat.le_of_lt hmissed.1), hthere]
  exact Ne.symm hmissed.2.2

/-! ## Positions of the client -/

open EditorService.Protocol (Position)

/-- What a position that can be read holds. -/
theorem ofValue_eq_ok {position : Value} {p : Position} (h : Position.ofValue position = .ok p) :
    ∃ line character, position.item "line" = .ok line ∧ line.number = .ok p.line ∧
      position.item "character" = .ok character ∧ character.number = .ok p.character := by
  obtain ⟨line, hline, h⟩ := Fault.bind_eq_ok.mp h
  obtain ⟨n, hn, h⟩ := Fault.bind_eq_ok.mp h
  obtain ⟨character, hcharacter, h⟩ := Fault.bind_eq_ok.mp h
  obtain ⟨m, hm, h⟩ := Fault.bind_eq_ok.mp h
  cases h
  exact ⟨line, character, hline, hn, hcharacter, hm⟩

section

variable {d : Document} {files : FileTree} {position : Value} {place : Place} {text : String}

theorem wordAt_past (hplace : Position.ofValue position = .ok place.position) (htext : d.text files = .ok text)
    (hpast : (Text.lines text.toList).length ≤ place.line) : d.wordAt files position = .ok "" := by
  obtain ⟨line, character, hline, hn, -, -⟩ := ofValue_eq_ok hplace
  have hle : ((Text.lines text.toList).length : Int) ≤ place.position.line := Int.ofNat_le.mpr hpast
  simp only [wordAt, lines, hline, hn, htext, bind, Except.bind, pure, Except.pure, hle, if_true]

theorem wordAt_line (hplace : Position.ofValue position = .ok place.position) (htext : d.text files = .ok text)
    {line : List Char} (hline : (Text.lines text.toList)[place.line]? = some line) :
    d.wordAt files position = .ok (String.ofList (wordAround line place.character)) := by
  obtain ⟨n, character, hn, hnumber, hitem, hcharacter⟩ := ofValue_eq_ok hplace
  obtain ⟨hlt, -⟩ := List.getElem?_eq_some_iff.mp hline
  have hnot : ¬ ((Text.lines text.toList).length : Int) ≤ place.position.line := by
    show ¬ _ ≤ ((place.line : Nat) : Int)
    omega
  have hget : SignedIndex.get (Text.lines text.toList) place.position.line = .ok line :=
    (SignedIndex.get_eq_ok_iff _ _ _).mpr ((SignedIndex.at?_ofNat _ _).trans hline)
  simp only [wordAt, lines, hn, hnumber, htext, bind, Except.bind, pure, Except.pure, hnot, if_false, hget, hitem,
    hcharacter]
  rfl

/-- **The column of a place, clipped**: at most the end of the content of its line; a line past the end has no content. -/
def Place.column (place : Place) (lines : List (List Char)) : Nat :=
  match lines[place.line]? with
  | some line => min place.character (content line).length
  | none => 0

theorem clipColumn_eq (place : Place) (lines : List (List Char)) :
    clipColumn place.character lines place.line = .ok (place.column lines) := by
  unfold clipColumn Place.column
  cases hline : lines[place.line]? with
  | none =>
    have hnot : ¬ (place.line : Int) < lines.length := by
      have := List.getElem?_eq_none_iff.mp hline
      omega
    rw [if_neg hnot, Int.min_eq_right (Int.natCast_nonneg _)]
    rfl
  | some line =>
    obtain ⟨hlt, -⟩ := List.getElem?_eq_some_iff.mp hline
    have hget : SignedIndex.get lines place.line = .ok line :=
      (SignedIndex.get_eq_ok_iff _ _ _).mpr ((SignedIndex.at?_ofNat _ _).trans hline)
    rw [if_pos (Int.ofNat_lt.mpr hlt), hget]
    have hmin : min (place.character : Int) ((content line).length : Int) =
        ((min place.character (content line).length : Nat) : Int) := by omega
    exact congrArg Except.ok hmin

/-- A position as the engine is told it. -/
def Place.forEngine (place : Place) (lines : List (List Char)) : List (String × Value) :=
  [("line", .int (place.line + 1)), ("column", .int (place.column lines))]

theorem enginePosition_eq (hplace : Position.ofValue position = .ok place.position) (htext : d.text files = .ok text) :
    d.enginePosition files position = .ok (place.forEngine (Text.lines text.toList)) := by
  obtain ⟨n, character, hn, hnumber, hitem, hcharacter⟩ := ofValue_eq_ok hplace
  have htruthy : position.truthy = true := by
    cases position with
    | dict entries => cases entries <;> simp_all [Value.item, Value.truthy]
    | _ => simp [Value.item] at hn
  have hclip : clipColumn place.position.character (Text.lines text.toList) place.position.line = _ :=
    clipColumn_eq place (Text.lines text.toList)
  simp only [enginePosition, htruthy, lines, hn, hnumber, htext, hitem, hcharacter, bind, Except.bind, pure, Except.pure,
    hclip]
  rfl

end

end Document

namespace Feature

open EditorService.Document (Place IsWordAt Missed content)
open EditorService.Protocol (Position)

/-! ## Features that look at the word -/

/-- A question to the engine, as it is written down. -/
def questionCall (question : String) (args : List (String × Value)) : Value :=
  .dict [("fn", .str ("jedi." ++ question)), ("args", .dict args)]

/-- What is shown of a word for which the engine found definitions. -/
def hoverAnswer (definitions : List Tool.Definition) (word : String) : Value :=
  let contents := ((chooseDefinition definitions word).map (hoverContents · word)).getD []
  .dict [("contents", if contents.isEmpty then .str "" else .list contents)]

theorem ask_calls {α : Type} {question : String} {args : List (String × Value)} {answer : Tool.Engine → Except Fault α}
    {b b' : Bench} {a : α} (h : (DocumentView.ask question args answer).perform b = (.ok a, b')) :
    b'.calls = b.calls ++ [questionCall question args] := by
  obtain ⟨_, m, hnote, h⟩ := Job.perform_bind_eq_ok.mp h
  cases hnote
  obtain ⟨-, rfl⟩ := ofExcept_eq_ok (answers_bind_eq_ok h)
  rfl

theorem calls_of_keeps {α : Type} {j : Job α} (hj : Job.Keeps Bench.calls j) {r : Except Fault α} {b b' : Bench}
    (h : j.perform b = (r, b')) : b'.calls = b.calls := by
  have hkept := hj b
  rwa [h] at hkept

/-- A job that reads the document. -/
theorem reading_eq_ok {α : Type} {read : FileTree → Except Fault α} {b b' : Bench} {a : α}
    (h : Job.perform (do Job.ofExcept (read (← Job.files))) b = (.ok a, b')) : read b.host.files = .ok a ∧ b' = b := by
  rw [Job.perform_reading] at h
  obtain ⟨hread, hb⟩ := Prod.mk.inj h
  exact ⟨hread, hb.symm⟩

/-- **What hovering does**: it asks the engine about the clipped position, and chooses by the word. -/
theorem hover_eq_ok {v : DocumentView} {position answer : Value} {b b' : Bench}
    (h : (hover v position).perform b = (.ok answer, b')) :
    ∃ place definitions word, v.document.enginePosition b.host.files position = .ok place ∧
      b.host.answers.engine.infer = .ok definitions ∧ v.document.wordAt b.host.files position = .ok word ∧
      answer = hoverAnswer definitions word ∧ b'.calls.getLast? = some (questionCall "infer" place) := by
  obtain ⟨place, b₁, hread, hopening⟩ := Job.perform_bind_eq_ok.mp h
  obtain ⟨hplace, rfl⟩ := reading_eq_ok hread
  obtain ⟨_, b₂, hopened, hasking⟩ := Job.perform_bind_eq_ok.mp hopening
  obtain ⟨definitions, b₃, hasked, hchoosing⟩ := Job.perform_bind_eq_ok.mp hasking
  obtain ⟨word, b₄, hread, hend⟩ := Job.perform_bind_eq_ok.mp hchoosing
  obtain ⟨hword, rfl⟩ := reading_eq_ok hread
  obtain ⟨hanswer, rfl⟩ := Prod.mk.inj hend
  have hhost := host_of_keeps (keeps_openInEngine v .null false) hopened
  obtain ⟨hinfer, hkept⟩ := ask_eq_ok hasked
  rw [hhost] at hinfer
  rw [hkept, hhost] at hword
  refine ⟨place, definitions, word, hplace, hinfer, hword, ?_, ?_⟩
  · rw [← Except.ok.inj hanswer, hoverAnswer]
    cases chooseDefinition definitions word <;> rfl
  · rw [ask_calls hasked, List.getLast?_concat]

/-- **What renaming by the engine asks**: the word is looked at, and the clipped position is what the engine gets. -/
theorem renameByEngine_calls {v : View} {position newName answer : Value} {b b' : Bench}
    (h : (renameByEngine v position newName).perform b = (.ok answer, b')) :
    ∃ place word, v.document.document.enginePosition b.host.files position = .ok place ∧
      v.document.document.wordAt b.host.files position = .ok word ∧
      b'.calls.getLast? = some (questionCall "rename" (Table.put place "new_name" newName)) := by
  obtain ⟨word, b₁, hread, hplacing⟩ := Job.perform_bind_eq_ok.mp h
  obtain ⟨hword, rfl⟩ := reading_eq_ok hread
  obtain ⟨place, b₂, hread, hopening⟩ := Job.perform_bind_eq_ok.mp hplacing
  obtain ⟨hplace, rfl⟩ := reading_eq_ok hread
  obtain ⟨_, b₃, -, hasking⟩ := Job.perform_bind_eq_ok.mp hopening
  obtain ⟨changed, b₄, hasked, hwriting⟩ := Job.perform_bind_eq_ok.mp hasking
  obtain ⟨changes, b₅, hwritten, hend⟩ := Job.perform_bind_eq_ok.mp (host_bind_eq_ok hwriting)
  obtain ⟨-, rfl⟩ := Prod.mk.inj hend
  -- Writing the changes down asks nothing more.
  have hquiet : b₅.calls = b₄.calls := by
    refine calls_of_keeps (Job.Keeps.mapM (fun file => ?_) _) hwritten
    exact (Job.Keeps.ofExcept _).bind fun _ => Job.Keeps.pure _
  have hquestion := ask_calls (tryCatch_eq_ok (fun f => by split <;> exact ⟨_, rfl⟩) hasked)
  refine ⟨place, word, hplace, hword, ?_⟩
  rw [hquiet, hquestion, List.getLast?_concat]

/-- A text that was read from a file has no carriage returns. -/
theorem return_not_mem_read {files : FileTree} {path text : String} (h : files.read path = .ok text) :
    '\r' ∉ text.toList := by
  have hunified : ∃ s, text = String.ofList (Text.unifyBreaks s) := by
    unfold FileTree.read at h
    split at h
    · cases h
    · split at h
      · next content _ =>
        cases content with
        | text s =>
          cases h
          exact ⟨s.toList, rfl⟩
        | octets bytes =>
          simp only [FileTree.textOf] at h
          split at h
          · next s _ =>
            cases h
            exact ⟨s, rfl⟩
          · cases h
      · split at h <;> cases h
  obtain ⟨s, rfl⟩ := hunified
  rw [String.toList_ofList]
  exact Text.return_not_mem_unifyBreaks s

/-- **The word of a place**: none past the end, and else what is found on its line. -/
theorem exists_wordAt {d : Document} {files : FileTree} {position : Value} {place : Place} {text : String}
    (hplace : Position.ofValue position = .ok place.position) (htext : d.text files = .ok text) :
    ∃ word, d.wordAt files position = .ok (String.ofList word) ∧
      ((Text.lines text.toList).length ≤ place.line → word = []) ∧
      ∀ line, (Text.lines text.toList)[place.line]? = some line → word = Document.wordAround line place.character := by
  cases hline : (Text.lines text.toList)[place.line]? with
  | none =>
    have hpast := List.getElem?_eq_none_iff.mp hline
    exact ⟨[], Document.wordAt_past hplace htext hpast, fun _ => rfl, fun _ h => by cases h⟩
  | some line =>
    obtain ⟨hlt, -⟩ := List.getElem?_eq_some_iff.mp hline
    refine ⟨_, Document.wordAt_line hplace htext hline, fun hpast => absurd hlt (Nat.not_lt_of_le hpast), ?_⟩
    rintro _ ⟨⟩
    rfl

/-- **The word under the cursor is the one at the clipped column, unless it is missed.** Whatever place of a document that
can be read a client names:

* the engine is told the clipped column, and on a line past the end there is no word;
* on a line of the document the word that is found is the one at the clipped column exactly if that one is not missed, and
  if it is, no word is found; in a document on disk none is missed;
* hovering asks the engine about this column and chooses by this word, and renaming asks about this column. -/
theorem word_at_clipped_column_iff {v : View} {position : Value} {place : Place} {b : Bench} {text : String}
    (hplace : Position.ofValue position = .ok place.position)
    (htext : v.document.document.text b.host.files = .ok text) :
    ∃ (word : List Char) (column : Nat),
      v.document.document.wordAt b.host.files position = .ok (String.ofList word) ∧
      Document.clipColumn place.character (Text.lines text.toList) place.line = .ok column ∧
      ((Text.lines text.toList).length ≤ place.line → word = []) ∧
      (∀ line, (Text.lines text.toList)[place.line]? = some line →
        column = min place.character (content line).length ∧
        (IsWordAt line column word ↔ ¬ Missed line place.character) ∧
        (Missed line place.character → word = [] ∧ v.document.document.source ≠ none)) ∧
      (∀ answer b', (hover v.document position).perform b = (.ok answer, b') → ∃ definitions,
        b.host.answers.engine.infer = .ok definitions ∧ answer = hoverAnswer definitions (String.ofList word) ∧
        b'.calls.getLast? = some (questionCall "infer" [("line", .int (place.line + 1)), ("column", .int column)])) ∧
      ∀ newName answer b', (renameByEngine v position newName).perform b = (.ok answer, b') →
        b'.calls.getLast? = some (questionCall "rename"
          [("line", .int (place.line + 1)), ("column", .int column), ("new_name", newName)]) := by
  obtain ⟨word, hword, hpast, hfound⟩ := exists_wordAt hplace htext
  have hengine := Document.enginePosition_eq hplace htext
  refine ⟨word, place.column (Text.lines text.toList), hword, Document.clipColumn_eq place _, hpast, ?_, ?_, ?_⟩
  · intro line hline
    have hmem : line ∈ Text.lines text.toList := List.mem_of_getElem? hline
    have hcolumn : place.column (Text.lines text.toList) = min place.character (content line).length := by
      rw [Place.column, hline]
    have hle : min place.character (content line).length ≤ line.length := by
      obtain ⟨-, ending, -, hsplit⟩ := Document.content_ending hmem
      have hlength := congrArg List.length hsplit
      rw [List.length_append] at hlength
      omega
    rw [hcolumn, Document.isWordAt_iff hle, hfound line hline, Document.wordAround_eq hmem]
    refine ⟨rfl, ?_, fun hmissed => ⟨if_pos hmissed, fun hdisk => ?_⟩⟩
    · split
      · next hmissed => exact ⟨fun heq => absurd heq (Document.ne_runsAround_of_missed hmem hmissed), fun h => absurd hmissed h⟩
      · next hnot => exact ⟨fun _ => hnot, fun _ => rfl⟩
    · rw [Document.text, hdisk] at htext
      have hreturn : '\r' ∈ (Text.lines text.toList).flatten := List.mem_flatten.mpr ⟨line, hmem, hmissed.2.1⟩
      rw [Text.flatten_lines] at hreturn
      exact return_not_mem_read htext hreturn
  · intro answer b' h
    obtain ⟨_, definitions, _, hplaced, hinfer, hused, hanswer, hcall⟩ := hover_eq_ok h
    cases hengine.symm.trans hplaced
    cases hword.symm.trans hused
    exact ⟨definitions, hinfer, hanswer, hcall⟩
  · intro newName answer b' h
    obtain ⟨_, _, hplaced, -, hcall⟩ := renameByEngine_calls h
    cases hengine.symm.trans hplaced
    exact hcall

/-- A document of one line, and what ends this line. -/
def importing (ending : String) : View where
  config := (questionOf .hover).config
  workspace := (questionOf .hover).workspace
  workspaceConfig := none
  document := { document := { unbroken with source := some ("import sys" ++ ending) }, config := none, rootPath := "/ws" }

/-- Past the end of the line `sys` is found before a line feed, and missed before a carriage return. -/
theorem word_at_clipped_column_iff_two_endings :
    (∃ word, (importing "\n").document.document.wordAt {} (Place.position ⟨0, 1000⟩).toValue =
      .ok (String.ofList word) ∧ IsWordAt "import sys\n".toList 10 word) ∧
    ∃ word, (importing "\r\n").document.document.wordAt {} (Place.position ⟨0, 1000⟩).toValue =
      .ok (String.ofList word) ∧ ¬ IsWordAt "import sys\r\n".toList 10 word := by
  have hplace : Position.ofValue (Place.position ⟨0, 1000⟩).toValue = .ok (Place.position ⟨0, 1000⟩) := rfl
  have htext : ∀ ending, (importing ending).document.document.text ({} : Bench).host.files =
      .ok ("import sys" ++ ending) := fun _ => rfl
  constructor
  · obtain ⟨word, column, hword, -, -, hline, -⟩ := word_at_clipped_column_iff hplace (htext "\n")
    obtain ⟨rfl, hiff, -⟩ := hline "import sys\n".toList (by decide)
    exact ⟨word, hword, hiff.mpr (by decide)⟩
  · obtain ⟨word, column, hword, -, -, hline, -⟩ := word_at_clipped_column_iff hplace (htext "\r\n")
    obtain ⟨rfl, hiff, -⟩ := hline "import sys\r\n".toList (by decide)
    exact ⟨word, hword, fun hthere => hiff.mp hthere (by decide)⟩

end Feature

end EditorService
