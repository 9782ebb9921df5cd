/-!
# Lines of a text

A line ends at a line feed, a carriage return, the two together, or one of eight further break characters. `lines`
cuts a text after each break and keeps the breaks, so the lines put together are the text: `flatten_lines`. Without
their breaks the lines have none left: `isBare_of_mem_bareLines`.

A file is read with three of the breaks only: `unifyBreaks` turns `\r\n` and `\r` into `\n`, and `fileLines` cuts after
each `\n`.
-/

namespace EditorService.Text

/-- **A line break.** Line feed, vertical tab, form feed, carriage return, three information separators, next line,
line separator, paragraph separator. -/
def isBreak (c : Char) : Bool :=
  let n := c.toNat
  (10 ≤ n && n ≤ 13) || (28 ≤ n && n ≤ 30) || n == 0x85 || n == 0x2028 || n == 0x2029

/-- Puts a character in front of the first line. -/
def consLine (c : Char) : List (List Char) → List (List Char)
  | [] => [[c]]
  | line :: rest => (c :: line) :: rest

/-- **The lines of a text**, each with its break. A text that ends in a break has no empty line after it. -/
def lines : List Char → List (List Char)
  | [] => []
  | [c] => [[c]]
  | c :: d :: rest =>
    if isBreak c then
      if c == '\r' && d == '\n' then ['\r', '\n'] :: lines rest
      else [c] :: lines (d :: rest)
    else consLine c (lines (d :: rest))

/-- A line without its break. -/
def dropBreak (line : List Char) : List Char :=
  match line.reverse with
  | '\n' :: '\r' :: front => front.reverse
  | c :: front => if isBreak c then front.reverse else line
  | [] => line

/-- The lines of a text, each without its break. -/
def bareLines (s : List Char) : List (List Char) := (lines s).map dropBreak

theorem flatten_consLine (c : Char) (ls : List (List Char)) : (consLine c ls).flatten = c :: ls.flatten := by
  cases ls <;> simp [consLine]

/-- Nothing is lost and nothing is added: the lines put together are the text. -/
@[simp] theorem flatten_lines (s : List Char) : (lines s).flatten = s := by
  fun_induction lines s with
  | case1 => rfl
  | case2 c => rfl
  | case3 c d rest _ hcd ih =>
    simp only [Bool.and_eq_true, beq_iff_eq] at hcd
    simp [ih, hcd.1, hcd.2]
  | case4 c d rest _ _ ih => simp [ih]
  | case5 c d rest _ ih => rw [flatten_consLine, ih]

theorem lines_plain {c : Char} (h : isBreak c = false) (rest : List Char) :
    lines (c :: rest) = consLine c (lines rest) := by
  cases rest with
  | nil => rfl
  | cons d rest => rw [lines, h, if_neg Bool.false_ne_true]

theorem lines_break {c : Char} (h : isBreak c = true) {rest : List Char}
    (hpair : ∀ more, c = '\r' → rest = '\n' :: more → False) : lines (c :: rest) = [c] :: lines rest := by
  cases rest with
  | nil => rfl
  | cons d rest =>
    have hnot : ¬ (c == '\r' && d == '\n') = true := by
      intro hcd
      simp only [Bool.and_eq_true, beq_iff_eq] at hcd
      exact hpair rest hcd.1 (by rw [hcd.2])
    rw [lines, if_pos h, if_neg hnot]

theorem lines_pair (rest : List Char) : lines ('\r' :: '\n' :: rest) = ['\r', '\n'] :: lines rest := rfl

/-- **A line without breaks.** -/
def IsBare (line : List Char) : Prop := ∀ c ∈ line, isBreak c = false

theorem dropBreak_concat {content : List Char} (h : IsBare content) {c : Char} (hc : isBreak c = true) :
    dropBreak (content ++ [c]) = content := by
  unfold dropBreak
  split
  · next front hreverse =>
    -- A carriage return in front of the line feed would be a break in the content.
    have hreturn : content.reverse = '\r' :: front := by simp_all
    exact absurd (h '\r' (List.mem_reverse.mp (hreturn ▸ List.mem_cons_self))) (by decide)
  · next d front _ hreverse =>
    have hparts : c = d ∧ content.reverse = front := by simpa using hreverse
    rw [← hparts.1, hc, ← hparts.2]
    simp
  · next hreverse => simp at hreverse

theorem dropBreak_bare {content : List Char} (h : IsBare content) : dropBreak content = content := by
  have hlast : ∀ c front, content.reverse = c :: front → isBreak c = false := by
    intro c front hreverse
    exact h c (List.mem_reverse.mp (hreverse ▸ List.mem_cons_self))
  unfold dropBreak
  split
  · next front hreverse => exact absurd (hlast _ _ hreverse) (by decide)
  · next c front _ hreverse => rw [hlast c front hreverse, if_neg Bool.false_ne_true]
  · rfl

/-- A line is some text without breaks, and at its end one break, two that count as one, or none. -/
theorem exists_content {text line : List Char} (h : line ∈ lines text) :
    ∃ content, IsBare content ∧
      (line = content ∨ line = content ++ ['\r', '\n'] ∨ ∃ c, isBreak c = true ∧ line = content ++ [c]) := by
  have hbare : IsBare [] := fun _ hc => nomatch hc
  fun_induction lines text generalizing line with
  | case1 => exact nomatch h
  | case2 c =>
    cases List.mem_singleton.mp h
    cases hc : isBreak c with
    | true => exact ⟨[], hbare, .inr (.inr ⟨c, hc, rfl⟩)⟩
    | false => exact ⟨[c], fun d hd => List.mem_singleton.mp hd ▸ hc, .inl rfl⟩
  | case3 c d rest _ _ ih =>
    rcases List.mem_cons.mp h with rfl | h
    · exact ⟨[], hbare, .inr (.inl rfl)⟩
    · exact ih h
  | case4 c d rest hc _ ih =>
    rcases List.mem_cons.mp h with rfl | h
    · exact ⟨[], hbare, .inr (.inr ⟨c, hc, rfl⟩)⟩
    · exact ih h
  | case5 c d rest hc ih =>
    have hplain : isBreak c = false := Bool.eq_false_iff.mpr hc
    cases hlines : lines (d :: rest) with
    | nil =>
      rw [hlines] at h
      cases List.mem_singleton.mp h
      exact ⟨[c], fun d hd => List.mem_singleton.mp hd ▸ hplain, .inl rfl⟩
    | cons first more =>
      rw [hlines] at h
      rcases List.mem_cons.mp h with rfl | h
      · obtain ⟨content, hcontent, hends⟩ := ih (hlines ▸ List.mem_cons_self)
        have hcons : IsBare (c :: content) := by
          intro x hx
          rcases List.mem_cons.mp hx with rfl | hx
          · exact hplain
          · exact hcontent x hx
        refine ⟨c :: content, hcons, ?_⟩
        rcases hends with rfl | rfl | ⟨b, hb, rfl⟩
        · exact .inl rfl
        · exact .inr (.inl rfl)
        · exact .inr (.inr ⟨b, hb, rfl⟩)
      · exact ih (hlines ▸ List.mem_cons_of_mem _ h)

/-- What is left of a line without its break has no breaks. -/
theorem isBare_of_mem_bareLines {text line : List Char} (h : line ∈ bareLines text) : IsBare line := by
  obtain ⟨whole, hwhole, rfl⟩ := List.mem_map.mp h
  obtain ⟨content, hcontent, rfl | rfl | ⟨c, hc, rfl⟩⟩ := exists_content hwhole
  · rwa [dropBreak_bare hcontent]
  · have hdrop : dropBreak (content ++ ['\r', '\n']) = content := by simp [dropBreak]
    rwa [hdrop]
  · rwa [dropBreak_concat hcontent hc]

/-- A line of a text comes off its front. -/
theorem lines_bare_append {line : List Char} (h : IsBare line) (rest : List Char) :
    lines (line ++ '\n' :: rest) = (line ++ ['\n']) :: lines rest := by
  induction line with
  | nil =>
    apply lines_break (by decide)
    intro more hreturn
    exact absurd hreturn (by decide)
  | cons c cs ih =>
    have hcs : IsBare cs := fun d hd => h d (List.mem_cons_of_mem c hd)
    rw [List.cons_append, lines_plain (h c List.mem_cons_self), ih hcs]
    rfl

/-- Reads every `\r\n` and every other `\r` as `\n`. -/
def unifyBreaks : List Char → List Char
  | [] => []
  | [c] => if c == '\r' then ['\n'] else [c]
  | c :: d :: rest =>
    if c == '\r' then
      if d == '\n' then '\n' :: unifyBreaks rest else '\n' :: unifyBreaks (d :: rest)
    else c :: unifyBreaks (d :: rest)

/-- The lines of a file, each with its line feed. -/
def fileLines : List Char → List (List Char)
  | [] => []
  | c :: rest =>
    if c == '\n' then [c] :: fileLines rest
    else consLine c (fileLines rest)

end EditorService.Text
