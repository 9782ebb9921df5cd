import EditorService.Lint.OutputLine
import EditorService.Proofs.Digits

/-!
# Lines of output, read back

A line of output can often be read in more than one way, for a path may look like a finding and so may a message. The
reader decides for the longest path. `Reads` says so without the reader: the finding is one that the line can be
written from, and no longer path will do.

* **Reading** (`read?_eq_some_iff`): the reader gives the reading with the longest path, and none exactly if the line
  cannot be written from any finding (`read?_eq_none_iff`).
* **Writing** (`read?_render`): a line is read as the finding that it was written from, unless the message can itself be
  read. The path may be anything.
-/

namespace EditorService

namespace Text

theorem dropPrefix?_eq_some_iff {part s rest : List Char} : dropPrefix? part s = some rest ↔ s = part ++ rest := by
  fun_induction dropPrefix? part s with
  | case1 s => exact ⟨Option.some.inj, congrArg some⟩
  | case2 p ps => simp
  | case3 p ps c cs h ih =>
    cases beq_iff_eq.mp h
    simp [ih]
  | case4 p ps c cs h =>
    have hne : c ≠ p := fun heq => h (beq_iff_eq.mpr heq.symm)
    simp [hne]

theorem startsWith_iff {part s : List Char} : startsWith part s = true ↔ ∃ rest, s = part ++ rest := by
  simp only [startsWith, Option.isSome_iff_exists, dropPrefix?_eq_some_iff]

instance (line : List Char) : Decidable (IsBare line) :=
  decidable_of_iff (line.all fun c => !isBreak c) (by simp [IsBare])

/-! ## One item per line -/

/-- **A text that has each item on a line of its own.** A line ends with a line feed, or with a carriage return and one;
the last line need not end. -/
inductive OnePerLine : List (List Char) → List Char → Prop where
  | none : OnePerLine [] []
  | last (line : List Char) : line ≠ [] → OnePerLine [line] line
  | next (line : List Char) {ending : List Char} {rest : List (List Char)} {text : List Char} :
      ending = ['\n'] ∨ ending = ['\r', '\n'] → OnePerLine rest text → OnePerLine (line :: rest) (line ++ (ending ++ text))

/-- Without a break a text is its only line. -/
theorem lines_bare {line : List Char} (h : IsBare line) (hne : line ≠ []) : lines line = [line] := by
  induction line with
  | nil => exact absurd rfl hne
  | cons c rest ih =>
    rw [lines_plain (h c List.mem_cons_self)]
    cases rest with
    | nil => rfl
    | cons d rest =>
      rw [ih (fun x hx => h x (List.mem_cons_of_mem c hx)) (List.cons_ne_nil d rest)]
      rfl

/-- A line that ends comes off the front of a text. -/
theorem lines_ended {line : List Char} (h : IsBare line) {ending : List Char}
    (hending : ending = ['\n'] ∨ ending = ['\r', '\n']) (rest : List Char) :
    lines (line ++ (ending ++ rest)) = (line ++ ending) :: lines rest := by
  induction line with
  | nil =>
    rcases hending with rfl | rfl
    · exact lines_bare_append h rest
    · exact lines_pair rest
  | cons c cs ih =>
    rw [List.cons_append, lines_plain (h c List.mem_cons_self), ih fun d hd => h d (List.mem_cons_of_mem c hd)]
    rfl

/-- **Items without breaks come back**, one from each line. -/
theorem bareLines_of_onePerLine {items : List (List Char)} {text : List Char} (h : OnePerLine items text)
    (hbare : ∀ line ∈ items, IsBare line) : bareLines text = items := by
  induction h with
  | none => rfl
  | last line hne =>
    have hline := hbare line List.mem_cons_self
    rw [bareLines, lines_bare hline hne, List.map_singleton, dropBreak_bare hline]
  | @next line ending _ _ hending _ ih =>
    have hline := hbare line List.mem_cons_self
    have hrest := ih fun l hl => hbare l (List.mem_cons_of_mem line hl)
    have hdrop : dropBreak (line ++ ending) = line := by
      rcases hending with rfl | rfl
      · exact dropBreak_concat hline (by decide)
      · simp [dropBreak]
    rw [bareLines] at hrest
    rw [bareLines, lines_ended hline hending, List.map_cons, hdrop, hrest]

end Text

namespace Lint.OutputLine

/-- **A finding that a line can hold**: its numbers are digits and its code is a word. Each may be empty. -/
structure Spelled (o : OutputLine) : Prop where
  line : ∀ c ∈ o.line, Text.isDigit c = true
  column : ∀ c ∈ o.column, Text.isDigit c = true
  code : ∀ c ∈ o.code, Text.isWordChar c = true

/-- **A text that can be read**: somewhere in it two numbers and a code stand between their marks. -/
def Readable (mark text : List Char) : Prop := ∃ path o, Spelled o ∧ text = render mark path o

/-- **What a line says**: it is written from the finding, and from no other one with a longer path. -/
def Reads (mark text : List Char) (o : OutputLine) : Prop :=
  o.Spelled ∧ ∃ path, text = render mark path o ∧
    ∀ longer other, Spelled other → text = render mark longer other → longer.length ≤ path.length

/-- A mark that ends a code: it does not start with a word character. -/
def EndsCode (mark : List Char) : Prop := ∃ first rest, mark = first :: rest ∧ Text.isWordChar first = false

variable {mark : List Char}

/-! ## What follows the path -/

/-- A run ends where its mark starts. -/
theorem run?_eq_some_iff {kind : Char → Bool} {first : Char} {more s run rest : List Char} (h : kind first = false) :
    run? kind (first :: more) s = some (run, rest) ↔ (∀ c ∈ run, kind c = true) ∧ s = run ++ first :: more ++ rest := by
  constructor
  · intro hrun
    obtain ⟨after, hafter, hpair⟩ := Option.bind_eq_some_iff.mp hrun
    cases hpair
    refine ⟨List.all_eq_true.mp List.all_takeWhile, ?_⟩
    rw [List.append_assoc, ← Text.dropPrefix?_eq_some_iff.mp hafter, List.takeWhile_append_dropWhile]
  · rintro ⟨hkind, rfl⟩
    have htake : (run ++ first :: more ++ rest).takeWhile kind = run := by
      rw [List.append_assoc, List.takeWhile_append_of_pos hkind, List.cons_append, List.takeWhile_cons_of_neg (by simp [h]),
        List.append_nil]
    have hdrop : (run ++ first :: more ++ rest).dropWhile kind = first :: more ++ rest := by
      rw [List.append_assoc, List.dropWhile_append_of_pos hkind, List.cons_append, List.dropWhile_cons_of_neg (by simp [h])]
    rw [run?, htake, hdrop, Text.dropPrefix?_eq_some_iff.mpr rfl]
    rfl

theorem tail?_eq_some_iff (hmark : EndsCode mark) {s : List Char} {o : OutputLine} :
    tail? mark s = some o ↔ o.Spelled ∧ s = render mark [] o := by
  obtain ⟨first, more, rfl, hfirst⟩ := hmark
  have hshape : ∀ o : OutputLine, render (first :: more) [] o =
      [':'] ++ (o.line ++ [':'] ++ (o.column ++ [':', ' '] ++ (o.code ++ first :: more ++ o.message))) := by simp [render]
  constructor
  · intro h
    obtain ⟨s₁, hcolon, h⟩ := Option.bind_eq_some_iff.mp h
    obtain ⟨⟨line, s₂⟩, hrun₁, h⟩ := Option.bind_eq_some_iff.mp h
    obtain ⟨⟨column, s₃⟩, hrun₂, h⟩ := Option.bind_eq_some_iff.mp h
    obtain ⟨⟨code, message⟩, hrun₃, h⟩ := Option.bind_eq_some_iff.mp h
    cases h
    obtain ⟨hline, rfl⟩ := (run?_eq_some_iff (by decide)).mp hrun₁
    obtain ⟨hcolumn, rfl⟩ := (run?_eq_some_iff (by decide)).mp hrun₂
    obtain ⟨hcode, rfl⟩ := (run?_eq_some_iff hfirst).mp hrun₃
    exact ⟨⟨hline, hcolumn, hcode⟩, (Text.dropPrefix?_eq_some_iff.mp hcolon).trans (hshape ⟨_, _, _, _⟩).symm⟩
  · rintro ⟨⟨hline, hcolumn, hcode⟩, rfl⟩
    have hcolon : ∀ t, Text.dropPrefix? [':'] ([':'] ++ t) = some t := fun _ => Text.dropPrefix?_eq_some_iff.mpr rfl
    have hrun₁ : ∀ t, run? Text.isDigit [':'] (o.line ++ [':'] ++ t) = some (o.line, t) :=
      fun _ => (run?_eq_some_iff (by decide)).mpr ⟨hline, rfl⟩
    have hrun₂ : ∀ t, run? Text.isDigit [':', ' '] (o.column ++ [':', ' '] ++ t) = some (o.column, t) :=
      fun _ => (run?_eq_some_iff (by decide)).mpr ⟨hcolumn, rfl⟩
    have hrun₃ : run? Text.isWordChar (first :: more) (o.code ++ first :: more ++ o.message) = some (o.code, o.message) :=
      (run?_eq_some_iff hfirst).mpr ⟨hcode, rfl⟩
    simp only [hshape, tail?, hcolon, hrun₁, hrun₂, hrun₃, Option.bind_eq_bind, Option.bind_some, Option.pure_def]

/-! ## The longest path -/

theorem render_cons (c : Char) (path : List Char) (o : OutputLine) :
    render mark (c :: path) o = c :: render mark path o := rfl

theorem render_ne_nil (path : List Char) (o : OutputLine) : render mark path o ≠ [] := by
  cases path with
  | nil => exact List.cons_ne_nil _ _
  | cons c path => exact List.cons_ne_nil _ _

/-- A line with a path of its own can be read without the path's first character. -/
theorem eq_render_cons {c : Char} {rest path : List Char} {o : OutputLine} :
    c :: rest = render mark path o ↔
      path = [] ∧ c :: rest = render mark [] o ∨ ∃ shorter, path = c :: shorter ∧ rest = render mark shorter o := by
  cases path with
  | nil => simp
  | cons d path =>
    rw [render_cons, List.cons.injEq]
    constructor
    · rintro ⟨rfl, h⟩
      exact .inr ⟨path, rfl, h⟩
    · rintro (⟨h, -⟩ | ⟨shorter, h, hrest⟩)
      · cases h
      · cases h
        exact ⟨rfl, hrest⟩

theorem not_readable_nil : ¬ Readable mark [] := by
  rintro ⟨path, o, -, h⟩
  exact render_ne_nil path o h.symm

theorem readable_cons {c : Char} {rest : List Char} :
    Readable mark (c :: rest) ↔ Readable mark rest ∨ ∃ o, Spelled o ∧ c :: rest = render mark [] o := by
  constructor
  · rintro ⟨path, o, ho, h⟩
    rcases eq_render_cons.mp h with ⟨-, h⟩ | ⟨shorter, -, h⟩
    · exact .inr ⟨o, ho, h⟩
    · exact .inl ⟨shorter, o, ho, h⟩
  · rintro (⟨path, o, ho, h⟩ | ⟨o, ho, h⟩)
    · exact ⟨c :: path, o, ho, congrArg (c :: ·) h⟩
    · exact ⟨[], o, ho, h⟩

/-- **Nothing is read** exactly from a text that cannot be read. -/
theorem read?_eq_none_iff (hmark : EndsCode mark) {text : List Char} : read? mark text = none ↔ ¬ Readable mark text := by
  induction text with
  | nil => exact ⟨fun _ => not_readable_nil, fun _ => rfl⟩
  | cons c rest ih =>
    rw [readable_cons, read?, not_or, ← ih]
    cases hrest : read? mark rest with
    | some found => simp
    | none => simp [Option.eq_none_iff_forall_ne_some, tail?_eq_some_iff hmark]

theorem reads_cons_of_readable {c : Char} {rest : List Char} (h : Readable mark rest) {o : OutputLine} :
    Reads mark (c :: rest) o ↔ Reads mark rest o := by
  obtain ⟨known, other, hother, hknown⟩ := h
  constructor
  · rintro ⟨ho, path, hpath, hlongest⟩
    -- The path is not empty, because one of its length at least one is known.
    have hlength : (c :: known).length ≤ path.length := hlongest _ other hother (congrArg (c :: ·) hknown)
    rcases eq_render_cons.mp hpath with ⟨rfl, -⟩ | ⟨shorter, rfl, hshorter⟩
    · exact absurd hlength (by simp)
    · refine ⟨ho, shorter, hshorter, fun longer o' ho' h => ?_⟩
      exact Nat.le_of_succ_le_succ (hlongest (c :: longer) o' ho' (congrArg (c :: ·) h))
  · rintro ⟨ho, path, hpath, hlongest⟩
    refine ⟨ho, c :: path, congrArg (c :: ·) hpath, fun longer o' ho' h => ?_⟩
    rcases eq_render_cons.mp h with ⟨rfl, -⟩ | ⟨shorter, rfl, hshorter⟩
    · exact Nat.zero_le _
    · exact Nat.succ_le_succ (hlongest shorter o' ho' hshorter)

theorem reads_cons_of_not_readable {c : Char} {rest : List Char} (h : ¬ Readable mark rest) {o : OutputLine} :
    Reads mark (c :: rest) o ↔ o.Spelled ∧ c :: rest = render mark [] o := by
  constructor
  · rintro ⟨ho, path, hpath, -⟩
    rcases eq_render_cons.mp hpath with ⟨-, hempty⟩ | ⟨shorter, -, hshorter⟩
    · exact ⟨ho, hempty⟩
    · exact absurd ⟨shorter, o, ho, hshorter⟩ h
  · rintro ⟨ho, hempty⟩
    refine ⟨ho, [], hempty, fun longer o' ho' hlonger => ?_⟩
    rcases eq_render_cons.mp hlonger with ⟨rfl, -⟩ | ⟨shorter, -, hshorter⟩
    · exact Nat.le_refl _
    · exact absurd ⟨shorter, o', ho', hshorter⟩ h

/-- **The reader decides for the longest path.** -/
theorem read?_eq_some_iff (hmark : EndsCode mark) {text : List Char} {o : OutputLine} :
    read? mark text = some o ↔ Reads mark text o := by
  induction text with
  | nil =>
    constructor
    · intro h
      cases h
    · rintro ⟨-, path, h, -⟩
      exact absurd h.symm (render_ne_nil path o)
  | cons c rest ih =>
    rw [read?]
    cases hrest : read? mark rest with
    | some found =>
      have hreadable : Readable mark rest := Classical.not_not.mp fun hnot =>
        Option.some_ne_none found (hrest.symm.trans ((read?_eq_none_iff hmark).mpr hnot))
      rw [reads_cons_of_readable hreadable, ← ih, hrest]
    | none =>
      have hnot : ¬ Readable mark rest := (read?_eq_none_iff hmark).mp hrest
      rw [reads_cons_of_not_readable hnot]
      exact tail?_eq_some_iff hmark

/-! ## Lines that were written -/

theorem read?_cons_of_tail? {c : Char} {rest : List Char} (h : tail? mark (c :: rest) = none) :
    read? mark (c :: rest) = read? mark rest := by
  rw [read?, h]
  cases read? mark rest <;> rfl

theorem tail?_of_ne_colon {c : Char} (h : c ≠ ':') (rest : List Char) : tail? mark (c :: rest) = none := by
  have hprefix : Text.dropPrefix? [':'] (c :: rest) = none := if_neg fun heq => h (beq_iff_eq.mp heq).symm
  rw [tail?, hprefix]
  rfl

/-- Between a line and a column there is no blank. -/
theorem tail?_colon_blank (rest : List Char) : tail? mark (':' :: ' ' :: rest) = none := rfl

/-- One number is not enough. -/
theorem tail?_one_number {column : List Char} (h : ∀ c ∈ column, Text.isDigit c = true) (rest : List Char) :
    tail? mark (':' :: (column ++ ':' :: ' ' :: rest)) = none := by
  have hrun : run? Text.isDigit [':'] (column ++ ':' :: ' ' :: rest) = some (column, ' ' :: rest) :=
    (run?_eq_some_iff (by decide)).mpr ⟨h, by simp⟩
  have hcolon : Text.dropPrefix? [':'] (':' :: (column ++ ':' :: ' ' :: rest)) = some (column ++ ':' :: ' ' :: rest) := rfl
  rw [tail?, hcolon, Option.bind_eq_bind, Option.bind_some, hrun]
  rfl

/-- What holds no colon is part of the path. -/
theorem read?_skip {s : List Char} (h : ':' ∉ s) (rest : List Char) : read? mark (s ++ rest) = read? mark rest := by
  induction s with
  | nil => rfl
  | cons c s ih =>
    have hc : c ≠ ':' := fun heq => h (heq ▸ List.mem_cons_self)
    rw [List.cons_append, read?_cons_of_tail? (tail?_of_ne_colon hc _), ih fun hs => h (List.mem_cons_of_mem c hs)]

theorem read?_behind (path : List Char) {text : List Char} {o : OutputLine} (h : read? mark text = some o) :
    read? mark (path ++ text) = some o := by
  induction path with
  | nil => exact h
  | cons c path ih => rw [List.cons_append, read?, ih]

theorem colon_notMem {kind : Char → Bool} (hcolon : kind ':' = false) {s : List Char} (h : ∀ c ∈ s, kind c = true) :
    ':' ∉ s := by
  intro hmem
  rw [h ':' hmem] at hcolon
  cases hcolon

/-- **A line is read as what it was written from**, if nothing is read behind its code. The path may be anything. -/
theorem read?_render (hmark : EndsCode mark) {o : OutputLine} (ho : o.Spelled)
    (hquiet : read? mark (mark ++ o.message) = none) (path : List Char) : read? mark (render mark path o) = some o := by
  -- From the back to the front: nothing is read until both numbers are there.
  have hcode : read? mark (o.code ++ (mark ++ o.message)) = none := by
    rw [read?_skip (colon_notMem (by decide) ho.code), hquiet]
  have hblank : read? mark (':' :: ' ' :: (o.code ++ (mark ++ o.message))) = none := by
    rw [read?_cons_of_tail? (tail?_colon_blank _), read?_cons_of_tail? (tail?_of_ne_colon (by decide) _), hcode]
  have hcolumn : read? mark (':' :: (o.column ++ ':' :: ' ' :: (o.code ++ (mark ++ o.message)))) = none := by
    rw [read?_cons_of_tail? (tail?_one_number ho.column _), read?_skip (colon_notMem (by decide) ho.column), hblank]
  have hline : read? mark (o.line ++ ':' :: (o.column ++ ':' :: ' ' :: (o.code ++ (mark ++ o.message)))) = none := by
    rw [read?_skip (colon_notMem (by decide) ho.line), hcolumn]
  have hshape : render mark [] o =
      ':' :: (o.line ++ ':' :: (o.column ++ ':' :: ' ' :: (o.code ++ (mark ++ o.message)))) := by simp [render]
  have htail : tail? mark (render mark [] o) = some o := (tail?_eq_some_iff hmark).mpr ⟨ho, rfl⟩
  have hread : read? mark (render mark [] o) = some o := by
    rw [hshape, read?, hline, ← hshape]
    exact htail
  have hpath : render mark path o = path ++ render mark [] o := by simp [render]
  rw [hpath, read?_behind path hread]

end Lint.OutputLine

end EditorService
