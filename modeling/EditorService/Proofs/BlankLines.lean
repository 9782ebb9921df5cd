import EditorService.Proofs.Outline

/-!
# Blank lines and folds by indentation

A fold is of use if it starts on a line of the text and ends behind its start. Folds by indentation need not: a line of
blanks has a level, so it opens and closes blocks, but it is not a line at which a block could start or end. A block that
is opened and closed between two lines of text starts and ends at the first of them.

This module tells from the lines alone when that happens. The lines of a text fall into stretches, each from one line of
text to the next. A stretch in which levels never rise (`Falls`) opens nothing. In every other stretch something starts at
its first line, and the fold there is of use exactly if a block is still open at the next line of text, which means
that this line is further in than some line before it in the stretch.

**The law** (`useful_outlineOf_iff`): all folds of an outline are of use exactly if its lines are `Settled`. The proof
follows the levels since the last line of text (`Outline.Since`): they tell which of the open blocks are recent and
whether anything starts at the current line.
-/

namespace EditorService.Folding

/-! ## Lines that are settled -/

/-- **Levels that never rise.** -/
def Falls (levels : List Nat) : Prop := levels.Pairwise fun before after => after ≤ before

instance (levels : List Nat) : Decidable (Falls levels) := inferInstanceAs (Decidable (levels.Pairwise _))

/-- **Lines that are settled**, given the levels since the last line of text and whether that line is in the text at all.
In each stretch levels never rise, or it ends at a line of text that is further in than some line before it. -/
def Settled (anchored : Bool) (levels : List Nat) : List (List Char) → Prop
  | [] => Falls levels
  | line :: rest =>
    if (Text.trim line).isEmpty then Settled anchored (levels ++ [depth line]) rest
    else
      (Falls (levels ++ [depth line]) ∨ anchored = true ∧ ∃ level ∈ levels, level < depth line) ∧
        Settled true [depth line] rest

instance decidableSettled : (anchored : Bool) → (levels : List Nat) → (lines : List (List Char)) →
    Decidable (Settled anchored levels lines)
  | _, levels, [] => inferInstanceAs (Decidable (Falls levels))
  | anchored, levels, line :: rest =>
    have := decidableSettled anchored (levels ++ [depth line]) rest
    have := decidableSettled true [depth line] rest
    if hblank : (Text.trim line).isEmpty then decidable_of_iff _ (Iff.of_eq (if_pos hblank)).symm
    else decidable_of_iff _ (Iff.of_eq (if_neg hblank)).symm

/-- **A text that is well spaced**: its lines are settled from the first that is not empty, and the first stretch has a
line to start at if an empty line stands in front of it. -/
def WellSpaced (lines : List (List Char)) : Prop :=
  Settled (lines.head? == some []) [0] (lines.dropWhile (·.isEmpty))

instance (lines : List (List Char)) : Decidable (WellSpaced lines) := inferInstanceAs (Decidable (Settled _ _ _))

/-- Levels that fall go on falling exactly if the next is not further in than the last. -/
theorem falls_concat {levels : List Nat} {last d : Nat} (hlast : levels.getLast? = some last) :
    Falls (levels ++ [d]) ↔ Falls levels ∧ ¬ last < d := by
  obtain ⟨front, rfl⟩ := List.getLast?_eq_some_iff.mp hlast
  simp only [Falls, List.pairwise_append, List.pairwise_singleton, List.mem_append, List.mem_singleton, forall_eq,
    true_and]
  constructor
  · rintro ⟨hfalls, hd⟩
    exact ⟨hfalls, Nat.not_lt.mpr (hd last (.inr rfl))⟩
  · rintro ⟨⟨hfront, hlower⟩, hd⟩
    refine ⟨⟨hfront, hlower⟩, ?_⟩
    rintro level (hlevel | rfl)
    · have := hlower level hlevel
      omega
    · omega

/-! ## Texts that are neat -/

/-- **A neat text**: no line has two or more blanks and nothing else, and the first line does not start with a blank. -/
structure Neat (lines : List (List Char)) : Prop where
  flat : ∀ line ∈ lines, Text.trim line = [] → line.length ≤ 1
  first : ∀ c rest, lines.head? = some (c :: rest) → Text.isBlank c = false

theorem depth_of_length_le {line : List Char} (h : line.length ≤ 1) : depth line = 0 := by
  have hblanks : (line.takeWhile Text.isBlank).length ≤ line.length := (List.takeWhile_sublist _).length_le
  unfold depth level?
  grind

theorem depth_of_head {c : Char} (hc : Text.isBlank c = false) (rest : List Char) : depth (c :: rest) = 0 := by
  simp [depth, level?, hc]

/-- Where no line of blanks is indented, only a line of text is further in than the line before it. -/
theorem settled_of_flat {levels : List Nat} {last : Nat} {lines : List (List Char)} (hlast : levels.getLast? = some last)
    (hfalls : Falls levels) (hflat : ∀ line ∈ lines, Text.trim line = [] → line.length ≤ 1) :
    Settled true levels lines := by
  induction lines generalizing levels last with
  | nil => exact hfalls
  | cons line rest ih =>
    have hrest : ∀ l ∈ rest, Text.trim l = [] → l.length ≤ 1 := fun l hl => hflat l (List.mem_cons_of_mem line hl)
    unfold Settled
    split
    · next hblank =>
      have hzero := depth_of_length_le (hflat line List.mem_cons_self (List.isEmpty_iff.mp hblank))
      refine ih (List.getLast?_concat ..) ?_ hrest
      rw [falls_concat hlast, hzero]
      exact ⟨hfalls, Nat.not_lt_zero _⟩
    · refine ⟨?_, ih rfl (List.pairwise_singleton _ _) hrest⟩
      by_cases hlt : last < depth line
      · exact .inr ⟨rfl, last, List.mem_of_getLast? hlast, hlt⟩
      · exact .inl ((falls_concat hlast).mpr ⟨hfalls, hlt⟩)

/-- **A neat text is well spaced.** -/
theorem Neat.wellSpaced {lines : List (List Char)} (h : Neat lines) : WellSpaced lines := by
  unfold WellSpaced
  match lines, h with
  | [], _ => exact List.pairwise_singleton _ _
  | [] :: rest, h =>
    refine settled_of_flat rfl (List.pairwise_singleton _ _) fun line hline => h.flat line ?_
    exact (List.dropWhile_sublist _).mem hline
  | (c :: cs) :: rest, h =>
    -- The first line is text and not indented, so nothing starts before it.
    have hc := h.first c cs rfl
    have htext : ¬ (Text.trim (c :: cs)).isEmpty = true := by
      rw [List.isEmpty_iff]
      exact Text.trim_cons_ne_nil hc cs
    show Settled _ [0] ((c :: cs) :: rest)
    unfold Settled
    rw [if_neg htext, depth_of_head hc]
    refine ⟨.inl (by decide), settled_of_flat rfl (List.pairwise_singleton _ _) fun line hline => ?_⟩
    exact h.flat line (List.mem_cons_of_mem _ hline)

namespace Outline

/-! ## What starts at a line -/

/-- A fold starts at a line. -/
def Starts (o : Outline) (s : Int) : Prop := (∃ x ∈ o.opened, x.2 = s) ∨ ∃ f ∈ o.closed, f.1 = s

/-- A fold starts at a line and ends behind it, or is still open. -/
def Lasts (o : Outline) (s : Int) : Prop := (∃ x ∈ o.opened, x.2 = s) ∨ ∃ f ∈ o.closed, f.1 = s ∧ s < f.2

theorem Nested.le_of_starts {o : Outline} (h : o.Nested) {s : Int} (hs : o.Starts s) : s ≤ o.line := by
  rcases hs with ⟨x, hx, rfl⟩ | ⟨f, hf, rfl⟩
  · exact (h.start x hx).2
  · have := h.stop f hf
    omega

theorem starts_enter {o : Outline} {d : Nat} {s : Int} :
    (o.enter d).Starts s ↔ o.Starts s ∨ (o.level < d ∧ s = o.line) := by
  constructor
  · rintro (⟨x, hx, rfl⟩ | ⟨f, hf, rfl⟩)
    · rcases mem_enter_opened.mp hx with ⟨hlt, rfl⟩ | ⟨hx, -⟩
      · exact .inr ⟨hlt, rfl⟩
      · exact .inl (.inl ⟨x, hx, rfl⟩)
    · rcases mem_close_closed.mp hf with hf | ⟨x, hx, -, rfl⟩
      · exact .inl (.inr ⟨f, hf, rfl⟩)
      · exact .inl (.inl ⟨x, hx, rfl⟩)
  · rintro ((⟨x, hx, rfl⟩ | ⟨f, hf, rfl⟩) | ⟨hlt, rfl⟩)
    · by_cases hd : x.1 < d
      · exact .inl ⟨x, mem_enter_opened.mpr (.inr ⟨hx, hd⟩), rfl⟩
      · exact .inr ⟨_, mem_close_closed.mpr (.inr ⟨x, hx, Nat.not_lt.mp hd, rfl⟩), rfl⟩
    · exact .inr ⟨f, mem_close_closed.mpr (.inl hf), rfl⟩
    · exact .inl ⟨_, mem_enter_opened.mpr (.inl ⟨hlt, rfl⟩), rfl⟩

/-- A block that started before the current line ends behind its start when it is closed now. -/
theorem lasts_enter {o : Outline} {d : Nat} {s : Int} (hs : s < o.line) : (o.enter d).Lasts s ↔ o.Lasts s := by
  constructor
  · rintro (⟨x, hx, rfl⟩ | ⟨f, hf, rfl, hlt⟩)
    · rcases mem_enter_opened.mp hx with ⟨-, rfl⟩ | ⟨hx, -⟩
      · exact absurd hs (Int.lt_irrefl _)
      · exact .inl ⟨x, hx, rfl⟩
    · rcases mem_close_closed.mp hf with hf | ⟨x, hx, -, rfl⟩
      · exact .inr ⟨f, hf, rfl, hlt⟩
      · exact .inl ⟨x, hx, rfl⟩
  · rintro (⟨x, hx, rfl⟩ | ⟨f, hf, rfl, hlt⟩)
    · by_cases hd : x.1 < d
      · exact .inl ⟨x, mem_enter_opened.mpr (.inr ⟨hx, hd⟩), rfl⟩
      · exact .inr ⟨_, mem_close_closed.mpr (.inr ⟨x, hx, Nat.not_lt.mp hd, rfl⟩), rfl, hs⟩
    · exact .inr ⟨f, mem_close_closed.mpr (.inl hf), rfl, hlt⟩

/-! ## The levels since the last line of text -/

/-- **What the levels since the last line of text tell.** The last of them is the current one. An open block started at
the last line of text exactly if some level is no further in than the block. A level below the current one has such a
block. Something starts at the last line of text exactly if levels rise. -/
structure Since (o : Outline) (levels : List Nat) : Prop where
  last : levels.getLast? = some o.level
  recent : ∀ x ∈ o.opened, x.2 = o.line ↔ ∃ level ∈ levels, level ≤ x.1
  based : ∀ level ∈ levels, level < o.level → ∃ x ∈ o.opened, x.2 = o.line ∧ x.1 ≤ level
  begun : Falls levels ↔ ¬ o.Starts o.line

/-- A block that started at the last line of text is open at a level exactly if the level is further in than some level
since. -/
theorem Since.recent_enter {o : Outline} {levels : List Nat} (h : o.Since levels) (d : Nat) :
    (∃ x ∈ (o.enter d).opened, x.2 = o.line) ↔ ∃ level ∈ levels, level < d := by
  constructor
  · rintro ⟨x, hx, hline⟩
    rcases mem_enter_opened.mp hx with ⟨hlt, -⟩ | ⟨hx, hlt⟩
    · exact ⟨o.level, List.mem_of_getLast? h.last, hlt⟩
    · obtain ⟨level, hlevel, hle⟩ := (h.recent x hx).mp hline
      exact ⟨level, hlevel, by omega⟩
  · rintro ⟨level, hlevel, hlt⟩
    by_cases hbelow : level < o.level
    · obtain ⟨x, hx, hline, hle⟩ := h.based level hlevel hbelow
      exact ⟨x, mem_enter_opened.mpr (.inr ⟨hx, by omega⟩), hline⟩
    · exact ⟨_, mem_enter_opened.mpr (.inl ⟨by omega, rfl⟩), rfl⟩

/-- A blank line adds its level. -/
theorem Since.enter {o : Outline} {levels : List Nat} (h : o.Since levels) (d : Nat) :
    (o.enter d).Since (levels ++ [d]) where
  last := by simp
  recent := by
    intro x hx
    simp only [List.mem_append, List.mem_singleton, enter_line]
    rcases mem_enter_opened.mp hx with ⟨hlt, rfl⟩ | ⟨hx, hlt⟩
    · exact ⟨fun _ => ⟨o.level, .inl (List.mem_of_getLast? h.last), Nat.le_refl _⟩, fun _ => rfl⟩
    · rw [h.recent x hx]
      constructor
      · rintro ⟨level, hlevel, hle⟩
        exact ⟨level, .inl hlevel, hle⟩
      · rintro ⟨level, hlevel | rfl, hle⟩
        · exact ⟨level, hlevel, hle⟩
        · omega
  based := by
    intro level hlevel hlt
    simp only [enter_level, enter_line] at hlt ⊢
    rcases List.mem_append.mp hlevel with hlevel | hlevel
    · by_cases hbelow : level < o.level
      · obtain ⟨x, hx, hline, hle⟩ := h.based level hlevel hbelow
        exact ⟨x, mem_enter_opened.mpr (.inr ⟨hx, by omega⟩), hline, hle⟩
      · exact ⟨(o.level, o.line), mem_enter_opened.mpr (.inl ⟨by omega, rfl⟩), rfl, by simpa using hbelow⟩
    · rw [List.mem_singleton.mp hlevel] at hlt
      exact absurd hlt (Nat.lt_irrefl _)
  begun := by
    rw [falls_concat h.last, enter_line, starts_enter, h.begun]
    simp

/-- A line of text starts a new stretch. -/
theorem Since.moveTo {o : Outline} (hordered : o.Ordered) (hnested : o.Nested) {i : Int} (hi : o.line < i) :
    ({ o with line := i } : Outline).Since [o.level] where
  last := rfl
  recent := by
    intro x hx
    have hbefore := (hnested.start x hx).2
    have hbelow := hordered.below x hx
    simp only [List.mem_singleton, exists_eq_left]
    omega
  based := by
    intro level hlevel hlt
    rw [List.mem_singleton.mp hlevel] at hlt
    exact absurd hlt (Nat.lt_irrefl _)
  begun := by
    refine ⟨fun _ hstarts => ?_, fun _ => List.pairwise_singleton _ _⟩
    have hle : i ≤ o.line := hnested.le_of_starts hstarts
    omega

/-! ## When all folds are of use -/

/-- **All that started before the current line is of use.** -/
def Useful (o : Outline) : Prop := ∀ s < o.line, o.Starts s → 1 ≤ s ∧ o.Lasts s

theorem useful_enter (o : Outline) (d : Nat) : (o.enter d).Useful ↔ o.Useful := by
  have hbefore : ∀ s < o.line, ((o.enter d).Starts s ↔ o.Starts s) ∧ ((o.enter d).Lasts s ↔ o.Lasts s) := by
    intro s hs
    refine ⟨?_, lasts_enter hs⟩
    rw [starts_enter]
    exact ⟨fun h => h.resolve_right fun hline => Int.ne_of_lt hs hline.2, .inl⟩
  constructor
  · intro h s hs hstart
    obtain ⟨hstarts, hlasts⟩ := hbefore s hs
    exact (h s hs (hstarts.mpr hstart)).imp_right hlasts.mp
  · intro h s hs hstart
    obtain ⟨hstarts, hlasts⟩ := hbefore s hs
    exact (h s hs (hstarts.mp hstart)).imp_right hlasts.mpr

/-- At a line of text the stretch before it is over. What starts at its first line is of use if that line is in the text
and a block is still open. -/
theorem useful_text {o : Outline} {levels : List Nat} (hsince : o.Since levels) (hordered : o.Ordered)
    (hnested : o.Nested) (hline : 0 ≤ o.line) {i : Int} (hi : o.line < i) (d : Nat) :
    ({ o.enter d with line := i } : Outline).Useful ↔
      o.Useful ∧ (Falls (levels ++ [d]) ∨ 1 ≤ o.line ∧ ∃ level ∈ levels, level < d) := by
  have hentered := hnested.enter hordered hline d
  have hbegun := (hsince.enter d).begun
  -- No closed fold ends behind the current line, so only an open block can last.
  have hlasts : (o.enter d).Lasts o.line ↔ ∃ level ∈ levels, level < d := by
    rw [← hsince.recent_enter d]
    refine ⟨?_, .inl⟩
    rintro (hopened | ⟨f, hf, -, hlt⟩)
    · exact hopened
    · have hstop : f.2 ≤ o.line := (hentered.stop f hf).2.2
      omega
  rw [← useful_enter o d, ← hlasts]
  constructor
  · intro h
    refine ⟨fun s hs => h s (Int.lt_trans hs hi), ?_⟩
    by_cases hfalls : Falls (levels ++ [d])
    · exact .inl hfalls
    · exact .inr (h o.line hi (Classical.not_not.mp fun hnot => hfalls (hbegun.mpr hnot)))
  · rintro ⟨hbefore, hstretch⟩ s hs hstarts
    rcases Int.lt_or_eq_of_le (hentered.le_of_starts hstarts) with hlt | rfl
    · exact hbefore s hlt hstarts
    · exact hstretch.resolve_left fun hfalls => hbegun.mp hfalls hstarts

theorem starts_iff_mem_folds {o : Outline} {s : Int} : o.Starts s ↔ ∃ f ∈ o.folds, f.1 = s := by
  constructor
  · rintro (⟨x, hx, rfl⟩ | ⟨f, hf, rfl⟩)
    · exact ⟨_, mem_close_closed.mpr (.inr ⟨x, hx, Nat.zero_le _, rfl⟩), rfl⟩
    · exact ⟨f, mem_close_closed.mpr (.inl hf), rfl⟩
  · rintro ⟨f, hf, rfl⟩
    rcases mem_close_closed.mp hf with hf | ⟨x, hx, -, rfl⟩
    · exact .inr ⟨f, hf, rfl⟩
    · exact .inl ⟨x, hx, rfl⟩

/-- When nothing is left to read, the folds are of use if those that started before the last line of text are, and
nothing starts at that line. -/
theorem useful_folds {o : Outline} {levels : List Nat} (hsince : o.Since levels) (hnested : o.Nested) :
    (∀ f ∈ o.folds, 1 ≤ f.1 ∧ ∃ g ∈ o.folds, g.1 = f.1 ∧ f.1 < g.2) ↔ o.Useful ∧ Falls levels := by
  have hstop : ∀ f ∈ o.folds, f.2 ≤ o.line := fun f hf => ((hnested.close 0).stop f hf).2.2
  have hlasts : ∀ s < o.line, (o.Lasts s ↔ ∃ g ∈ o.folds, g.1 = s ∧ s < g.2) := by
    intro s hs
    constructor
    · rintro (⟨x, hx, rfl⟩ | ⟨f, hf, hstart, hlt⟩)
      · exact ⟨_, mem_close_closed.mpr (.inr ⟨x, hx, Nat.zero_le _, rfl⟩), rfl, hs⟩
      · exact ⟨f, mem_close_closed.mpr (.inl hf), hstart, hlt⟩
    · rintro ⟨g, hg, hstart, hlt⟩
      rcases mem_close_closed.mp hg with hg | ⟨x, hx, -, rfl⟩
      · exact .inr ⟨g, hg, hstart, hlt⟩
      · exact .inl ⟨x, hx, hstart⟩
  rw [hsince.begun]
  constructor
  · intro h
    refine ⟨fun s hs hstarts => ?_, fun hstarts => ?_⟩
    · obtain ⟨f, hf, rfl⟩ := starts_iff_mem_folds.mp hstarts
      exact (h f hf).imp_right (hlasts _ hs).mpr
    · obtain ⟨f, hf, hstart⟩ := starts_iff_mem_folds.mp hstarts
      obtain ⟨-, g, hg, -, hlt⟩ := h f hf
      have := hstop g hg
      omega
  · rintro ⟨huseful, hnot⟩ f hf
    have hstarts : o.Starts f.1 := starts_iff_mem_folds.mpr ⟨f, hf, rfl⟩
    rcases Int.lt_or_eq_of_le (hnested.le_of_starts hstarts) with hlt | heq
    · exact (huseful _ hlt hstarts).imp_right (hlasts _ hlt).mp
    · exact absurd (heq ▸ hstarts) hnot

/-- **Reading lines to the end gives folds of use** exactly if those so far are and the lines are settled. -/
theorem useful_readAll {o : Outline} {levels : List Nat} (hsince : o.Since levels) (hordered : o.Ordered)
    (hnested : o.Nested) (hline : 0 ≤ o.line) {i : Int} (hi : o.line < i) (lines : List (List Char)) :
    (∀ f ∈ (o.readAll i lines).folds, 1 ≤ f.1 ∧ ∃ g ∈ (o.readAll i lines).folds, g.1 = f.1 ∧ f.1 < g.2) ↔
      o.Useful ∧ Settled (1 ≤ o.line) levels lines := by
  induction lines generalizing o levels i with
  | nil => exact useful_folds hsince hnested
  | cons line rest ih =>
    have hordered' := hordered.enter (depth line)
    have hnested' := hnested.enter hordered hline (depth line)
    unfold readAll read Settled
    by_cases hblank : (Text.trim line).isEmpty
    · -- A blank line belongs to the stretch.
      simp only [hblank, if_true]
      rw [ih (hsince.enter _) hordered' hnested' hline (Int.lt_trans hi (Int.lt_succ i)), useful_enter]
      rfl
    · -- A line of text ends the stretch and starts the next.
      simp only [hblank, Bool.false_eq_true, if_false]
      have hnext := ih (Since.moveTo hordered' hnested' hi) ⟨hordered'.falling, hordered'.below, hordered'.bottom⟩
        (hnested'.moveTo (Int.le_of_lt hi)) (Int.le_trans hline (Int.le_of_lt hi)) (Int.lt_succ i)
      rw [hnext, useful_text hsince hordered hnested hline hi]
      have hanchored : decide (1 ≤ i) = true := by
        rw [decide_eq_true_eq]
        omega
      simp only [hanchored, decide_eq_true_eq, enter_level, and_assoc]

end Outline

/-! ## The folds of a text -/

theorem since_start (line : Int) : ({ line := line } : Outline).Since [0] where
  last := rfl
  recent := fun _ hx => nomatch hx
  based := by
    intro level hlevel hlt
    exact absurd hlt (Nat.not_lt_zero _)
  begun := by
    refine ⟨fun _ hstarts => ?_, fun _ => List.pairwise_singleton _ _⟩
    rcases hstarts with ⟨x, hx, -⟩ | ⟨f, hf, -⟩
    · exact nomatch hx
    · exact nomatch hf

/-- A lookup in a table whose values do not rise finds the greatest one at its key. -/
theorem le_of_get?_falling {t : Table Int Int} (hfalling : t.Pairwise fun f g => g.2 ≤ f.2) {k v w : Int}
    (hv : Table.get? t k = some v) (hw : (k, w) ∈ t) : w ≤ v := by
  induction t with
  | nil => exact nomatch hw
  | cons e rest ih =>
    obtain ⟨hfirst, hrest⟩ := List.pairwise_cons.mp hfalling
    by_cases hk : e.1 = k
    · have he : e.2 = v := by simpa [Table.get?, hk] using hv
      rcases List.mem_cons.mp hw with rfl | hw
      · exact Int.le_of_eq he
      · exact he ▸ hfirst _ hw
    · rcases List.mem_cons.mp hw with rfl | hw
      · exact absurd rfl hk
      · exact ih hrest (by simpa [Table.get?, hk] using hv) hw

/-- Of folds that start at one line the last one counts, and their ends do not fall, so it is the longest. -/
theorem useful_ofList {folds : List (Int × Int)} (hrising : folds.Pairwise fun f g => f.2 ≤ g.2) :
    (∀ f ∈ Table.ofList folds, 1 ≤ f.1 ∧ f.1 < f.2) ↔
      ∀ f ∈ folds, 1 ≤ f.1 ∧ ∃ g ∈ folds, g.1 = f.1 ∧ f.1 < g.2 := by
  constructor
  · intro h f hf
    have hkey : f.1 ∈ Table.keys folds.reverse := List.mem_map_of_mem (List.mem_reverse.mpr hf)
    obtain ⟨v, hv⟩ := Option.isSome_iff_exists.mp ((Table.mem_keys_iff _ _).mp hkey)
    obtain ⟨hone, hlt⟩ := h (f.1, v) (Table.mem_of_get? ((Table.get?_ofList folds f.1).trans hv))
    exact ⟨hone, (f.1, v), List.mem_reverse.mp (Table.mem_of_get? hv), rfl, hlt⟩
  · intro h f hf
    obtain ⟨hone, g, hg, hstart, hlt⟩ := h f (Table.mem_of_mem_ofList hf)
    have hfound : Table.get? folds.reverse f.1 = some f.2 := by
      rw [← Table.get?_ofList]
      exact Table.get?_of_mem (Table.nodup_ofList folds) hf
    have hle : g.2 ≤ f.2 := by
      apply le_of_get?_falling (List.pairwise_reverse.mpr hrising) hfound
      rw [← hstart]
      exact List.mem_reverse.mpr hg
    exact ⟨hone, by omega⟩

theorem drop_takeWhile_length (lines : List (List Char)) :
    lines.drop (lines.takeWhile (·.isEmpty)).length = lines.dropWhile (·.isEmpty) := by
  induction lines with
  | nil => rfl
  | cons line rest ih =>
    cases line with
    | nil => simpa using ih
    | cons c cs => simp

/-- **All folds of an outline are of use exactly if its lines are well spaced.** -/
theorem useful_outlineOf_iff (lines : List (List Char)) :
    (∀ f ∈ Table.ofList (outlineOf lines).folds, 1 ≤ f.1 ∧ f.1 < f.2) ↔ WellSpaced lines := by
  have hempty : 0 ≤ ((lines.takeWhile (·.isEmpty)).length : Int) := Int.natCast_nonneg _
  have hanchored : decide (1 ≤ ((lines.takeWhile (·.isEmpty)).length : Int)) = (lines.head? == some []) := by
    cases lines with
    | nil => rfl
    | cons line rest =>
      cases line with
      | nil =>
        have hone : 1 ≤ ((([] :: rest).takeWhile (·.isEmpty)).length : Int) := by
          simp only [List.takeWhile_cons, List.isEmpty_nil, if_true, List.length_cons]
          omega
        rw [decide_eq_true hone]
        rfl
      | cons c cs => rfl
  have hstart : ({ line := (lines.takeWhile (·.isEmpty)).length } : Outline).Useful := by
    intro s hs hstarts
    rcases hstarts with ⟨x, hx, -⟩ | ⟨f, hf, -⟩
    · exact nomatch hx
    · exact nomatch hf
  have hrising : (outlineOf lines).folds.Pairwise fun f g => f.2 ≤ g.2 := ((nested_outlineOf lines).1.close 0).rising
  rw [useful_ofList hrising]
  unfold WellSpaced
  rw [← hanchored, ← drop_takeWhile_length]
  have hread := Outline.useful_readAll (since_start (lines.takeWhile (·.isEmpty)).length) (ordered_start _)
    (nested_start _) hempty (Int.lt_succ _) (lines.drop (lines.takeWhile (·.isEmpty)).length)
  exact hread.trans (and_iff_right hstart)

end EditorService.Folding
