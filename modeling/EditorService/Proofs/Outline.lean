import EditorService.Folding.Indentation

/-!
# The outline of a text

Reading a text for its indentation can fail in two ways: a block can be missing from the stack, and the first line of a
block can be missing from the table. Both are impossible, and this module says why. An **outline** is the same reading
without a stack and without a table: the blocks that are open are a list of levels with first lines, a line closes those
that are at least as deep as it is, and it opens one if it is further in than the line before.

**Refinement** (`read_outline`, `readAll_outline`): as long as the levels on the stack fall and lie below the current
one, with zero at the bottom, and the table has exactly the levels on the stack as its keys, reading a line succeeds,
keeps this up, and does to the outline what the outline's own step does.

**Nesting** (`Outline.Nested`): blocks that are open start in the order of their levels, and a fold that is closed lies
inside an open block or ends before it. So a block that is closed later holds the fold or comes after it.

**The law** (`byIndentation_total_laminar`): a text with a line that is not empty has folds, all of them lie in the
text, and of any two one holds the other or ends no later than the other starts.
-/

namespace EditorService.Folding

/-- **How far in a line is**, where a line that is not indented is at zero. -/
def depth (line : List Char) : Nat := (level? line).getD 0

theorem level?_pos {line : List Char} {level : Nat} (h : level? line = some level) : 0 < level := by
  unfold level? at h
  grind

/-- **A reading of lines, seen from outside**: folds that are closed, blocks that are open with their level and first
line, innermost first, the level of the line before, and the number of the last line that was not blank. -/
structure Outline where
  closed : List (Int × Int) := []
  opened : List (Nat × Int) := []
  level : Nat := 0
  line : Int := 0

namespace Outline

/-- Closes the blocks that are at least as deep as `d`. -/
def close (o : Outline) (d : Nat) : Outline :=
  { o with
    closed := o.closed ++ (o.opened.filter (d ≤ ·.1)).map fun x => (x.2, o.line)
    opened := o.opened.filter (·.1 < d) }

/-- Goes to level `d`, which opens a block if it is further in. -/
def enter (o : Outline) (d : Nat) : Outline :=
  { o.close d with
    opened := if o.level < d then (o.level, o.line) :: (o.close d).opened else (o.close d).opened
    level := d }

/-- Reads the line with number `i`. -/
def read (o : Outline) (i : Int) (line : List Char) : Outline :=
  if (Text.trim line).isEmpty then o.enter (depth line) else { o.enter (depth line) with line := i }

/-- Reads lines, the first of which has the number `i`. -/
def readAll (o : Outline) (i : Int) : List (List Char) → Outline
  | [] => o
  | line :: rest => (o.read i line).readAll (i + 1) rest

/-- The folds when nothing is left to read. -/
def folds (o : Outline) : List (Int × Int) := (o.close 0).closed

@[simp] theorem enter_level (o : Outline) (d : Nat) : (o.enter d).level = d := rfl
@[simp] theorem enter_line (o : Outline) (d : Nat) : (o.enter d).line = o.line := rfl

theorem mem_close_opened {o : Outline} {d : Nat} {x : Nat × Int} :
    x ∈ (o.close d).opened ↔ x ∈ o.opened ∧ x.1 < d := by
  simp [close]

theorem mem_close_closed {o : Outline} {d : Nat} {f : Int × Int} :
    f ∈ (o.close d).closed ↔ f ∈ o.closed ∨ ∃ x ∈ o.opened, d ≤ x.1 ∧ f = (x.2, o.line) := by
  simp only [close, List.mem_append, List.mem_map, List.mem_filter, decide_eq_true_eq]
  constructor
  · rintro (hf | ⟨x, ⟨hx, hd⟩, rfl⟩)
    · exact .inl hf
    · exact .inr ⟨x, hx, hd, rfl⟩
  · rintro (hf | ⟨x, hx, hd, rfl⟩)
    · exact .inl hf
    · exact .inr ⟨x, ⟨hx, hd⟩, rfl⟩

theorem mem_enter_opened {o : Outline} {d : Nat} {x : Nat × Int} :
    x ∈ (o.enter d).opened ↔ (o.level < d ∧ x = (o.level, o.line)) ∨ (x ∈ o.opened ∧ x.1 < d) := by
  unfold enter
  split
  · next hlt => simp [hlt, mem_close_opened]
  · next hlt => simp [hlt, mem_close_opened]

/-- A level further in than all open blocks closes none. -/
theorem close_of_below {o : Outline} {d : Nat} (h : ∀ x ∈ o.opened, x.1 < d) : o.close d = o := by
  have hclosing : o.opened.filter (d ≤ ·.1) = [] := by
    rw [List.filter_eq_nil_iff]
    intro x hx
    have := h x hx
    simp only [decide_eq_true_eq]
    omega
  have hstaying : o.opened.filter (·.1 < d) = o.opened := by
    rw [List.filter_eq_self]
    intro x hx
    exact decide_eq_true (h x hx)
  unfold close
  rw [hclosing, hstaying]
  simp

/-- Closing the innermost block first comes to the same. -/
theorem close_innermost {o : Outline} {d : Nat} {x : Nat × Int} {rest : List (Nat × Int)} (ho : o.opened = x :: rest)
    (hd : d ≤ x.1) :
    o.close d = ({ o with closed := o.closed ++ [(x.2, o.line)], opened := rest } : Outline).close d := by
  have hstays : ¬ x.1 < d := by omega
  simp [close, ho, hd, hstays]

/-! ## Levels -/

/-- **The levels of open blocks**: they fall towards the outermost one, which is at zero, and lie below the current
level. -/
structure Ordered (o : Outline) : Prop where
  falling : o.opened.Pairwise fun x y => y.1 < x.1
  below : ∀ x ∈ o.opened, x.1 < o.level
  bottom : 0 < o.level → ∃ x ∈ o.opened, x.1 = 0

theorem Ordered.enter {o : Outline} (h : o.Ordered) (d : Nat) : (o.enter d).Ordered where
  falling := by
    have hstaying : (o.close d).opened.Pairwise fun x y => y.1 < x.1 := h.falling.filter _
    unfold Outline.enter
    split
    · refine List.pairwise_cons.mpr ⟨fun y hy => ?_, hstaying⟩
      exact h.below y (mem_close_opened.mp hy).1
    · exact hstaying
  below := by
    intro x hx
    rcases mem_enter_opened.mp hx with ⟨hlt, rfl⟩ | ⟨-, hlt⟩
    · exact hlt
    · exact hlt
  bottom := by
    intro hd
    rw [enter_level] at hd
    by_cases hzero : o.level = 0
    · exact ⟨(o.level, o.line), mem_enter_opened.mpr (.inl ⟨by omega, rfl⟩), hzero⟩
    · obtain ⟨x, hx, hlevel⟩ := h.bottom (by omega)
      exact ⟨x, mem_enter_opened.mpr (.inr ⟨hx, by omega⟩), hlevel⟩

theorem Ordered.read {o : Outline} (h : o.Ordered) (i : Int) (line : List Char) : (o.read i line).Ordered := by
  have hentered := h.enter (depth line)
  unfold Outline.read
  split
  · exact hentered
  · exact ⟨hentered.falling, hentered.below, hentered.bottom⟩

end Outline

/-! ## The stack and the table give the outline -/

namespace Blocks

/-- The outline of a reading: the levels on the stack with the first lines that the table has for them. -/
def outline (b : Blocks) : Outline where
  closed := b.closed
  opened := b.levels.map fun level => (level, (Table.get? b.starts level).getD 0)
  level := b.level
  line := b.line

/-- **The table has exactly the levels on the stack as its keys.** -/
def Paired (b : Blocks) : Prop := ∀ level, level ∈ b.levels ↔ (Table.get? b.starts level).isSome

/-- Where levels fall, all other blocks are further out than the innermost one. -/
theorem outer_below {b : Blocks} (hfalling : b.outline.opened.Pairwise fun x y => y.1 < x.1) {level : Nat}
    {outer : List Nat} (hlevels : b.levels = level :: outer) : ∀ other ∈ outer, other < level := by
  have hlevel : b.levels.Pairwise fun x y => y < x := List.pairwise_map.mp hfalling
  rw [hlevels] at hlevel
  exact (List.pairwise_cons.mp hlevel).1

/-- The innermost block can be closed, and nothing else changes. -/
theorem close_outline {b : Blocks} (hpaired : b.Paired) (hfalling : b.outline.opened.Pairwise fun x y => y.1 < x.1)
    {level : Nat} {outer : List Nat} (hlevels : b.levels = level :: outer) :
    ∃ start b', b.close level outer = .ok b' ∧ b'.Paired ∧ b'.levels = outer ∧
      b.outline.opened = (level, start) :: b'.outline.opened ∧
      b'.outline =
        { b.outline with closed := b.closed ++ [(start, b.line)], opened := b'.outline.opened } := by
  obtain ⟨start, hstart⟩ := Option.isSome_iff_exists.mp ((hpaired level).mp (by simp [hlevels]))
  -- The levels fall, so the one that leaves is on the stack once only.
  have hdeeper := outer_below hfalling hlevels
  have hkept : ∀ other ∈ outer, Table.get? (Table.erase b.starts level) other = Table.get? b.starts other := by
    intro other hother
    have := hdeeper other hother
    exact Table.get?_erase_of_ne _ (by omega)
  refine ⟨start, _, by rw [close, hstart], fun other => ?_, rfl, ?_, rfl⟩
  · rw [Table.get?_erase]
    have hother := hpaired other
    rw [hlevels] at hother
    by_cases heq : other = level
    · simp only [heq, if_true, Option.isSome_none, Bool.false_eq_true, iff_false]
      intro hmem
      have := hdeeper level hmem
      omega
    · simpa [heq] using hother
  · have houter : outer.map (fun other => (other, (Table.get? (Table.erase b.starts level) other).getD 0)) =
        outer.map fun other => (other, (Table.get? b.starts other).getD 0) := by
      apply List.map_congr_left
      intro other hother
      rw [hkept other hother]
    simp [outline, hlevels, hstart, houter]

theorem closeEach_outline {b : Blocks} (hpaired : b.Paired)
    (hfalling : b.outline.opened.Pairwise fun x y => y.1 < x.1) :
    ∃ b', b.closeEach b.levels = .ok b' ∧ b'.Paired ∧ b'.outline = b.outline.close 0 := by
  generalize hlevels : b.levels = levels
  induction levels generalizing b with
  | nil =>
    refine ⟨b, rfl, hpaired, ?_⟩
    simp [Outline.close, outline, hlevels]
  | cons level outer ih =>
    obtain ⟨start, c, hclose, hc, hclevels, hopened, houtline⟩ := close_outline hpaired hfalling hlevels
    have hcfalling : c.outline.opened.Pairwise fun x y => y.1 < x.1 := by
      rw [hopened] at hfalling
      exact (List.pairwise_cons.mp hfalling).2
    obtain ⟨b', heach, hb', hresult⟩ := ih hc hcfalling hclevels
    refine ⟨b', ?_, hb', ?_⟩
    · rw [closeEach, hclose]
      exact heach
    · rw [hresult, houtline]
      exact (Outline.close_innermost hopened (Nat.zero_le _)).symm

theorem closeDeeper_outline {b : Blocks} (hpaired : b.Paired)
    (hfalling : b.outline.opened.Pairwise fun x y => y.1 < x.1) {d : Nat} (hstays : ∃ level ∈ b.levels, level < d) :
    ∃ b', b.closeDeeper d b.levels = .ok b' ∧ b'.Paired ∧ b'.outline = { b.outline.close d with level := d } := by
  generalize hlevels : b.levels = levels at hstays
  induction levels generalizing b with
  | nil => simp at hstays
  | cons level outer ih =>
    by_cases hd : d ≤ level
    · obtain ⟨start, c, hclose, hc, hclevels, hopened, houtline⟩ := close_outline hpaired hfalling hlevels
      have hcfalling : c.outline.opened.Pairwise fun x y => y.1 < x.1 := by
        rw [hopened] at hfalling
        exact (List.pairwise_cons.mp hfalling).2
      have hcstays : ∃ other ∈ outer, other < d := by
        obtain ⟨other, hother, hlt⟩ := hstays
        rcases List.mem_cons.mp hother with rfl | hother
        · omega
        · exact ⟨other, hother, hlt⟩
      obtain ⟨b', hdeeper, hb', hresult⟩ := ih hc hcfalling hclevels hcstays
      refine ⟨b', ?_, hb', ?_⟩
      · rw [closeDeeper, if_pos hd, hclose]
        exact hdeeper
      · rw [hresult, houtline, Outline.close_innermost hopened hd]
        rfl
    · -- The innermost block stays, and all others are further out.
      have hbelow : ∀ x ∈ b.outline.opened, x.1 < d := by
        intro x hx
        simp only [outline, hlevels, List.mem_map, List.mem_cons] at hx
        obtain ⟨other, rfl | hother, rfl⟩ := hx
        · show other < d
          omega
        · have := outer_below hfalling hlevels other hother
          show other < d
          omega
      refine ⟨{ b with level := d }, by rw [closeDeeper, if_neg hd], hpaired, ?_⟩
      rw [Outline.close_of_below hbelow]
      rfl

theorem enter_outline {b : Blocks} (hpaired : b.Paired) (hordered : b.outline.Ordered) (line : List Char) :
    ∃ b', b.enter line = .ok b' ∧ b'.Paired ∧ b'.outline = b.outline.enter (depth line) := by
  unfold enter depth
  cases hlevel : level? line with
  | none =>
    obtain ⟨b', hclose, hb', houtline⟩ := closeEach_outline hpaired hordered.falling
    refine ⟨{ b' with level := 0 }, ?_, hb', ?_⟩
    · simp only [closeAll, hclose]
      rfl
    · have hzero : ¬ b.outline.level < 0 := Nat.not_lt_zero _
      simp only [Option.getD_none, Outline.enter, hzero, if_false, ← houtline]
      rfl
  | some level =>
    simp only [Option.getD_some]
    have hbelow : ∀ other ∈ b.levels, other < b.level := by
      intro other hother
      exact hordered.below _ (List.mem_map_of_mem hother)
    by_cases hin : b.level < level
    · -- The level below is not on the stack, so its first line is new in the table.
      have hnew : b.level ∉ b.levels := fun hmem => Nat.lt_irrefl _ (hbelow _ hmem)
      refine ⟨_, if_pos hin, fun other => ?_, ?_⟩
      · rw [Table.get?_put]
        by_cases heq : other = b.level
        · simp [heq]
        · simpa [heq] using hpaired other
      · have hkept : b.levels.map (fun other => (other, (Table.get? (Table.put b.starts b.level b.line) other).getD 0)) =
            b.levels.map fun other => (other, (Table.get? b.starts other).getD 0) := by
          apply List.map_congr_left
          intro other hother
          have hne : other ≠ b.level := fun heq => hnew (heq ▸ hother)
          rw [Table.get?_put_of_ne _ _ hne]
        have hclosed : b.outline.close level = b.outline := by
          apply Outline.close_of_below
          intro x hx
          exact Nat.lt_trans (hordered.below x hx) hin
        have hlt : b.outline.level < level := hin
        simp only [Outline.enter, hclosed, hlt, if_true]
        simp [outline, hkept]
    · rw [if_neg hin]
      have hnot : ¬ b.outline.level < level := hin
      by_cases hout : level < b.level
      · rw [if_pos hout]
        have hstays : ∃ other ∈ b.levels, other < level := by
          obtain ⟨x, hx, hzero⟩ := hordered.bottom (Nat.lt_of_le_of_lt (Nat.zero_le level) hout)
          obtain ⟨other, hother, rfl⟩ := List.mem_map.mp hx
          have := level?_pos hlevel
          exact ⟨other, hother, by simp only at hzero; omega⟩
        obtain ⟨b', hclose, hb', houtline⟩ := closeDeeper_outline hpaired hordered.falling hstays
        refine ⟨b', hclose, hb', ?_⟩
        simp only [Outline.enter, hnot, if_false, houtline]
      · have hsame : level = b.level := by omega
        have hclosed : b.outline.close level = b.outline := by
          apply Outline.close_of_below
          intro x hx
          exact hsame ▸ hordered.below x hx
        refine ⟨b, if_neg hout, hpaired, ?_⟩
        simp only [Outline.enter, hnot, if_false, hclosed]
        rw [hsame]
        rfl

/-- **Reading a line succeeds** and does to the outline what the outline's own step does. -/
theorem read_outline {b : Blocks} (hpaired : b.Paired) (hordered : b.outline.Ordered) (i : Int) (line : List Char) :
    ∃ b', b.read i line = .ok b' ∧ b'.Paired ∧ b'.outline = b.outline.read i line := by
  obtain ⟨entered, henter, hentered, houtline⟩ := enter_outline hpaired hordered line
  refine ⟨_, by rw [read, henter]; rfl, ?_, ?_⟩
  · split
    · exact hentered
    · exact hentered
  · unfold Outline.read
    rw [← houtline]
    split
    · rfl
    · rfl

theorem readAll_outline {b : Blocks} (hpaired : b.Paired) (hordered : b.outline.Ordered) (i : Int)
    (lines : List (List Char)) :
    ∃ b', b.readAll i lines = .ok b' ∧ b'.Paired ∧ b'.outline.Ordered ∧ b'.outline = b.outline.readAll i lines := by
  induction lines generalizing b i with
  | nil => exact ⟨b, rfl, hpaired, hordered, rfl⟩
  | cons line rest ih =>
    obtain ⟨next, hread, hnext, houtline⟩ := read_outline hpaired hordered i line
    have hordered' : next.outline.Ordered := houtline ▸ hordered.read i line
    obtain ⟨b', hrest, hb', hbordered, hresult⟩ := ih hnext hordered' (i + 1)
    refine ⟨b', ?_, hb', hbordered, ?_⟩
    · rw [readAll, hread]
      exact hrest
    · rw [hresult, houtline]
      rfl

end Blocks

/-! ## Nesting -/

/-- **Two folds fit together**: one holds the other, or one ends no later than the other starts. -/
def Laminar (f g : Int × Int) : Prop :=
  (f.1 ≤ g.1 ∧ g.2 ≤ f.2) ∨ (g.1 ≤ f.1 ∧ f.2 ≤ g.2) ∨ f.2 ≤ g.1 ∨ g.2 ≤ f.1

theorem Laminar.symm {f g : Int × Int} (h : Laminar f g) : Laminar g f := by
  rcases h with h | h | h | h
  · exact .inr (.inl h)
  · exact .inl h
  · exact .inr (.inr (.inr h))
  · exact .inr (.inr (.inl h))

namespace Outline

/-- **How folds and blocks lie in each other.** An inner block starts no earlier than an outer one; a closed fold lies
behind the start of an open block or ends before it; closed folds fit together, and their ends do not fall. -/
structure Nested (o : Outline) : Prop where
  start : ∀ x ∈ o.opened, 0 ≤ x.2 ∧ x.2 ≤ o.line
  inner : ∀ x ∈ o.opened, ∀ y ∈ o.opened, y.1 < x.1 → y.2 ≤ x.2
  stop : ∀ f ∈ o.closed, 0 ≤ f.1 ∧ f.1 ≤ f.2 ∧ f.2 ≤ o.line
  apart : ∀ f ∈ o.closed, ∀ x ∈ o.opened, x.2 ≤ f.1 ∨ f.2 ≤ x.2
  laminar : ∀ f ∈ o.closed, ∀ g ∈ o.closed, Laminar f g
  rising : o.closed.Pairwise fun f g => f.2 ≤ g.2

/-- A block that is closed now holds a closed fold, or starts where that fold has ended. -/
theorem Nested.laminar_closing {o : Outline} (h : o.Nested) {f : Int × Int} (hf : f ∈ o.closed) {x : Nat × Int}
    (hx : x ∈ o.opened) : Laminar f (x.2, o.line) := by
  rcases h.apart f hf x hx with hheld | hafter
  · exact .inr (.inl ⟨hheld, (h.stop f hf).2.2⟩)
  · exact .inr (.inr (.inl hafter))

theorem Nested.close {o : Outline} (h : o.Nested) (d : Nat) : (o.close d).Nested where
  start := fun x hx => h.start x (mem_close_opened.mp hx).1
  inner := fun x hx y hy => h.inner x (mem_close_opened.mp hx).1 y (mem_close_opened.mp hy).1
  stop := by
    intro f hf
    rcases mem_close_closed.mp hf with hf | ⟨x, hx, -, rfl⟩
    · exact h.stop f hf
    · exact ⟨(h.start x hx).1, (h.start x hx).2, Int.le_refl _⟩
  apart := by
    intro f hf y hy
    obtain ⟨hy, hyd⟩ := mem_close_opened.mp hy
    rcases mem_close_closed.mp hf with hf | ⟨x, hx, hxd, rfl⟩
    · exact h.apart f hf y hy
    · -- What stays open is further out than what is closed, so it starts no later.
      exact .inl (h.inner x hx y hy (by omega))
  laminar := by
    intro f hf g hg
    rcases mem_close_closed.mp hf with hf | ⟨x, hx, -, rfl⟩
    · rcases mem_close_closed.mp hg with hg | ⟨y, hy, -, rfl⟩
      · exact h.laminar f hf g hg
      · exact h.laminar_closing hf hy
    · rcases mem_close_closed.mp hg with hg | ⟨y, hy, -, rfl⟩
      · exact (h.laminar_closing hg hx).symm
      · rcases Int.le_total x.2 y.2 with hle | hle
        · exact .inl ⟨hle, Int.le_refl _⟩
        · exact .inr (.inl ⟨hle, Int.le_refl _⟩)
  rising := by
    refine List.pairwise_append.mpr ⟨h.rising, ?_, ?_⟩
    · exact List.pairwise_map.mpr (List.pairwise_of_forall fun _ _ => Int.le_refl _)
    · intro f hf g hg
      obtain ⟨x, -, rfl⟩ := List.mem_map.mp hg
      exact (h.stop f hf).2.2

theorem Nested.enter {o : Outline} (h : o.Nested) (hordered : o.Ordered) (hline : 0 ≤ o.line) (d : Nat) :
    (o.enter d).Nested where
  start := by
    intro x hx
    rcases mem_enter_opened.mp hx with ⟨-, rfl⟩ | ⟨hx, -⟩
    · exact ⟨hline, Int.le_refl _⟩
    · exact h.start x hx
  inner := by
    intro x hx y hy hlt
    rcases mem_enter_opened.mp hx with ⟨-, rfl⟩ | ⟨hx, -⟩
    · rcases mem_enter_opened.mp hy with ⟨-, rfl⟩ | ⟨hy, -⟩
      · exact Int.le_refl _
      · exact (h.start y hy).2
    · rcases mem_enter_opened.mp hy with ⟨-, rfl⟩ | ⟨hy, -⟩
      · have := hordered.below x hx
        omega
      · exact h.inner x hx y hy hlt
  stop := (h.close d).stop
  apart := by
    intro f hf x hx
    rcases mem_enter_opened.mp hx with ⟨-, rfl⟩ | hx
    · exact .inr ((h.close d).stop f hf).2.2
    · exact (h.close d).apart f hf x (mem_close_opened.mpr hx)
  laminar := (h.close d).laminar
  rising := (h.close d).rising

/-- What is nested stays nested when the current line moves down. -/
theorem Nested.moveTo {o : Outline} (h : o.Nested) {i : Int} (hi : o.line ≤ i) :
    ({ o with line := i } : Outline).Nested where
  start := by
    intro x hx
    have := h.start x hx
    exact ⟨this.1, Int.le_trans this.2 hi⟩
  inner := h.inner
  stop := by
    intro f hf
    have := h.stop f hf
    exact ⟨this.1, this.2.1, Int.le_trans this.2.2 hi⟩
  apart := h.apart
  laminar := h.laminar
  rising := h.rising

theorem read_line_mem (o : Outline) (i : Int) (line : List Char) :
    (o.read i line).line = o.line ∨ (o.read i line).line = i := by
  unfold Outline.read
  split
  · exact .inl rfl
  · exact .inr rfl

/-- **Reading a line keeps folds nested.** -/
theorem Nested.read {o : Outline} (h : o.Nested) (hordered : o.Ordered) (hline : 0 ≤ o.line) {i : Int} (hi : o.line ≤ i)
    (line : List Char) : (o.read i line).Nested := by
  have hentered := h.enter hordered hline (depth line)
  unfold Outline.read
  split
  · exact hentered
  · exact hentered.moveTo hi

/-- **Reading lines keeps folds nested**, and the current line stays among the lines that were read. -/
theorem Nested.readAll {o : Outline} (h : o.Nested) (hordered : o.Ordered) (hline : 0 ≤ o.line) {i : Int}
    (hi : o.line < i) (lines : List (List Char)) :
    (o.readAll i lines).Nested ∧ (o.readAll i lines).line < i + lines.length := by
  induction lines generalizing o i with
  | nil => exact ⟨h, by simpa [Outline.readAll] using hi⟩
  | cons line rest ih =>
    have hnext : 0 ≤ (o.read i line).line ∧ (o.read i line).line ≤ i := by
      rcases read_line_mem o i line with heq | heq
      · rw [heq]
        omega
      · rw [heq]
        omega
    obtain ⟨hnested, hlast⟩ :=
      ih (h.read hordered hline (by omega) line) (hordered.read i line) hnext.1 (i := i + 1) (by omega)
    refine ⟨hnested, ?_⟩
    simp only [Outline.readAll, List.length_cons]
    omega

end Outline

/-! ## The folds of a text -/

/-- **The outline of lines**: empty ones at the top are passed over. -/
def outlineOf (lines : List (List Char)) : Outline :=
  let empty := (lines.takeWhile (·.isEmpty)).length
  Outline.readAll { line := empty } (empty + 1) (lines.drop empty)

theorem ordered_start (line : Int) : ({ line := line } : Outline).Ordered where
  falling := .nil
  below := fun _ hx => nomatch hx
  bottom := fun h => absurd h (Nat.lt_irrefl 0)

theorem nested_start (line : Int) : ({ line := line } : Outline).Nested where
  start := fun _ hx => nomatch hx
  inner := fun _ hx => nomatch hx
  stop := fun _ hf => nomatch hf
  apart := fun _ hf => nomatch hf
  laminar := fun _ hf => nomatch hf
  rising := .nil

/-- Something follows the empty lines at the top exactly if some line is not empty. -/
theorem takeWhile_isEmpty_length_eq {lines : List (List Char)} :
    (lines.takeWhile (·.isEmpty)).length = lines.length ↔ ¬ ∃ line ∈ lines, line ≠ [] := by
  induction lines with
  | nil => simp
  | cons line rest ih =>
    cases line with
    | nil => simpa using ih
    | cons c cs => simp

/-- **The folds of a text are those of its outline**, as long as some line is not empty; else there is nothing to
read. -/
theorem byIndentation_eq (text : List Char) :
    byIndentation text =
      if (∃ line ∈ Text.bareLines text, line ≠ []) then .ok (Table.ofList (outlineOf (Text.bareLines text)).folds)
      else .error .indexRange := by
  unfold byIndentation
  generalize Text.bareLines text = lines
  by_cases hline : ∃ line ∈ lines, line ≠ []
  · have hempty : ¬ ((lines.takeWhile (·.isEmpty)).length == lines.length) = true := by
      rw [beq_iff_eq, takeWhile_isEmpty_length_eq]
      exact not_not_intro hline
    have hpaired : ({ line := (lines.takeWhile (·.isEmpty)).length } : Blocks).Paired := fun level => by simp
    obtain ⟨b, hread, hb, hordered, houtline⟩ :=
      Blocks.readAll_outline hpaired (ordered_start _) ((lines.takeWhile (·.isEmpty)).length + 1)
        (lines.drop (lines.takeWhile (·.isEmpty)).length)
    obtain ⟨last, hclose, -, hlast⟩ := Blocks.closeEach_outline hb hordered.falling
    have hfolds : last.closed = (outlineOf lines).folds := by
      show last.outline.closed = _
      rw [hlast, houtline]
      rfl
    rw [if_pos hline, ← hfolds]
    simp only [if_neg hempty, hread, Blocks.closeAll, bind, Except.bind, hclose]
    rfl
  · have hempty : ((lines.takeWhile (·.isEmpty)).length == lines.length) = true := by
      rw [beq_iff_eq, takeWhile_isEmpty_length_eq]
      exact hline
    rw [if_neg hline]
    simp only [if_pos hempty]
    rfl

theorem nested_outlineOf (lines : List (List Char)) :
    (outlineOf lines).Nested ∧ (outlineOf lines).line ≤ lines.length := by
  have hempty : (lines.takeWhile (·.isEmpty)).length ≤ lines.length := by
    simpa using (List.takeWhile_sublist (l := lines) (List.isEmpty ·)).length_le
  have hstart : 0 ≤ ((lines.takeWhile (·.isEmpty)).length : Int) := Int.natCast_nonneg _
  obtain ⟨hnested, hline⟩ :=
    (nested_start (lines.takeWhile (·.isEmpty)).length).readAll (ordered_start _) hstart (Int.lt_succ _)
      (lines.drop (lines.takeWhile (·.isEmpty)).length)
  refine ⟨hnested, ?_⟩
  have hlast : (outlineOf lines).line < (lines.takeWhile (·.isEmpty)).length + 1 +
      (lines.drop (lines.takeWhile (·.isEmpty)).length).length := hline
  rw [List.length_drop] at hlast
  omega

/-- **Folds by indentation exist, lie in the text and fit together.** A text with a line that is not empty is read to
its end, and its folds are those of its outline. They start and end on lines of the text, where the first may start in
front of line one, and of any two folds one holds the other or ends no later than the other starts. -/
theorem byIndentation_total_laminar {text : List Char} (hline : ∃ line ∈ Text.bareLines text, line ≠ []) :
    ∃ folds, byIndentation text = .ok folds ∧ folds = Table.ofList (outlineOf (Text.bareLines text)).folds ∧
      (∀ f ∈ folds, 0 ≤ f.1 ∧ f.1 ≤ f.2 ∧ f.2 ≤ (Text.bareLines text).length) ∧
      ∀ f ∈ folds, ∀ g ∈ folds, Laminar f g := by
  obtain ⟨hnested, hlast⟩ := nested_outlineOf (Text.bareLines text)
  have hfolds := hnested.close 0
  refine ⟨_, by rw [byIndentation_eq, if_pos hline], rfl, fun f hf => ?_, fun f hf g hg => ?_⟩
  · obtain ⟨hstart, horder, hstop⟩ := hfolds.stop f (Table.mem_of_mem_ofList hf)
    exact ⟨hstart, horder, Int.le_trans hstop hlast⟩
  · exact hfolds.laminar f (Table.mem_of_mem_ofList hf) g (Table.mem_of_mem_ofList hg)

/-- A line of blanks opens a block inside another one and closes it at once. -/
theorem byIndentation_total_laminar_blank_line :
    (∃ line ∈ Text.bareLines "a\n  b\n    \n c\nd".toList, line ≠ []) ∧
      ∃ folds, byIndentation "a\n  b\n    \n c\nd".toList = .ok folds ∧ folds = [(2, 2), (1, 4)] ∧
        ∀ f ∈ folds, ∀ g ∈ folds, Laminar f g := by
  have hline : ∃ line ∈ Text.bareLines "a\n  b\n    \n c\nd".toList, line ≠ [] := by decide +kernel
  obtain ⟨folds, hfolds, -, -, hlaminar⟩ := byIndentation_total_laminar hline
  refine ⟨hline, folds, hfolds, ?_, hlaminar⟩
  have hread : byIndentation "a\n  b\n    \n c\nd".toList = .ok [(2, 2), (1, 4)] := by rfl
  exact Except.ok.inj (hfolds.symm.trans hread)

end EditorService.Folding
