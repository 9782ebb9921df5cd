import EditorService.FileTree
import Mathlib.Data.List.DropRight

/-!
# Where absolute paths lead

An absolute path is a walk that starts at the root and takes its segments one after another: a name leads down, two dots
lead up, and an empty segment or a single dot leads nowhere. `place` is where the walk ends, told by the names from the root
to it. It is all that a file system sees of an absolute path (`FileTree.has_congr`), and the shortest form of the path
is written from it (`normalize_of_isAbsolute`).

A path seen from another one goes on from the other's place (`walk_append`). The directory of an entry of `dir` is at the
place of `dir` again (`place_settle`, with `directory_append`), though it may be spelled in another way.
-/

namespace EditorService

/-! ## Cutting and gluing -/

namespace Text

variable {mark : Char}

theorem split_append (a b : List Char) : split mark (a ++ mark :: b) = split mark a ++ split mark b := by
  induction a with
  | nil => simp [split]
  | cons c rest ih =>
    by_cases hc : (c == mark) = true
    · simp only [List.cons_append, split, hc, if_true, ih]
    · obtain ⟨piece, pieces, hsplit⟩ := List.exists_cons_of_ne_nil (split_ne_nil mark rest)
      simp only [List.cons_append, split, hc, ih, hsplit, Bool.false_eq_true, if_false]

theorem split_of_notMem {s : List Char} (h : mark ∉ s) : split mark s = [s] := by
  induction s with
  | nil => rfl
  | cons c rest ih =>
    have hc : ¬ (c == mark) = true := fun heq => h (beq_iff_eq.mp heq ▸ List.mem_cons_self)
    simp only [split, hc, ih fun hrest => h (List.mem_cons_of_mem c hrest), Bool.false_eq_true, if_false]

theorem notMem_of_mem_split {s piece : List Char} (h : piece ∈ split mark s) : mark ∉ piece := by
  induction s generalizing piece with
  | nil =>
    rw [List.mem_singleton.mp h]
    exact List.not_mem_nil
  | cons c rest ih =>
    by_cases hc : (c == mark) = true
    · simp only [split, hc, if_true] at h
      rcases List.mem_cons.mp h with rfl | h
      · exact List.not_mem_nil
      · exact ih h
    · obtain ⟨first, pieces, hsplit⟩ := List.exists_cons_of_ne_nil (split_ne_nil mark rest)
      rw [hsplit] at ih
      simp only [split, hc, hsplit, Bool.false_eq_true, if_false] at h
      rcases List.mem_cons.mp h with rfl | h
      · have hne : mark ≠ c := fun heq => hc (beq_iff_eq.mpr heq.symm)
        exact List.not_mem_cons_of_ne_of_not_mem hne (ih List.mem_cons_self)
      · exact ih (List.mem_cons_of_mem first h)

/-- Cutting at the mark undoes gluing with it, when no piece holds the mark. -/
theorem split_join {pieces : List (List Char)} (hne : pieces ≠ []) (h : ∀ piece ∈ pieces, mark ∉ piece) :
    split mark (join [mark] pieces) = pieces := by
  induction pieces with
  | nil => exact absurd rfl hne
  | cons piece rest ih =>
    have hpiece := split_of_notMem (h piece List.mem_cons_self)
    cases rest with
    | nil => exact hpiece
    | cons next more =>
      have hrest := ih (List.cons_ne_nil next more) fun p hp => h p (List.mem_cons_of_mem piece hp)
      rw [join, List.append_assoc, List.singleton_append, split_append, hpiece, hrest, List.singleton_append]

end Text

namespace Path

open EditorService.Text (split join)

/-! ## Names and places -/

/-- **A name** of a file or directory: a segment that leads down. -/
structure IsName (s : List Char) : Prop where
  ne_nil : s ≠ []
  ne_dot : s ≠ ['.']
  ne_dots : s ≠ ['.', '.']
  whole : '/' ∉ s

/-- **A walk** along a path, from the place with these names. -/
def walk (start : List (List Char)) (p : List Char) : List (List Char) := (split '/' p).foldl (addSegment true) start

/-- **The place of an absolute path**: the names from the root to where it leads. -/
def place (p : List Char) : List (List Char) := walk [] p

variable {start : List (List Char)} {p q s : List Char}

theorem addSegment_name (hs : IsName s) : addSegment true start s = start ++ [s] := by
  simp [addSegment, hs.ne_nil, hs.ne_dot, hs.ne_dots]

/-- Two dots lead up, and at the root nowhere. -/
theorem addSegment_dots (h : ∀ s ∈ start, IsName s) : addSegment true start ['.', '.'] = start.dropLast := by
  rcases List.eq_nil_or_concat start with rfl | ⟨front, last, rfl⟩
  · rfl
  · have hlast : last ≠ ['.', '.'] := (h last (by simp)).ne_dots
    simp [addSegment, hlast]

/-- One segment leads from names to names. -/
theorem isName_of_mem_addSegment (h : ∀ s ∈ start, IsName s) {seg : List Char} (hseg : '/' ∉ seg) :
    ∀ s ∈ addSegment true start seg, IsName s := by
  by_cases hnil : seg = []
  · simpa [addSegment, hnil] using h
  by_cases hdot : seg = ['.']
  · simpa [addSegment, hdot] using h
  by_cases hdots : seg = ['.', '.']
  · rw [hdots, addSegment_dots h]
    exact fun s hs => h s (List.dropLast_subset start hs)
  · have hname : IsName seg := ⟨hnil, hdot, hdots, hseg⟩
    rw [addSegment_name hname]
    intro s hs
    rcases List.mem_append.mp hs with hs | hs
    · exact h s hs
    · exact List.mem_singleton.mp hs ▸ hname

theorem isName_of_mem_foldl {segs : List (List Char)} (hsegs : ∀ s ∈ segs, '/' ∉ s) (h : ∀ s ∈ start, IsName s) :
    ∀ s ∈ segs.foldl (addSegment true) start, IsName s := by
  induction segs generalizing start with
  | nil => exact h
  | cons seg rest ih =>
    exact ih (fun s hs => hsegs s (List.mem_cons_of_mem seg hs))
      (isName_of_mem_addSegment h (hsegs seg List.mem_cons_self))

theorem isName_of_mem_walk (h : ∀ s ∈ start, IsName s) : ∀ s ∈ walk start p, IsName s :=
  isName_of_mem_foldl (fun _ => Text.notMem_of_mem_split) h

theorem isName_of_mem_place : ∀ s ∈ place p, IsName s := isName_of_mem_walk fun _ h => absurd h List.not_mem_nil

/-- Names lead down. -/
theorem foldl_names {names : List (List Char)} (h : ∀ s ∈ names, IsName s) :
    names.foldl (addSegment true) start = start ++ names := by
  induction names generalizing start with
  | nil => exact (List.append_nil start).symm
  | cons first rest ih =>
    rw [List.foldl_cons, addSegment_name (h first List.mem_cons_self),
      ih fun s hs => h s (List.mem_cons_of_mem first hs), List.append_assoc, List.singleton_append]

@[simp] theorem walk_nil (start : List (List Char)) : walk start [] = start := rfl

theorem walk_slash (start : List (List Char)) (p q : List Char) : walk start (p ++ '/' :: q) = walk (walk start p) q := by
  rw [walk, Text.split_append, List.foldl_append]
  rfl

theorem walk_of_notMem (h : '/' ∉ s) : walk start s = addSegment true start s := by
  rw [walk, Text.split_of_notMem h]
  rfl

theorem walk_slashes (start : List (List Char)) (p : List Char) (n : Nat) :
    walk start (p ++ List.replicate n '/') = walk start p := by
  induction n with
  | zero => rw [List.replicate_zero, List.append_nil]
  | succ n ih => rw [List.replicate_succ', ← List.append_assoc, walk_slash, ih, walk_nil]

theorem walk_join {names : List (List Char)} (h : ∀ s ∈ names, IsName s) :
    walk start (join ['/'] names) = start ++ names := by
  by_cases hne : names = []
  · subst hne
    exact (List.append_nil start).symm
  · rw [walk, Text.split_join hne fun s hs => (h s hs).whole, foldl_names h]

/-! ## A path seen from another -/

theorem append_of_isAbsolute (hq : isAbsolute q = true) (p : List Char) : append p q = q := by
  rw [append, if_pos hq]

theorem append_nil_left (q : List Char) : append [] q = q := by
  cases hq : isAbsolute q <;> simp [append, hq]

theorem append_slash (hq : isAbsolute q = false) (front : List Char) :
    append (front ++ ['/']) q = front ++ '/' :: q := by
  simp [append, hq]

theorem append_of_getLast (hq : isAbsolute q = false) (hne : p ≠ []) (hlast : p.getLast? ≠ some '/') :
    append p q = p ++ '/' :: q := by
  simp [append, hq, hne, hlast]

theorem append_ne_nil (hq : q ≠ []) (p : List Char) : append p q ≠ [] := by
  unfold append
  split
  · exact hq
  · split <;> simp [hq]

/-- How a path ends: it is empty, ends in a separator, or does not. -/
theorem eq_nil_or_slash_or (p : List Char) :
    p = [] ∨ (∃ front, p = front ++ ['/']) ∨ p ≠ [] ∧ p.getLast? ≠ some '/' := by
  rcases List.eq_nil_or_concat p with rfl | ⟨front, last, rfl⟩
  · exact .inl rfl
  · rw [List.concat_eq_append]
    by_cases hlast : last = '/'
    · exact .inr (.inl ⟨front, by rw [hlast]⟩)
    · exact .inr (.inr ⟨by simp, by simpa using hlast⟩)

/-- **A path seen from another goes on where the other leads.** -/
theorem walk_append (start : List (List Char)) (p : List Char) (hq : isAbsolute q = false) :
    walk start (append p q) = walk (walk start p) q := by
  rcases eq_nil_or_slash_or p with rfl | ⟨front, rfl⟩ | ⟨hne, hlast⟩
  · rw [append_nil_left, walk_nil]
  · rw [append_slash hq, walk_slash, walk_slash, walk_nil]
  · rw [append_of_getLast hq hne hlast, walk_slash]

theorem place_append (p : List Char) (hq : isAbsolute q = false) : place (append p q) = walk (place p) q :=
  walk_append [] p hq

theorem isAbsolute_append_of_relative (p : List Char) (hq : isAbsolute q = false) :
    isAbsolute (append p q) = isAbsolute p := by
  rcases eq_nil_or_slash_or p with rfl | ⟨front, rfl⟩ | ⟨hne, hlast⟩
  · rw [append_nil_left, hq]
    rfl
  · rw [append_slash hq]
    cases front <;> rfl
  · obtain ⟨c, rest, rfl⟩ := List.exists_cons_of_ne_nil hne
    rw [append_of_getLast hq hne hlast]
    rfl

theorem isAbsolute_append (hp : isAbsolute p = true) (q : List Char) : isAbsolute (append p q) = true := by
  cases hq : isAbsolute q with
  | true => rw [append_of_isAbsolute hq, hq]
  | false => rw [isAbsolute_append_of_relative p hq, hp]

theorem isAbsolute_of_notMem (h : '/' ∉ s) : isAbsolute s = false := by
  cases s with
  | nil => rfl
  | cons c rest =>
    have hc : c ≠ '/' := fun heq => h (heq ▸ List.mem_cons_self)
    simp [isAbsolute, hc]

theorem ne_nil_of_isAbsolute (h : isAbsolute p = true) : p ≠ [] := by
  rintro rfl
  exact absurd h Bool.false_ne_true

/-! ## The root of a path -/

theorem isAbsolute_of_rootOf (h : rootOf p ≠ []) : isAbsolute p = true := by
  unfold rootOf at h
  split at h
  · rfl
  · rfl
  · rfl
  · exact absurd rfl h

theorem rootOf_eq_or (hp : isAbsolute p = true) : rootOf p = ['/'] ∨ rootOf p = ['/', '/'] := by
  unfold rootOf
  split
  · exact .inl rfl
  · exact .inr rfl
  · exact .inl rfl
  · next _ _ h =>
    cases p with
    | nil => exact absurd hp Bool.false_ne_true
    | cons c rest =>
      have hc : c = '/' := by simpa [isAbsolute] using hp
      exact absurd (congrArg (· :: rest) hc) (h rest)

/-- What stands behind a character other than the separator is not part of the root. -/
theorem rootOf_append {c : Char} (hmem : c ∈ p) (hc : c ≠ '/') (q : List Char) : rootOf (p ++ q) = rootOf p := by
  rcases p with _ | ⟨x, _ | ⟨y, _ | ⟨z, rest⟩⟩⟩
  · exact absurd hmem List.not_mem_nil
  · have hx : x ≠ '/' := List.mem_singleton.mp hmem ▸ hc
    simp [rootOf, hx]
  · by_cases hx : x = '/'
    · have hy : y ≠ '/' := by
        rcases List.mem_cons.mp hmem with rfl | hy
        · exact absurd hx hc
        · exact List.mem_singleton.mp hy ▸ hc
      simp [rootOf, hx, hy]
    · simp [rootOf, hx]
  · by_cases hx : x = '/' <;> by_cases hy : y = '/' <;> by_cases hz : z = '/' <;> simp [rootOf, hx, hy, hz]

theorem rootOf_slash_append (front : List Char) (hq : isAbsolute q = false) :
    rootOf (front ++ '/' :: q) = rootOf (front ++ ['/']) := by
  have hhead : ∀ rest, q ≠ '/' :: rest := by
    rintro rest rfl
    exact absurd hq.symm Bool.false_ne_true
  rcases front with _ | ⟨x, _ | ⟨y, rest⟩⟩
  · cases q with
    | nil => rfl
    | cons c rest =>
      have hc : c ≠ '/' := fun heq => hhead rest (congrArg (· :: rest) heq)
      simp [rootOf, hc]
  · by_cases hx : x = '/'
    · subst hx
      cases q with
      | nil => rfl
      | cons c rest => simp [rootOf]
    · simp [rootOf, hx]
  · cases rest with
    | nil => by_cases hx : x = '/' <;> by_cases hy : y = '/' <;> simp [rootOf, hx, hy]
    | cons z more =>
      by_cases hx : x = '/' <;> by_cases hy : y = '/' <;> by_cases hz : z = '/' <;> simp [rootOf, hx, hy, hz]

theorem rootOf_append_path (hp : isAbsolute p = true) (hq : isAbsolute q = false) : rootOf (append p q) = rootOf p := by
  rcases eq_nil_or_slash_or p with rfl | ⟨front, rfl⟩ | ⟨hne, hlast⟩
  · exact absurd hp Bool.false_ne_true
  · rw [append_slash hq, rootOf_slash_append front hq]
  · rw [append_of_getLast hq hne hlast]
    have hend := List.getLast?_eq_some_getLast hne
    exact rootOf_append (List.getLast_mem hne) (fun heq => hlast (heq ▸ hend)) _

/-! ## The shortest form -/

/-- **The path of a place**, with the root as another path writes it. -/
def spell (root : List Char) (names : List (List Char)) : List Char := rootOf root ++ join ['/'] names

theorem normalize_of_isAbsolute (hp : isAbsolute p = true) : normalize p = spell p (place p) := by
  have hnil : p.isEmpty = false := by simpa using ne_nil_of_isAbsolute hp
  rcases rootOf_eq_or hp with hroot | hroot <;> simp [normalize, spell, hnil, hroot, place, walk]

theorem join_names_head {names : List (List Char)} (h : ∀ s ∈ names, IsName s) :
    isAbsolute (join ['/'] names) = false := by
  cases names with
  | nil => rfl
  | cons first rest =>
    have hfirst := h first List.mem_cons_self
    obtain ⟨c, more, rfl⟩ := List.exists_cons_of_ne_nil hfirst.ne_nil
    have hc : c ≠ '/' := fun heq => hfirst.whole (heq ▸ List.mem_cons_self)
    cases rest <;> simp [join, isAbsolute, hc]

section

variable {root : List Char} {names : List (List Char)} (hroot : isAbsolute root = true) (hnames : ∀ s ∈ names, IsName s)

include hroot

theorem isAbsolute_spell (names : List (List Char)) : isAbsolute (spell root names) = true := by
  rcases rootOf_eq_or hroot with h | h <;> rw [spell, h] <;> rfl

include hnames

theorem place_spell : place (spell root names) = names := by
  have hone : ∀ p, place ('/' :: p) = walk [] p := fun p => walk_slash [] [] p
  have htwo : ∀ p, place ('/' :: '/' :: p) = walk [] p := fun p => walk_slash [] ['/'] p
  rcases rootOf_eq_or hroot with h | h
  · rw [spell, h, List.singleton_append, hone, walk_join hnames, List.nil_append]
  · rw [spell, h]
    exact (htwo _).trans (walk_join hnames)

theorem rootOf_spell : rootOf (spell root names) = rootOf root := by
  have hhead := join_names_head hnames
  rcases rootOf_eq_or hroot with h | h
  · rw [spell, h]
    exact rootOf_slash_append [] hhead
  · rw [spell, h]
    exact rootOf_slash_append ['/'] hhead

theorem normalize_spell : normalize (spell root names) = spell root names := by
  rw [normalize_of_isAbsolute (isAbsolute_spell hroot names), place_spell hroot hnames, spell, rootOf_spell hroot hnames]
  rfl

end

theorem isAbsolute_normalize (hp : isAbsolute p = true) : isAbsolute (normalize p) = true := by
  rw [normalize_of_isAbsolute hp]
  exact isAbsolute_spell hp _

theorem rootOf_normalize (hp : isAbsolute p = true) : rootOf (normalize p) = rootOf p := by
  rw [normalize_of_isAbsolute hp, rootOf_spell hp isName_of_mem_place]

theorem normalize_normalize (hp : isAbsolute p = true) : normalize (normalize p) = normalize p := by
  rw [normalize_of_isAbsolute hp, normalize_spell hp isName_of_mem_place]

theorem place_normalize (hp : isAbsolute p = true) : place (normalize p) = place p := by
  rw [normalize_of_isAbsolute hp, place_spell hp isName_of_mem_place]

/-- Paths with the same root and the same place have the same shortest form. -/
theorem normalize_congr (hp : isAbsolute p = true) (hroot : rootOf q = rootOf p) (hplace : place q = place p) :
    normalize q = normalize p := by
  have hq : isAbsolute q = true := by
    apply isAbsolute_of_rootOf
    rw [hroot]
    rcases rootOf_eq_or hp with h | h <;> rw [h] <;> exact List.cons_ne_nil _ _
  rw [normalize_of_isAbsolute hp, normalize_of_isAbsolute hq, spell, spell, hroot, hplace]

theorem segments_normalize (hp : isAbsolute p = true) : segments (normalize p) = place p := by
  have hnames : ∀ s ∈ place p, IsName s := isName_of_mem_place
  have hjoin : segments (join ['/'] (place p)) = place p := by
    by_cases hne : place p = []
    · rw [hne]
      rfl
    · rw [segments, Text.split_join hne fun s hs => (hnames s hs).whole]
      exact List.filter_eq_self.mpr fun s hs => by simpa using (hnames s hs).ne_nil
  rw [normalize_of_isAbsolute hp, spell]
  rcases rootOf_eq_or hp with h | h <;> rw [h] <;> exact hjoin

/-! ## Directories -/

/-- A path without the separators at its end, unless there is nothing else. -/
def settle (p : List Char) : List Char := if p.all (· == '/') then p else p.rdropWhile (· == '/')

/-- **What settling does**: it leaves a path of separators as it is, and cuts off separators behind something else. -/
theorem settle_cases (p : List Char) :
    p.all (· == '/') = true ∧ settle p = p ∨
      settle p ≠ [] ∧ (settle p).getLast? ≠ some '/' ∧ ∃ n, p = settle p ++ List.replicate n '/' := by
  unfold settle
  split
  · next hall => exact .inl ⟨hall, rfl⟩
  · next hall =>
    have hne : p.rdropWhile (· == '/') ≠ [] := by
      intro hnil
      exact hall (List.all_eq_true.mpr (List.rdropWhile_eq_nil_iff.mp hnil))
    refine .inr ⟨hne, fun hlast => ?_, (p.rtakeWhile (· == '/')).length, ?_⟩
    · rw [List.getLast?_eq_some_getLast hne] at hlast
      exact List.rdropWhile_last_not (fun c => c == '/') p hne (beq_iff_eq.mpr (Option.some.inj hlast))
    · have hslashes : p.rtakeWhile (· == '/') = List.replicate (p.rtakeWhile (· == '/')).length '/' := by
        refine List.eq_replicate_iff.mpr ⟨rfl, fun c hc => ?_⟩
        simpa using List.mem_rtakeWhile_imp hc
      rw [← hslashes, List.rdropWhile_append_rtakeWhile]

theorem settle_append (hne : p ≠ []) (hlast : p.getLast? ≠ some '/') (n : Nat) :
    settle (p ++ List.replicate n '/') = p := by
  have hend : ¬ (p.getLast hne == '/') = true := by
    rw [beq_iff_eq]
    exact fun heq => hlast (by rw [List.getLast?_eq_some_getLast hne, heq])
  have hall : ∀ n, ¬ (p ++ List.replicate n '/').all (· == '/') = true := fun n hall =>
    hend (List.all_eq_true.mp hall _ (List.mem_append_left _ (List.getLast_mem hne)))
  rw [settle, if_neg (hall n)]
  induction n with
  | zero =>
    rw [List.replicate_zero, List.append_nil]
    exact List.rdropWhile_eq_self_iff.mpr fun _ => hend
  | succ n ih =>
    rw [List.replicate_succ', ← List.append_assoc,
      List.rdropWhile_concat_pos (fun c => c == '/') _ _ (beq_self_eq_true '/')]
    exact ih

@[simp] theorem walk_settle (start : List (List Char)) (p : List Char) : walk start (settle p) = walk start p := by
  rcases settle_cases p with ⟨-, heq⟩ | ⟨-, -, n, hn⟩
  · rw [heq]
  · conv_rhs => rw [hn, walk_slashes]

theorem place_settle (p : List Char) : place (settle p) = place p := walk_settle [] p

theorem isAbsolute_settle (p : List Char) : isAbsolute (settle p) = isAbsolute p := by
  rcases settle_cases p with ⟨-, heq⟩ | ⟨hne, -, n, hn⟩
  · rw [heq]
  · obtain ⟨c, rest, hcons⟩ := List.exists_cons_of_ne_nil hne
    rw [hcons] at hn ⊢
    rw [hn]
    rfl

theorem rootOf_settle (p : List Char) : rootOf (settle p) = rootOf p := by
  rcases settle_cases p with ⟨-, heq⟩ | ⟨hne, hlast, n, hn⟩
  · rw [heq]
  · have hend := List.getLast?_eq_some_getLast hne
    conv_rhs => rw [hn, rootOf_append (List.getLast_mem hne) fun heq => hlast (heq ▸ hend)]

theorem directory_of_notMem (h : '/' ∉ p) : directory p = [] := by
  simp only [directory, cutLast, Text.splitLast_of_notMem h]
  rfl

theorem directory_slash (h : '/' ∉ s) (front : List Char) : directory (front ++ '/' :: s) = settle (front ++ ['/']) := by
  simp only [directory, cutLast, Text.splitLast_append h]
  rfl

theorem base_slash (h : '/' ∉ s) (front : List Char) : base (front ++ '/' :: s) = s := by
  simp only [base, cutLast, Text.splitLast_append h]

/-- **The directory of an entry** of a directory is that directory. -/
theorem directory_append (hp : p ≠ []) (hs : '/' ∉ s) : directory (append p s) = settle p := by
  have hrelative := isAbsolute_of_notMem hs
  rcases eq_nil_or_slash_or p with rfl | ⟨front, rfl⟩ | ⟨hne, hlast⟩
  · exact absurd rfl hp
  · rw [append_slash hrelative, directory_slash hs]
  · have hself : settle p = p := by simpa using settle_append hne hlast 0
    rw [append_of_getLast hrelative hne hlast, directory_slash hs, hself]
    exact settle_append hne hlast 1

/-- The last separator of a path. -/
theorem exists_last_slash (h : '/' ∈ p) : ∃ front last, p = front ++ '/' :: last ∧ '/' ∉ last := by
  obtain ⟨last, front, hsplit, hlast⟩ := List.eq_append_cons_of_mem (List.mem_reverse.mpr h)
  refine ⟨front.reverse, last.reverse, ?_, by simpa using hlast⟩
  rw [← List.reverse_reverse p, hsplit]
  simp

@[simp] theorem isAbsolute_directory (p : List Char) : isAbsolute (directory p) = isAbsolute p := by
  by_cases hmem : '/' ∈ p
  · obtain ⟨front, last, rfl, hlast⟩ := exists_last_slash hmem
    rw [directory_slash hlast, isAbsolute_settle]
    cases front <;> rfl
  · rw [directory_of_notMem hmem, isAbsolute_of_notMem hmem]
    rfl

end Path

/-! ## What a file system sees of a path -/

namespace FileTree

variable {t : FileTree} {p q : List Char}

/-- **The place of a path**, which may be one seen from the current directory. -/
def placeOf (t : FileTree) (p : List Char) : List (List Char) := Path.place (Path.append t.current.toList p)

theorem placeOf_of_isAbsolute (hp : Path.isAbsolute p = true) (t : FileTree) : t.placeOf p = Path.place p := by
  rw [placeOf, Path.append_of_isAbsolute hp]

theorem placeOf_of_relative (hp : Path.isAbsolute p = false) (t : FileTree) :
    t.placeOf p = Path.walk (Path.place t.current.toList) p := Path.place_append _ hp

theorem placeOf_append (t : FileTree) (p : List Char) (hq : Path.isAbsolute q = false) :
    t.placeOf (Path.append p q) = Path.walk (t.placeOf p) q := by
  cases hp : Path.isAbsolute p with
  | true =>
    rw [placeOf_of_isAbsolute hp, placeOf_of_isAbsolute (Path.isAbsolute_append hp q), Path.place_append p hq]
  | false =>
    have hboth : Path.isAbsolute (Path.append p q) = false := (Path.isAbsolute_append_of_relative p hq).trans hp
    rw [placeOf_of_relative hp, placeOf_of_relative hboth, Path.walk_append _ p hq]

theorem locate_ofList (h : Path.isAbsolute (Path.append t.current.toList p) = true) :
    t.locate (String.ofList p) = String.ofList ('/' :: Text.join ['/'] (t.placeOf p)) := by
  have hhead : Path.isAbsolute (Text.join ['/'] (t.placeOf p)) = false := Path.join_names_head Path.isName_of_mem_place
  rw [locate, String.toList_ofList, Path.absolute, Path.normalize_of_isAbsolute h, Path.spell]
  rcases Path.rootOf_eq_or h with hroot | hroot
  · rw [hroot, List.singleton_append]
    split
    · next rest heq =>
      rw [placeOf, (List.cons.inj heq).2] at hhead
      exact absurd hhead.symm Bool.false_ne_true
    · rfl
  · rw [hroot]
    rfl

/-- **Only the place of a path counts.** -/
theorem has_congr (hp : Path.isAbsolute (Path.append t.current.toList p) = true) (hpne : p ≠ [])
    (hq : Path.isAbsolute (Path.append t.current.toList q) = true) (hqne : q ≠ []) (h : t.placeOf p = t.placeOf q) :
    t.has (String.ofList p) = t.has (String.ofList q) := by
  have hsome : ∀ {r : List Char}, r ≠ [] → (String.ofList r != "") = true := by
    intro r hr
    simpa using hr
  simp only [has, isFile, isDirectory, locate_ofList hp, locate_ofList hq, hsome hpne, hsome hqne, h]

theorem has_congr_of_isAbsolute (hp : Path.isAbsolute p = true) (hq : Path.isAbsolute q = true)
    (h : Path.place p = Path.place q) : t.has (String.ofList p) = t.has (String.ofList q) := by
  refine has_congr ?_ (Path.ne_nil_of_isAbsolute hp) ?_ (Path.ne_nil_of_isAbsolute hq) ?_
  · rw [Path.append_of_isAbsolute hp, hp]
  · rw [Path.append_of_isAbsolute hq, hq]
  · rw [placeOf_of_isAbsolute hp, placeOf_of_isAbsolute hq, h]

end FileTree

end EditorService
