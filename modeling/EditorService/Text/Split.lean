/-!
# Cutting texts at a mark

Cutting a text at every occurrence of a mark, gluing pieces back with the mark between them, finding the first
occurrence of a text in another, and replacing every occurrence. Gluing undoes cutting: `join_split`.
-/

namespace EditorService.Text

/-- **Cuts a text at every `mark`.** There is always at least one piece. -/
def split (mark : Char) : List Char → List (List Char)
  | [] => [[]]
  | c :: rest =>
    if c == mark then [] :: split mark rest
    else match split mark rest with
      | [] => [[c]]
      | piece :: pieces => (c :: piece) :: pieces

/-- Glues pieces with `glue` between neighbours. -/
def join (glue : List Char) : List (List Char) → List Char
  | [] => []
  | [piece] => piece
  | piece :: next :: pieces => piece ++ glue ++ join glue (next :: pieces)

theorem split_ne_nil (mark : Char) (s : List Char) : split mark s ≠ [] := by
  cases s with
  | nil => simp [split]
  | cons c rest =>
    unfold split
    split
    · simp
    · split <;> simp

/-- Gluing with the mark undoes cutting at it. -/
theorem join_split (mark : Char) (s : List Char) : join [mark] (split mark s) = s := by
  induction s with
  | nil => simp [split, join]
  | cons c rest ih =>
    unfold split
    have hne := split_ne_nil mark rest
    by_cases hc : (c == mark) = true
    · rw [if_pos hc]
      cases hs : split mark rest with
      | nil => exact absurd hs hne
      | cons piece pieces =>
        rw [hs] at ih
        simp only [join, List.nil_append, List.cons_append]
        rw [ih]
        simp only [beq_iff_eq] at hc
        rw [hc]
    · rw [if_neg hc]
      cases hs : split mark rest with
      | nil => exact absurd hs hne
      | cons piece pieces =>
        rw [hs] at ih
        cases pieces with
        | nil => simp only [join] at ih ⊢; rw [ih]
        | cons p ps =>
          simp only [join, List.cons_append] at ih ⊢
          rw [ih]

/-- Gluing two runs of pieces, one after the other. -/
theorem join_append {glue : List Char} {front back : List (List Char)} (hfront : front ≠ []) (hback : back ≠ []) :
    join glue (front ++ back) = join glue front ++ glue ++ join glue back := by
  induction front with
  | nil => exact absurd rfl hfront
  | cons piece rest ih =>
    cases rest with
    | nil =>
      obtain ⟨next, more, rfl⟩ := List.exists_cons_of_ne_nil hback
      rfl
    | cons next more =>
      have hrest := ih (List.cons_ne_nil next more)
      simp only [List.cons_append, join] at hrest ⊢
      rw [hrest]
      simp only [List.append_assoc]

/-- Cuts at the first `mark` only: what stands before it, and what stands after it when there is one. -/
def splitFirst (mark : Char) : List Char → List Char × Option (List Char)
  | [] => ([], none)
  | c :: rest =>
    if c == mark then ([], some rest)
    else
      let cut := splitFirst mark rest
      (c :: cut.1, cut.2)

/-- Cuts at the last `mark` only. Without one the whole text is the second part. -/
def splitLast (mark : Char) (s : List Char) : Option (List Char) × List Char :=
  let cut := splitFirst mark s.reverse
  (cut.2.map List.reverse, cut.1.reverse)

theorem splitFirst_of_notMem {mark : Char} {s : List Char} (h : mark ∉ s) : splitFirst mark s = (s, none) := by
  induction s with
  | nil => rfl
  | cons c rest ih =>
    have hc : ¬ (c == mark) = true := fun heq => h (beq_iff_eq.mp heq ▸ List.mem_cons_self)
    rw [splitFirst, if_neg hc, ih fun hrest => h (List.mem_cons_of_mem c hrest)]

theorem splitFirst_append {mark : Char} {s : List Char} (h : mark ∉ s) (rest : List Char) :
    splitFirst mark (s ++ mark :: rest) = (s, some rest) := by
  induction s with
  | nil => rw [List.nil_append, splitFirst, if_pos BEq.rfl]
  | cons c tail ih =>
    have hc : ¬ (c == mark) = true := fun heq => h (beq_iff_eq.mp heq ▸ List.mem_cons_self)
    rw [List.cons_append, splitFirst, if_neg hc, ih fun htail => h (List.mem_cons_of_mem c htail)]

theorem splitLast_of_notMem {mark : Char} {s : List Char} (h : mark ∉ s) : splitLast mark s = (none, s) := by
  have hreverse : mark ∉ s.reverse := by simpa using h
  simp [splitLast, splitFirst_of_notMem hreverse]

theorem splitLast_append {mark : Char} {s : List Char} (h : mark ∉ s) (front : List Char) :
    splitLast mark (front ++ mark :: s) = (some front, s) := by
  have hreverse : mark ∉ s.reverse := by simpa using h
  have hcut : (front ++ mark :: s).reverse = s.reverse ++ mark :: front.reverse := by simp
  simp [splitLast, hcut, splitFirst_append hreverse]

/-- Whether `part` stands at the front of a text; what follows it. -/
def dropPrefix? : (part : List Char) → List Char → Option (List Char)
  | [], s => some s
  | _ :: _, [] => none
  | p :: ps, c :: cs => if p == c then dropPrefix? ps cs else none

/-- Whether a text starts with `part`. -/
def startsWith (part s : List Char) : Bool := (dropPrefix? part s).isSome

/-- Whether a text ends with `part`. -/
def endsWith (part s : List Char) : Bool := startsWith part.reverse s.reverse

/-- Where `part` first stands in a text, counted in characters. -/
def find? (part : List Char) : List Char → Option Nat
  | [] => if part.isEmpty then some 0 else none
  | c :: rest => if startsWith part (c :: rest) then some 0 else (find? part rest).map (· + 1)

/-- Whether `part` stands anywhere in a text. -/
def contains (part s : List Char) : Bool := (find? part s).isSome

/-- Replaces every occurrence of `part`, left to right and without overlap. The counter says how many characters of an
occurrence are still to be skipped. -/
def replaceFrom (part new : List Char) : Nat → List Char → List Char
  | _, [] => []
  | n + 1, _ :: rest => replaceFrom part new n rest
  | 0, c :: rest =>
    if startsWith part (c :: rest) then new ++ replaceFrom part new (part.length - 1) rest
    else c :: replaceFrom part new 0 rest

/-- **Replaces every occurrence of a non-empty `part`.** -/
def replace (part new s : List Char) : List Char := if part.isEmpty then s else replaceFrom part new 0 s

/-- Replaces every occurrence in a `String`. -/
def replaced (part new s : String) : String := String.ofList (replace part.toList new.toList s.toList)

/-- Glues `String`s with `glue` between neighbours. -/
def joined (glue : String) (parts : List String) : String :=
  String.ofList (join glue.toList (parts.map String.toList))

/-- A text of lines, each with a line feed after it. -/
def unlines (lines : List String) : String := String.join (lines.map (· ++ "\n"))

/-- Whether a `String` starts with `part`. -/
def hasPrefix (part s : String) : Bool := startsWith part.toList s.toList

/-- Whether a `String` ends with `part`. -/
def hasSuffix (part s : String) : Bool := endsWith part.toList s.toList

end EditorService.Text
