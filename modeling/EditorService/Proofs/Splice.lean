import EditorService.Document

/-!
# A range change is a splice

A change with a range is made line by line: lines before the range are copied, lines after it are copied, and the
lines at its two ends give what stands outside. A range that starts just past the last line takes another way and adds
to the end. This module says what both ways come to: **one splice of the text at two offsets**.

The offset of a place is counted in the lines of the text: all lines in front of its own, and as much of its own line
as there is. A character past the end of its line stands at the end of the line, its break included; a line past the
last one stands at the end of the text (`Place.offset`).

The proof follows the three stretches that the walk over the lines goes through. Behind the range everything is kept
(`replaceFrom_behind`), within it everything is dropped up to the second offset (`replaceFrom_within`), and in front of
it the walk is the splice itself (`replaceFrom_eq_splice`).

Nothing here speaks of ranges whose end stands before their start: for those the walk is no splice.
-/

namespace EditorService.Document

open EditorService.Protocol (Position Range)

/-! ## Places and offsets -/

/-- **A place in a text**: line and character, both counted from zero. -/
structure Place where
  line : Nat
  character : Nat
  deriving DecidableEq, Repr

namespace Place

/-- The place as a position of the protocol. -/
def position (p : Place) : Position := ⟨p.line, p.character⟩

/-- The range between two places. -/
def upTo (a b : Place) : Range := ⟨a.position, b.position⟩

/-- Reading order: by line, and on one line by character. -/
instance : LE Place := ⟨fun a b => a.line < b.line ∨ a.line = b.line ∧ a.character ≤ b.character⟩

theorem le_def (a b : Place) : a ≤ b ↔ a.line < b.line ∨ a.line = b.line ∧ a.character ≤ b.character := Iff.rfl

instance (a b : Place) : Decidable (a ≤ b) := decidable_of_iff _ (le_def a b).symm

/-- **The offset of a place** in lines: the lines in front of its own, and as much of its own as there is. -/
def offset (p : Place) (lines : List (List Char)) : Nat :=
  match lines[p.line]? with
  | some line => (lines.take p.line).flatten.length + min p.character line.length
  | none => lines.flatten.length

@[simp] theorem offset_nil (p : Place) : p.offset [] = 0 := rfl

@[simp] theorem offset_zero_cons (c : Nat) (line : List Char) (rest : List (List Char)) :
    Place.offset ⟨0, c⟩ (line :: rest) = min c line.length := by
  simp [offset]

@[simp] theorem offset_succ_cons (l c : Nat) (line : List Char) (rest : List (List Char)) :
    Place.offset ⟨l + 1, c⟩ (line :: rest) = line.length + Place.offset ⟨l, c⟩ rest := by
  simp only [offset, List.getElem?_cons_succ, List.take_succ_cons, List.flatten_cons, List.length_append]
  cases rest[l]? with
  | none => rfl
  | some _ => exact Nat.add_assoc ..

/-- A line past the last one stands at the end of the text. -/
theorem offset_of_length_le {p : Place} {lines : List (List Char)} (h : lines.length ≤ p.line) :
    p.offset lines = lines.flatten.length := by
  rw [offset, List.getElem?_eq_none h]

theorem offset_le_length (p : Place) (lines : List (List Char)) : p.offset lines ≤ lines.flatten.length := by
  obtain ⟨l, c⟩ := p
  induction lines generalizing l with
  | nil => exact Nat.le_refl 0
  | cons line rest ih =>
    rw [List.flatten_cons, List.length_append]
    cases l with
    | zero =>
      rw [offset_zero_cons]
      omega
    | succ l =>
      rw [offset_succ_cons]
      exact Nat.add_le_add_left (ih l) _

/-- Places in reading order have offsets in order. -/
theorem offset_mono {a b : Place} (h : a ≤ b) (lines : List (List Char)) : a.offset lines ≤ b.offset lines := by
  obtain ⟨la, ca⟩ := a
  obtain ⟨lb, cb⟩ := b
  rw [le_def] at h
  induction lines generalizing la lb with
  | nil => exact Nat.le_refl 0
  | cons line rest ih =>
    cases la with
    | zero =>
      cases lb with
      | zero =>
        simp only [offset_zero_cons]
        simp only at h
        omega
      | succ lb =>
        rw [offset_zero_cons, offset_succ_cons]
        omega
    | succ la =>
      cases lb with
      | zero => simp only at h; omega
      | succ lb =>
        rw [offset_succ_cons, offset_succ_cons]
        exact Nat.add_le_add_left (ih la lb (by simp only at h ⊢; omega)) _

end Place

/-- **A text spliced**: what stands before the first offset, a new text, and what stands from the second offset on. -/
def splice (source : List Char) (first last : Nat) (text : List Char) : List Char :=
  source.take first ++ text ++ source.drop last

/-- A splice of a text that starts with `front`, both offsets past it, leaves `front` in its place. -/
theorem splice_append (front source : List Char) (first last : Nat) (text : List Char) :
    splice (front ++ source) (front.length + first) (front.length + last) text =
      front ++ splice source first last text := by
  simp only [splice, List.take_length_add_append, List.drop_length_add_append, List.append_assoc]

/-! ## The walk over the lines -/

theorem before_ofNat (line : List Char) (n : Nat) : SignedIndex.before line n = line.take n := by
  simp [SignedIndex.before, SignedIndex.offset?]

theorem onward_ofNat (line : List Char) (n : Nat) : SignedIndex.onward line n = line.drop n := by
  simp [SignedIndex.onward, SignedIndex.offset?]

/-- What a line contributes, for a range between two places. -/
theorem keptOfLine_upTo (a b : Place) (text : List Char) (i : Nat) (line : List Char) :
    keptOfLine (a.upTo b) text i line =
      if i < a.line ∨ b.line < i then line
      else (if i = a.line then line.take a.character ++ text else []) ++
        (if i = b.line then line.drop b.character else []) := by
  simp only [keptOfLine, Place.upTo, Place.position, before_ofNat, onward_ofNat, Bool.or_eq_true, decide_eq_true_eq,
    Int.ofNat_lt, Int.natCast_inj]

/-- Behind the range every line is kept. -/
theorem replaceFrom_behind (a b : Place) (text : List Char) {i : Nat} (h : b.line < i) (lines : List (List Char)) :
    replaceFrom (a.upTo b) text i lines = lines.flatten := by
  induction lines generalizing i with
  | nil => rfl
  | cons line rest ih =>
    rw [replaceFrom, keptOfLine_upTo, if_pos (Or.inr h), ih (Nat.lt_succ_of_lt h), List.flatten_cons]

/-- Within the range everything is dropped up to its end. -/
theorem replaceFrom_within (a b : Place) (text : List Char) {i l : Nat} (hstart : a.line < i) (hstop : b.line = i + l)
    (lines : List (List Char)) :
    replaceFrom (a.upTo b) text i lines = lines.flatten.drop (Place.offset ⟨l, b.character⟩ lines) := by
  induction lines generalizing i l with
  | nil => rfl
  | cons line rest ih =>
    rw [replaceFrom, keptOfLine_upTo, if_neg (by omega), if_neg (by omega), List.nil_append, List.flatten_cons]
    cases l with
    | zero =>
      rw [if_pos (by omega), replaceFrom_behind a b text (by omega), Place.offset_zero_cons, List.drop_append,
        List.drop_eq_drop_min, Nat.sub_eq_zero_of_le (Nat.min_le_right ..), List.drop_zero]
    | succ l =>
      rw [if_neg (by omega), List.nil_append, ih (by omega) (show b.line = i + 1 + l by omega), Place.offset_succ_cons,
        List.drop_length_add_append]

/-- **In front of the range the walk is a splice**, provided that the line on which the range starts is there. The
places are counted from the line that the walk has reached. -/
theorem replaceFrom_eq_splice (text : List Char) (i la ca lb cb : Nat) (lines : List (List Char))
    (hle : (⟨la, ca⟩ : Place) ≤ ⟨lb, cb⟩) (hline : la < lines.length) :
    replaceFrom (Place.upTo ⟨i + la, ca⟩ ⟨i + lb, cb⟩) text i lines =
      splice lines.flatten (Place.offset ⟨la, ca⟩ lines) (Place.offset ⟨lb, cb⟩ lines) text := by
  rw [Place.le_def] at hle
  simp only at hle
  induction lines generalizing i la lb with
  | nil => exact absurd hline (Nat.not_lt_zero la)
  | cons line rest ih =>
    rw [replaceFrom, keptOfLine_upTo]
    cases la with
    | succ la =>
      -- The line stands before the range; the walk goes on with both places one line nearer.
      obtain ⟨lb, rfl⟩ : ∃ l, lb = l + 1 := ⟨lb - 1, by omega⟩
      have hrest := ih (i + 1) la lb (by omega) (by simpa using hline)
      rw [Nat.add_right_comm i 1 la, Nat.add_right_comm i 1 lb] at hrest
      rw [if_pos (Or.inl (by simp only; omega)), Place.offset_succ_cons, Place.offset_succ_cons, List.flatten_cons,
        splice_append]
      exact congrArg (line ++ ·) hrest
    | zero =>
      have hfront : (line ++ rest.flatten).take (min ca line.length) = line.take ca := by
        rw [List.take_append, Nat.sub_eq_zero_of_le (Nat.min_le_right ..), List.take_zero, List.append_nil,
          ← List.take_eq_take_min]
      rw [if_neg (by simp only; omega), if_pos (by simp only; omega), Place.offset_zero_cons, splice,
        List.flatten_cons, hfront]
      cases lb with
      | zero =>
        have hback : (line ++ rest.flatten).drop (min cb line.length) = line.drop cb ++ rest.flatten := by
          rw [List.drop_append, Nat.sub_eq_zero_of_le (Nat.min_le_right ..), List.drop_zero, ← List.drop_eq_drop_min]
        rw [if_pos (by simp only; omega), replaceFrom_behind _ _ _ (by simp only; omega), Place.offset_zero_cons, hback,
          List.append_assoc]
      | succ lb =>
        rw [if_neg (by simp only; omega), List.append_nil, Place.offset_succ_cons, List.drop_length_add_append,
          replaceFrom_within ⟨i + 0, ca⟩ ⟨i + (lb + 1), cb⟩ text (by simp only; omega)
            (show i + (lb + 1) = i + 1 + lb by omega)]

/-- **A text with a range replaced is spliced at the offsets of the range.** Both ways of the change are covered: the
walk over the lines, and the addition at the end for a range that starts just past the last line. -/
theorem replaceRange_eq_splice (source text : List Char) {a b : Place} (hle : a ≤ b)
    (hline : a.line ≤ (Text.lines source).length) :
    replaceRange source (a.upTo b) text =
      splice source (a.offset (Text.lines source)) (b.offset (Text.lines source)) text := by
  have hwhole : (Text.lines source).flatten = source := Text.flatten_lines source
  unfold replaceRange
  by_cases hend : a.line = (Text.lines source).length
  · have hstop : (Text.lines source).length ≤ b.line := by
      rw [Place.le_def] at hle
      omega
    rw [if_pos (by simp only [Place.upTo, Place.position, hend]), Place.offset_of_length_le (Nat.le_of_eq hend.symm),
      Place.offset_of_length_le hstop, hwhole, splice, List.take_length, List.drop_length, List.append_nil]
  · rw [if_neg (by simpa only [Place.upTo, Place.position, Int.natCast_inj] using hend)]
    have hwalk := replaceFrom_eq_splice text 0 a.line a.character b.line b.character (Text.lines source) hle (by omega)
    rwa [Nat.zero_add, Nat.zero_add, hwhole] at hwalk

/-! ## Documents -/

/-- A value that is read as a position has a number as its line and one as its character. -/
theorem ofValue_position {v : Value} {p : Position} (h : Position.ofValue v = .ok p) :
    ∃ line character, v.item "line" = .ok line ∧ line.number = .ok p.line ∧
      v.item "character" = .ok character ∧ character.number = .ok p.character := by
  obtain ⟨line, hline, h⟩ := Fault.bind_eq_ok.mp h
  obtain ⟨l, hl, h⟩ := Fault.bind_eq_ok.mp h
  obtain ⟨character, hcharacter, h⟩ := Fault.bind_eq_ok.mp h
  obtain ⟨c, hc, h⟩ := Fault.bind_eq_ok.mp h
  cases h
  exact ⟨line, character, hline, hl, hcharacter, hc⟩

/-- On a line that is there, up to its end, the offset of a place is the number of characters in front of it. -/
theorem offsetOf_place {p : Place} {lines : List (List Char)} {line : List Char} (hline : lines[p.line]? = some line)
    (hcharacter : p.character ≤ line.length) : offsetOf lines p.line p.character = p.offset lines := by
  have hbefore : SignedIndex.before lines p.line = lines.take p.line := by
    simp [SignedIndex.before, SignedIndex.offset?]
  rw [offsetOf, hbefore, Place.offset, hline]
  simp only [Nat.min_eq_left hcharacter]
  omega

/-- **A change with a range splices the text of a document** at the offsets of the range, whichever way the change
takes. The two offsets stand in order inside the text, so the text falls into what is kept in front, what goes, and
what is kept behind. Where a place is on a line that is there, and not past its end, its offset is the one that the
document itself counts. -/
theorem applyChange_eq_splice (d : Document) (files : FileTree) {source : String} (hsource : d.text files = .ok source)
    (text : String) {a b : Place} (hle : a ≤ b) (hline : a.line ≤ (Text.lines source.toList).length) :
    d.applyChange files { text := some text, range := some (a.upTo b) } =
        .ok { d with source := some (String.ofList (splice source.toList (a.offset (Text.lines source.toList))
          (b.offset (Text.lines source.toList)) text.toList)) } ∧
      a.offset (Text.lines source.toList) ≤ b.offset (Text.lines source.toList) ∧
      b.offset (Text.lines source.toList) ≤ source.toList.length ∧
      ∀ (p : Place) (line : List Char) (position : Value), (Text.lines source.toList)[p.line]? = some line →
        p.character ≤ line.length → Position.ofValue position = .ok p.position →
          d.offsetAt files position = .ok (p.offset (Text.lines source.toList)) := by
  refine ⟨?_, Place.offset_mono hle _, ?_, ?_⟩
  · rw [← replaceRange_eq_splice source.toList text.toList hle hline]
    simp only [applyChange, hsource]
    rfl
  · have hlast := Place.offset_le_length b (Text.lines source.toList)
    rwa [Text.flatten_lines] at hlast
  · intro p line position hp hcharacter hread
    obtain ⟨l, c, hl, hln, hc, hcn⟩ := ofValue_position hread
    have hlines : d.lines files = .ok (Text.lines source.toList) := by
      rw [lines, hsource]
      rfl
    have hcount : d.offsetAt files position = .ok (offsetOf (Text.lines source.toList) p.line p.character) := by
      rw [offsetAt, hc, hl, hlines]
      simp only [bind, Except.bind, hcn, hln]
      rfl
    rw [hcount, offsetOf_place hp hcharacter]

/-- A text of two lines, the second without a break. The range starts past the end of the first line, on its break, and
ends beyond the last line. -/
theorem applyChange_eq_splice_past_ends :
    let d : Document :=
      { uri := "u", path := "u", dottedName := "u", fileName := "u", source := some "ab\ncd", home := 0 }
    d.applyChange {} { text := some "X", range := some (Place.upTo ⟨0, 9⟩ ⟨7, 0⟩) } =
      .ok { d with source := some "ab\nX" } := by
  intro d
  have hsource : d.text {} = .ok "ab\ncd" := rfl
  have hsplice := (applyChange_eq_splice d {} hsource "X" (a := ⟨0, 9⟩) (b := ⟨7, 0⟩) (by decide) (by decide)).1
  exact hsplice.trans (congrArg (fun s => Except.ok { d with source := some s }) (by decide))

/-! ## Edits -/

/-- **An edit** of a text: a new text in the place of what stands between two places, or in the place of everything. -/
structure Edit where
  text : String
  range : Option (Place × Place) := none
  deriving DecidableEq, Repr

namespace Edit

/-- The edit as a change of a document. -/
def change (e : Edit) : Change := { text := some e.text, range := e.range.map fun r => r.1.upTo r.2 }

/-- **The text after an edit**: a new one, or the old one spliced at the offsets of the range. -/
def apply (e : Edit) (source : String) : String :=
  match e.range with
  | none => e.text
  | some (a, b) =>
    let lines := Text.lines source.toList
    String.ofList (splice source.toList (a.offset lines) (b.offset lines) e.text.toList)

/-- The text that a document has after the edit was made in it. -/
def made (e : Edit) (source : String) : String :=
  match e.range with
  | none => e.text
  | some (a, b) => String.ofList (replaceRange source.toList (a.upTo b) e.text.toList)

/-- **An edit fits a text**: its range runs forward and starts no later than just past the last line. -/
def Fits (e : Edit) (source : String) : Prop :=
  ∀ a b, e.range = some (a, b) → a ≤ b ∧ a.line ≤ (Text.lines source.toList).length

/-- Edits fit a text when each fits what the ones before it leave. -/
def FitAll (source : String) : List Edit → Prop
  | [] => True
  | e :: rest => e.Fits source ∧ FitAll (e.apply source) rest

theorem made_eq_apply {e : Edit} {source : String} (h : e.Fits source) : e.made source = e.apply source := by
  rcases hrange : e.range with _ | ⟨a, b⟩
  · rw [made, apply, hrange]
  · obtain ⟨hle, hline⟩ := h a b hrange
    rw [made, apply, hrange]
    simp only [replaceRange_eq_splice source.toList e.text.toList hle hline]

theorem foldl_made_eq_apply {edits : List Edit} {source : String} (h : FitAll source edits) :
    edits.foldl (fun text e => e.made text) source = edits.foldl (fun text e => e.apply text) source := by
  induction edits generalizing source with
  | nil => rfl
  | cons e rest ih =>
    rw [List.foldl_cons, List.foldl_cons, made_eq_apply h.1]
    exact ih h.2

/-- An open document takes every edit. -/
theorem applyChange_change {d : Document} {source : String} (hsource : d.source = some source) (files : FileTree)
    (e : Edit) : d.applyChange files e.change = .ok { d with source := some (e.made source) } := by
  have htext : d.text files = .ok source := by rw [Document.text, hsource]
  rcases hrange : e.range with _ | ⟨a, b⟩
  · simp only [applyChange, change, made, hrange, Option.map_none]
  · simp only [applyChange, change, made, hrange, Option.map_some, htext]
    rfl

end Edit

end EditorService.Document
