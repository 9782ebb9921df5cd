import EditorService.Proofs.Splice

/-!
# The lines that a client counts

The protocol knows three line endings: `\n`, `\r\n` and `\r`. A client counts its lines by these alone (`Client.lines`),
and a text that ends in an ending has one more line, an empty one. The service cuts a text after eight further breaks
(`Text.lines`). So the two sides may give one place two offsets.

**The law** (`offset_eq_iff`): a place that is valid for the client has the same offset on both sides exactly when no
foreign break stands in front of it, the character right before the place excepted. From it
follows when a range change means the same on both sides whatever text it brings: exactly when the offset of its end is
clear in this sense (`replaceRange_agrees_iff`).

The exception is real. A foreign break ends a line of the service, and the place right behind it is still a place of
that line, at its end.

What the client does with a place that is not valid for it is not modelled: `Client.offset?` has no answer there.
-/

namespace EditorService.Client

open EditorService.Document (Place splice)

/-! ## Lines of a client -/

/-- **What ends a line for a client.** -/
def endsLine (c : Char) : Bool := c == '\n' || c == '\r'

/-- **A break that a client does not know**: it ends a line of the service only. -/
def isForeign (c : Char) : Bool := Text.isBreak c && !endsLine c

/-- A line of a client: its content, and what ends it. The last line of a text is ended by nothing. -/
structure Line where
  content : List Char := []
  ending : List Char := []
  deriving DecidableEq, Repr

/-- How many characters a line takes up, its ending included. -/
def Line.length (l : Line) : Nat := l.content.length + l.ending.length

/-- Puts a character in front of the first line's content. -/
def push (c : Char) : List Line → List Line
  | [] => [{ content := [c] }]
  | line :: rest => { line with content := c :: line.content } :: rest

/-- **The lines of a text as a client counts them.** -/
def lines : List Char → List Line
  | [] => [{}]
  | '\r' :: '\n' :: rest => { ending := ['\r', '\n'] } :: lines rest
  | c :: rest => if endsLine c then { ending := [c] } :: lines rest else push c (lines rest)

/-- How many characters some lines take up. -/
def span (ls : List Line) : Nat := ls.foldr (fun line n => line.length + n) 0

/-- The offset of a place in lines of a client. The character must not lie past the content of its line. -/
def offsetIn? (p : Place) (ls : List Line) : Option Nat :=
  match ls[p.line]? with
  | some line =>
    if p.character ≤ line.content.length then some (span (ls.take p.line) + p.character) else none
  | none => none

/-- **The offset of a place in a text of a client**, if the place is valid there. -/
def offset? (text : List Char) (p : Place) : Option Nat := offsetIn? p (lines text)

theorem lines_ne_nil (text : List Char) : lines text ≠ [] := by
  fun_cases lines text with
  | case1 => exact List.cons_ne_nil _ _
  | case2 rest => exact List.cons_ne_nil _ _
  | case3 c rest _ h => exact List.cons_ne_nil _ _
  | case4 c rest _ h =>
    cases lines rest with
    | nil => exact List.cons_ne_nil _ _
    | cons line more => exact List.cons_ne_nil _ _

/-! ## Offsets of a client, character by character -/

theorem offsetIn?_zero_cons (k : Nat) (line : Line) (rest : List Line) :
    offsetIn? ⟨0, k⟩ (line :: rest) = if k ≤ line.content.length then some k else none := by
  simp [offsetIn?, span]

theorem offsetIn?_succ_cons (l k : Nat) (line : Line) (rest : List Line) :
    offsetIn? ⟨l + 1, k⟩ (line :: rest) = (offsetIn? ⟨l, k⟩ rest).map (line.length + ·) := by
  simp only [offsetIn?, List.getElem?_cons_succ, List.take_succ_cons, span, List.foldr_cons]
  cases rest[l]? with
  | none => rfl
  | some found =>
    by_cases hk : k ≤ found.content.length
    · simp only [hk, if_true, Option.map_some, Nat.add_assoc]
    · simp only [hk, if_false, Option.map_none]

/-- On the first line an offset is the character itself. -/
theorem offset?_first {text : List Char} {k o : Nat} (h : offset? text ⟨0, k⟩ = some o) : o = k := by
  obtain ⟨line, rest, hlines⟩ := List.exists_cons_of_ne_nil (lines_ne_nil text)
  rw [offset?, hlines, offsetIn?_zero_cons] at h
  split at h
  · exact (Option.some.inj h).symm
  · exact nomatch h

/-- An empty text has one place. -/
theorem offset?_nil {p : Place} {o : Nat} (h : offset? [] p = some o) : p = ⟨0, 0⟩ := by
  obtain ⟨l, k⟩ := p
  cases l with
  | zero =>
    rw [offset?, lines, offsetIn?_zero_cons] at h
    split at h
    · next hk => rw [Nat.le_zero.mp hk]
    · exact nomatch h
  | succ l =>
    rw [offset?, lines, offsetIn?_succ_cons] at h
    exact nomatch h

/-- A line that starts with its ending has no content, hence one place. -/
theorem offset?_ending {c : Char} (hends : endsLine c = true) {rest : List Char} {k o : Nat}
    (h : offset? (c :: rest) ⟨0, k⟩ = some o) : k = 0 := by
  have hempty : ∃ ending more, lines (c :: rest) = { ending } :: more := by
    generalize htext : c :: rest = text
    fun_cases lines text with
    | case1 => exact nomatch htext
    | case2 more => exact ⟨_, _, rfl⟩
    | case3 d more _ _ => exact ⟨_, _, rfl⟩
    | case4 d more _ hnot =>
      cases htext
      exact absurd hends hnot
  obtain ⟨ending, more, hlines⟩ := hempty
  rw [offset?, hlines, offsetIn?_zero_cons] at h
  split at h
  · next hk => exact Nat.le_zero.mp hk
  · exact nomatch h

theorem offset?_pair_line (rest : List Char) (l k : Nat) :
    offset? ('\r' :: '\n' :: rest) ⟨l + 1, k⟩ = (offset? rest ⟨l, k⟩).map (2 + ·) :=
  offsetIn?_succ_cons l k { ending := ['\r', '\n'] } (lines rest)

theorem offset?_ending_line {c : Char} (hends : endsLine c = true) {rest : List Char}
    (hpair : ∀ more, c = '\r' → rest = '\n' :: more → False) (l k : Nat) :
    offset? (c :: rest) ⟨l + 1, k⟩ = (offset? rest ⟨l, k⟩).map (1 + ·) := by
  rw [offset?, lines, if_pos hends]
  · exact offsetIn?_succ_cons l k { ending := [c] } (lines rest)
  · exact hpair

theorem lines_content {c : Char} (hends : ¬ endsLine c = true) (rest : List Char) :
    ∃ line more, lines rest = line :: more ∧
      lines (c :: rest) = { line with content := c :: line.content } :: more := by
  obtain ⟨line, more, h⟩ := List.exists_cons_of_ne_nil (lines_ne_nil rest)
  refine ⟨line, more, h, ?_⟩
  rw [lines, if_neg hends, h, push]
  rintro more rfl rfl
  exact hends rfl

/-- A character of a line's content moves every place behind it by one. On its own line the place itself moves. -/
theorem offset?_content_succ {c : Char} (hends : ¬ endsLine c = true) (rest : List Char) (k : Nat) :
    offset? (c :: rest) ⟨0, k + 1⟩ = (offset? rest ⟨0, k⟩).map (1 + ·) := by
  obtain ⟨line, more, hrest, hlines⟩ := lines_content hends rest
  rw [offset?, offset?, hlines, hrest, offsetIn?_zero_cons, offsetIn?_zero_cons, List.length_cons]
  by_cases hk : k ≤ line.content.length
  · rw [if_pos hk, if_pos (Nat.succ_le_succ hk), Option.map_some, Nat.add_comm]
  · rw [if_neg hk, if_neg (fun h => hk (Nat.le_of_succ_le_succ h)), Option.map_none]

theorem offset?_content_line {c : Char} (hends : ¬ endsLine c = true) (rest : List Char) (l k : Nat) :
    offset? (c :: rest) ⟨l + 1, k⟩ = (offset? rest ⟨l + 1, k⟩).map (1 + ·) := by
  obtain ⟨line, more, hrest, hlines⟩ := lines_content hends rest
  rw [offset?, offset?, hlines, hrest, offsetIn?_succ_cons, offsetIn?_succ_cons, Option.map_map]
  congr 1
  funext o
  simp only [Line.length, List.length_cons, Function.comp_apply]
  omega

/-- Places in reading order have offsets in order. -/
theorem offset?_mono {text : List Char} {a b : Place} {first last : Nat} (ha : offset? text a = some first)
    (hb : offset? text b = some last) (hle : a ≤ b) : first ≤ last := by
  obtain ⟨la, ka⟩ := a
  obtain ⟨lb, kb⟩ := b
  rw [Place.le_def] at hle
  simp only at hle
  unfold offset? at ha hb
  generalize lines text = ls at ha hb
  induction ls generalizing la lb first last with
  | nil => exact nomatch ha
  | cons line rest ih =>
    cases la with
    | zero =>
      rw [offsetIn?_zero_cons] at ha
      split at ha
      · next hk =>
        cases ha
        cases lb with
        | zero =>
          rw [offsetIn?_zero_cons] at hb
          split at hb
          · cases hb
            omega
          · exact nomatch hb
        | succ lb =>
          rw [offsetIn?_succ_cons] at hb
          obtain ⟨o, _, rfl⟩ := Option.map_eq_some_iff.mp hb
          rw [Line.length]
          omega
      · exact nomatch ha
    | succ la =>
      obtain ⟨lb, rfl⟩ : ∃ l, lb = l + 1 := ⟨lb - 1, by omega⟩
      rw [offsetIn?_succ_cons] at ha hb
      obtain ⟨oa, hoa, rfl⟩ := Option.map_eq_some_iff.mp ha
      obtain ⟨ob, hob, rfl⟩ := Option.map_eq_some_iff.mp hb
      exact Nat.add_le_add_left (ih la lb (by omega) hoa hob) _

/-! ## Lines of the service, character by character -/

theorem isBreak_of_endsLine {c : Char} (h : endsLine c = true) : Text.isBreak c = true := by
  simp only [endsLine, Bool.or_eq_true, beq_iff_eq] at h
  rcases h with rfl | rfl <;> rfl

theorem offset_origin (ls : List (List Char)) : Place.offset ⟨0, 0⟩ ls = 0 := by
  cases ls with
  | nil => rfl
  | cons line rest => rw [Place.offset_zero_cons, Nat.zero_min]

theorem offset_consLine_succ (c : Char) (k : Nat) (ls : List (List Char)) :
    Place.offset ⟨0, k + 1⟩ (Text.consLine c ls) = 1 + Place.offset ⟨0, k⟩ ls := by
  cases ls with
  | nil =>
    rw [Text.consLine, Place.offset_zero_cons, Place.offset_nil, List.length_singleton]
    omega
  | cons line rest =>
    rw [Text.consLine, Place.offset_zero_cons, Place.offset_zero_cons, List.length_cons]
    omega

theorem offset_consLine_line (c : Char) (l k : Nat) (ls : List (List Char)) :
    Place.offset ⟨l + 1, k⟩ (Text.consLine c ls) = 1 + Place.offset ⟨l + 1, k⟩ ls := by
  cases ls with
  | nil => rw [Text.consLine, Place.offset_succ_cons, Place.offset_nil, Place.offset_nil, List.length_singleton]
  | cons line rest =>
    rw [Text.consLine, Place.offset_succ_cons, Place.offset_succ_cons, List.length_cons]
    omega

/-! ## When the two sides agree -/

/-- **An offset is clear** when no foreign break stands in front of it, the character right before it excepted. -/
def Clear (text : List Char) (o : Nat) : Prop := ∀ c ∈ text.take (o - 1), isForeign c = false

instance (text : List Char) (o : Nat) : Decidable (Clear text o) := List.decidableBAll ..

theorem clear_zero (text : List Char) : Clear text 0 := by
  intro c hc
  rw [Nat.zero_sub, List.take_zero] at hc
  exact nomatch hc

theorem clear_cons (c : Char) (rest : List Char) (o : Nat) :
    Clear (c :: rest) (1 + o) ↔ (o = 0 ∨ isForeign c = false) ∧ Clear rest o := by
  unfold Clear
  rw [Nat.add_sub_cancel_left]
  cases o with
  | zero => simp
  | succ o => simp

/-- An offset in front of a clear one is clear. -/
theorem Clear.mono {text : List Char} {first last : Nat} (h : Clear text last) (hle : first ≤ last) :
    Clear text first := by
  intro c hc
  have hfront : text.take (first - 1) <+: text.take (last - 1) := List.take_prefix_take_left (by omega)
  exact h c (hfront.subset hc)

theorem not_foreign_of_endsLine {c : Char} (h : endsLine c = true) : isForeign c = false := by
  rw [isForeign, h, Bool.not_true, Bool.and_false]

theorem not_foreign_of_plain {c : Char} (h : Text.isBreak c = false) : isForeign c = false := by
  rw [isForeign, h, Bool.false_and]

theorem foreign_of_break {c : Char} (h : Text.isBreak c = true) (hends : ¬ endsLine c = true) : isForeign c = true := by
  rw [isForeign, h, Bool.eq_false_iff.mpr hends]
  rfl

/-- The service sees a place on one line in front of every place that the client sees on the next: the service's lines
end no later than the client's. -/
theorem offset_lt_next_line {text : List Char} {l k o : Nat} (h : offset? text ⟨l + 1, k⟩ = some o) :
    Place.offset ⟨l, k⟩ (Text.lines text) < o := by
  induction text using lines.induct generalizing l k o with
  | case1 => cases offset?_nil h
  | case2 rest ih =>
    rw [offset?_pair_line] at h
    obtain ⟨o, ho, rfl⟩ := Option.map_eq_some_iff.mp h
    rw [Text.lines_pair]
    cases l with
    | zero =>
      rw [offset?_first ho, Place.offset_zero_cons]
      simp only [List.length_cons, List.length_nil]
      omega
    | succ l =>
      rw [Place.offset_succ_cons]
      exact Nat.add_lt_add_left (ih ho) 2
  | case3 c rest hpair hends ih =>
    rw [offset?_ending_line hends hpair] at h
    obtain ⟨o, ho, rfl⟩ := Option.map_eq_some_iff.mp h
    rw [Text.lines_break (isBreak_of_endsLine hends) hpair]
    cases l with
    | zero =>
      rw [offset?_first ho, Place.offset_zero_cons, List.length_singleton]
      omega
    | succ l =>
      rw [Place.offset_succ_cons]
      exact Nat.add_lt_add_left (ih ho) 1
  | case4 c rest hpair hends ih =>
    rw [offset?_content_line hends] at h
    obtain ⟨o, ho, rfl⟩ := Option.map_eq_some_iff.mp h
    have hnext := ih ho
    cases hbreak : Text.isBreak c with
    | true =>
      rw [Text.lines_break hbreak hpair]
      cases l with
      | zero =>
        rw [Place.offset_zero_cons, List.length_singleton]
        omega
      | succ l =>
        have hback : Place.offset ⟨l, k⟩ (Text.lines rest) ≤ Place.offset ⟨l + 1, k⟩ (Text.lines rest) :=
          Place.offset_mono (Or.inl (Nat.lt_succ_self l)) _
        rw [Place.offset_succ_cons, List.length_singleton]
        omega
    | false =>
      rw [Text.lines_plain hbreak]
      cases l with
      | zero =>
        cases k with
        | zero =>
          rw [offset_origin]
          omega
        | succ k =>
          have hback : Place.offset ⟨0, k⟩ (Text.lines rest) ≤ Place.offset ⟨0, k + 1⟩ (Text.lines rest) :=
            Place.offset_mono (a := ⟨0, k⟩) (b := ⟨0, k + 1⟩) (Or.inr ⟨rfl, Nat.le_succ k⟩) _
          rw [offset_consLine_succ]
          omega
      | succ l =>
        rw [offset_consLine_line]
        omega

/-- **The two sides see a place at one offset exactly when that offset is clear.** -/
theorem offset_eq_iff {text : List Char} {p : Place} {o : Nat} (h : offset? text p = some o) :
    p.offset (Text.lines text) = o ↔ Clear text o := by
  obtain ⟨l, k⟩ := p
  induction text using lines.induct generalizing l k o with
  | case1 =>
    cases offset?_nil h
    cases offset?_first h
    exact iff_of_true rfl (clear_zero [])
  | case2 rest ih =>
    cases l with
    | zero =>
      cases offset?_ending rfl h
      cases offset?_first h
      exact iff_of_true (offset_origin _) (clear_zero _)
    | succ l =>
      rw [offset?_pair_line] at h
      obtain ⟨o, ho, rfl⟩ := Option.map_eq_some_iff.mp h
      rw [Text.lines_pair, Place.offset_succ_cons, show 2 + o = 1 + (1 + o) by omega, clear_cons, clear_cons,
        ← ih l k ho]
      simp only [List.length_cons, List.length_nil, show isForeign '\r' = false from rfl,
        show isForeign '\n' = false from rfl, or_true, true_and]
      omega
  | case3 c rest hpair hends ih =>
    cases l with
    | zero =>
      cases offset?_ending hends h
      cases offset?_first h
      exact iff_of_true (offset_origin _) (clear_zero _)
    | succ l =>
      rw [offset?_ending_line hends hpair] at h
      obtain ⟨o, ho, rfl⟩ := Option.map_eq_some_iff.mp h
      rw [Text.lines_break (isBreak_of_endsLine hends) hpair, Place.offset_succ_cons, clear_cons, ← ih l k ho]
      simp only [List.length_singleton, not_foreign_of_endsLine hends, or_true, true_and, Nat.add_left_cancel_iff]
  | case4 c rest hpair hends ih =>
    cases hbreak : Text.isBreak c with
    | true =>
      -- A foreign break: the service's line ends here, the client's goes on.
      have hforeign := foreign_of_break hbreak hends
      rw [Text.lines_break hbreak hpair]
      cases l with
      | zero =>
        cases k with
        | zero =>
          cases offset?_first h
          exact iff_of_true (offset_origin _) (clear_zero _)
        | succ k =>
          rw [offset?_content_succ hends] at h
          obtain ⟨o, ho, rfl⟩ := Option.map_eq_some_iff.mp h
          cases offset?_first ho
          rw [Place.offset_zero_cons, List.length_singleton, clear_cons, hforeign]
          constructor
          · intro hone
            have hzero : k = 0 := by omega
            exact ⟨Or.inl hzero, hzero ▸ clear_zero rest⟩
          · rintro ⟨hzero | hfalse, _⟩
            · omega
            · exact nomatch hfalse
      | succ l =>
        rw [offset?_content_line hends] at h
        obtain ⟨o, ho, rfl⟩ := Option.map_eq_some_iff.mp h
        have hless := offset_lt_next_line ho
        rw [Place.offset_succ_cons, List.length_singleton, clear_cons, hforeign]
        refine iff_of_false (by omega) ?_
        rintro ⟨hzero | hfalse, _⟩
        · omega
        · exact nomatch hfalse
    | false =>
      rw [Text.lines_plain hbreak]
      cases l with
      | zero =>
        cases k with
        | zero =>
          cases offset?_first h
          exact iff_of_true (offset_origin _) (clear_zero _)
        | succ k =>
          rw [offset?_content_succ hends] at h
          obtain ⟨o, ho, rfl⟩ := Option.map_eq_some_iff.mp h
          rw [offset_consLine_succ, clear_cons, ← ih 0 k ho]
          simp only [not_foreign_of_plain hbreak, or_true, true_and, Nat.add_left_cancel_iff]
      | succ l =>
        rw [offset?_content_line hends] at h
        obtain ⟨o, ho, rfl⟩ := Option.map_eq_some_iff.mp h
        rw [offset_consLine_line, clear_cons, ← ih (l + 1) k ho]
        simp only [not_foreign_of_plain hbreak, or_true, true_and, Nat.add_left_cancel_iff]

/-! ## Range changes -/

/-- A place that is valid for the client stands inside the text. -/
theorem offset?_le_length {text : List Char} {p : Place} {o : Nat} (h : offset? text p = some o) :
    o ≤ text.length := by
  obtain ⟨l, k⟩ := p
  induction text using lines.induct generalizing l k o with
  | case1 =>
    cases offset?_nil h
    exact Nat.le_of_eq (offset?_first h)
  | case2 rest ih =>
    cases l with
    | zero =>
      cases offset?_ending rfl h
      cases offset?_first h
      exact Nat.zero_le _
    | succ l =>
      rw [offset?_pair_line] at h
      obtain ⟨o, ho, rfl⟩ := Option.map_eq_some_iff.mp h
      have hrest := ih l k ho
      simp only [List.length_cons]
      omega
  | case3 c rest hpair hends ih =>
    cases l with
    | zero =>
      cases offset?_ending hends h
      cases offset?_first h
      exact Nat.zero_le _
    | succ l =>
      rw [offset?_ending_line hends hpair] at h
      obtain ⟨o, ho, rfl⟩ := Option.map_eq_some_iff.mp h
      have hrest := ih l k ho
      rw [List.length_cons]
      omega
  | case4 c rest hpair hends ih =>
    rw [List.length_cons]
    cases l with
    | zero =>
      cases k with
      | zero =>
        cases offset?_first h
        exact Nat.zero_le _
      | succ k =>
        rw [offset?_content_succ hends] at h
        obtain ⟨o, ho, rfl⟩ := Option.map_eq_some_iff.mp h
        have hrest := ih 0 k ho
        omega
    | succ l =>
      rw [offset?_content_line hends] at h
      obtain ⟨o, ho, rfl⟩ := Option.map_eq_some_iff.mp h
      have hrest := ih (l + 1) k ho
      omega

theorem length_le_consLine (c : Char) (ls : List (List Char)) : ls.length ≤ (Text.consLine c ls).length := by
  cases ls with
  | nil => exact Nat.zero_le _
  | cons line rest => exact Nat.le_refl _

/-- The client has at most one line more than the service: the empty one at the end of a text. -/
theorem length_lines_le (text : List Char) : (lines text).length ≤ (Text.lines text).length + 1 := by
  induction text using lines.induct with
  | case1 => exact Nat.le_refl 1
  | case2 rest ih =>
    rw [lines, Text.lines_pair, List.length_cons, List.length_cons]
    exact Nat.succ_le_succ ih
  | case3 c rest hpair hends ih =>
    rw [lines, if_pos hends, Text.lines_break (isBreak_of_endsLine hends) hpair, List.length_cons, List.length_cons]
    · exact Nat.succ_le_succ ih
    · exact hpair
  | case4 c rest hpair hends ih =>
    obtain ⟨line, more, hrest, hlines⟩ := lines_content hends rest
    have hsame : (lines (c :: rest)).length = (lines rest).length := by
      rw [hlines, hrest, List.length_cons, List.length_cons]
    rw [hsame]
    cases hbreak : Text.isBreak c with
    | true =>
      rw [Text.lines_break hbreak hpair, List.length_cons]
      omega
    | false =>
      have hmore := length_le_consLine c (Text.lines rest)
      rw [Text.lines_plain hbreak]
      omega

/-- A place that is valid for the client is on a line of the service, or just past the last one. -/
theorem line_le_of_offset? {text : List Char} {p : Place} {o : Nat} (h : offset? text p = some o) :
    p.line ≤ (Text.lines text).length := by
  have hthere : p.line < (lines text).length := by
    rw [offset?, offsetIn?] at h
    split at h
    · next line hline => exact (List.getElem?_eq_some_iff.mp hline).1
    · exact nomatch h
  have hmore := length_lines_le text
  omega

/-- A character unlike a given one. -/
def unlike (c : Char) : Char := if c = 'a' then 'b' else 'a'

theorem unlike_ne (c : Char) : unlike c ≠ c := by
  unfold unlike
  split
  · next h =>
    subst h
    decide
  · next h => exact fun ha => h ha.symm

/-- Splices that start at different offsets differ for some new text: the one that starts earlier brings a character
that the other one leaves as it was. -/
theorem exists_splice_ne_of_lt {text : List Char} {first first' : Nat} (last last' : Nat) (hlt : first < first')
    (hin : first' ≤ text.length) : ∃ new, splice text first last new ≠ splice text first' last' new := by
  have hfirst : first < text.length := Nat.lt_of_lt_of_le hlt hin
  refine ⟨[unlike text[first]], fun heq => unlike_ne text[first] ?_⟩
  have hleft : (splice text first last [unlike text[first]])[first]? = some (unlike text[first]) := by
    rw [splice, List.append_assoc, List.getElem?_append_right (List.length_take_le _ _),
      List.length_take_of_le (Nat.le_of_lt hfirst), Nat.sub_self]
    rfl
  have hright : (splice text first' last' [unlike text[first]])[first]? = some text[first] := by
    rw [splice, List.append_assoc, List.getElem?_append_left (by rw [List.length_take_of_le hin]; exact hlt),
      List.getElem?_take_of_lt hlt, List.getElem?_eq_getElem hfirst]
  rw [heq, hright] at hleft
  exact (Option.some.inj hleft).symm

/-- Two splices agree for every new text exactly when their offsets are the same. -/
theorem splice_agrees_iff {text : List Char} {first last first' last' : Nat} (hfirst : first ≤ text.length)
    (hlast : last ≤ text.length) (hfirst' : first' ≤ text.length) (hlast' : last' ≤ text.length) :
    (∀ new, splice text first last new = splice text first' last' new) ↔ first = first' ∧ last = last' := by
  constructor
  · intro h
    have hstart : first = first' := by
      rcases Nat.lt_trichotomy first first' with hlt | heq | hlt
      · obtain ⟨new, hne⟩ := exists_splice_ne_of_lt last last' hlt hfirst'
        exact absurd (h new) hne
      · exact heq
      · obtain ⟨new, hne⟩ := exists_splice_ne_of_lt last' last hlt hfirst
        exact absurd (h new).symm hne
    refine ⟨hstart, ?_⟩
    have hlength := congrArg List.length (h [])
    simp only [splice, List.append_nil, List.length_append, List.length_take, List.length_drop] at hlength
    omega
  · rintro ⟨rfl, rfl⟩ new
    rfl

/-- **A range change means the same on both sides, whatever text it brings, exactly when its end is clear.** -/
theorem replaceRange_agrees_iff {text : List Char} {a b : Place} {first last : Nat} (hle : a ≤ b)
    (hfirst : offset? text a = some first) (hlast : offset? text b = some last) :
    (∀ new, Document.replaceRange text (a.upTo b) new = splice text first last new) ↔ Clear text last := by
  have hserved : ∀ new, Document.replaceRange text (a.upTo b) new =
      splice text (a.offset (Text.lines text)) (b.offset (Text.lines text)) new :=
    fun new => Document.replaceRange_eq_splice text new hle (line_le_of_offset? hfirst)
  have hinside : ∀ p : Place, p.offset (Text.lines text) ≤ text.length := fun p => by
    have h := Place.offset_le_length p (Text.lines text)
    rwa [Text.flatten_lines] at h
  simp only [hserved]
  rw [splice_agrees_iff (hinside a) (hinside b) (offset?_le_length hfirst) (offset?_le_length hlast),
    offset_eq_iff hfirst, offset_eq_iff hlast]
  exact ⟨fun h => h.2, fun h => ⟨h.mono (offset?_mono hfirst hlast hle), h⟩⟩

end EditorService.Client
