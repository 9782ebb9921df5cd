import EditorService.Text.Lines
import EditorService.Text.Number
import EditorService.Text.WordChar

/-!
# Numbers in decimal digits

A run of decimal digits writes a number, whatever scripts the digits are of: `decimal` is its value. A number is read from
any such run that is not empty (`readInt?_digits`). The digits that a number is written with are such a run, and give it
back (`decimal_toDigits`).

Breaks, digits and word characters are told apart here too: a break is neither of the others.
-/

namespace EditorService.Text

/-! ## Breaks and blanks are neither digits nor word characters -/

/-- The code points of the blank characters. -/
def blanks : List Nat :=
  [9, 10, 11, 12, 13, 28, 29, 30, 31, 32, 0x85, 0xA0, 0x1680, 0x2000, 0x2001, 0x2002, 0x2003, 0x2004, 0x2005, 0x2006,
   0x2007, 0x2008, 0x2009, 0x200A, 0x2028, 0x2029, 0x202F, 0x205F, 0x3000]

theorem mem_blanks {c : Char} (h : isBlank c = true) : c.toNat ∈ blanks := by
  simp only [isBlank, Bool.or_eq_true, Bool.and_eq_true, decide_eq_true_eq, beq_iff_eq] at h
  simp only [blanks, List.mem_cons, List.not_mem_nil, or_false]
  omega

/-- There are few blanks, so each of them is looked up. -/
theorem not_isDigit_of_mem_blanks : ∀ n ∈ blanks, isDigit (Char.ofNat n) = false := by decide

theorem not_isWordChar_of_mem_blanks : ∀ n ∈ blanks, isWordChar (Char.ofNat n) = false := by decide +kernel

theorem not_isBlank_of_isDigit {c : Char} (h : isDigit c = true) : isBlank c = false := by
  apply Bool.eq_false_iff.mpr
  intro hblank
  have hnot := not_isDigit_of_mem_blanks _ (mem_blanks hblank)
  rw [Char.ofNat_toNat, h] at hnot
  cases hnot

theorem not_isBlank_of_isWordChar {c : Char} (h : isWordChar c = true) : isBlank c = false := by
  apply Bool.eq_false_iff.mpr
  intro hblank
  have hnot := not_isWordChar_of_mem_blanks _ (mem_blanks hblank)
  rw [Char.ofNat_toNat, h] at hnot
  cases hnot

theorem isBlank_of_isBreak {c : Char} (h : isBreak c = true) : isBlank c = true := by
  simp [isBreak] at h
  simp [isBlank]
  omega

/-- A text without blanks is on one line. -/
theorem isBare_of_not_isBlank {s : List Char} (h : ∀ c ∈ s, isBlank c = false) : IsBare s := by
  intro c hc
  apply Bool.eq_false_iff.mpr
  intro hbreak
  have hblank := h c hc
  rw [isBlank_of_isBreak hbreak] at hblank
  cases hblank

/-! ## Reading digits -/

/-- What a digit is worth. -/
def digit (c : Char) : Nat := (digitValue? c).getD 0

/-- **The number that digits write.** -/
def decimal (s : List Char) : Nat := s.foldl (fun n c => 10 * n + digit c) 0

theorem digitValue?_of_isDigit {c : Char} (h : isDigit c = true) : digitValue? c = some (digit c) := by
  obtain ⟨d, hd⟩ := Option.isSome_iff_exists.mp h
  rw [digit, hd]
  rfl

theorem readDigits?_cons {c : Char} (h : isDigit c = true) (value : Nat) (after : Bool) (rest : List Char) :
    readDigits? value after (c :: rest) = readDigits? (10 * value + digit c) true rest := by
  have hunder : ¬ (c == '_') = true := by
    intro heq
    cases beq_iff_eq.mp heq
    exact absurd h (by decide)
  rw [readDigits?, if_neg hunder, digitValue?_of_isDigit h]

theorem readDigits?_digits {s : List Char} (h : ∀ c ∈ s, isDigit c = true) (value : Nat) :
    readDigits? value true s = some (s.foldl (fun n c => 10 * n + digit c) value) := by
  induction s generalizing value with
  | nil => rfl
  | cons c rest ih =>
    rw [readDigits?_cons (h c List.mem_cons_self), ih fun d hd => h d (List.mem_cons_of_mem c hd)]
    rfl

theorem trim_of_not_isBlank {s : List Char} (h : ∀ c ∈ s, isBlank c = false) : trim s = s := by
  have hdrop : ∀ t : List Char, (∀ c ∈ t, isBlank c = false) → t.dropWhile isBlank = t := by
    intro t ht
    cases t with
    | nil => rfl
    | cons c rest => exact List.dropWhile_cons_of_neg (Bool.eq_false_iff.mp (ht c List.mem_cons_self))
  rw [trim, trimStart, hdrop s h, trimEnd, dropEndWhile, hdrop s.reverse, List.reverse_reverse]
  intro c hc
  exact h c (List.mem_reverse.mp hc)

/-- **A number is read from any digits**, if there are some. -/
theorem readInt?_digits {s : List Char} (hne : s ≠ []) (h : ∀ c ∈ s, isDigit c = true) :
    readInt? s = some (decimal s : Int) := by
  cases s with
  | nil => exact absurd rfl hne
  | cons c rest =>
    have hc := h c List.mem_cons_self
    have hread : readDigits? 0 false (c :: rest) = some (decimal (c :: rest)) := by
      rw [readDigits?_cons hc, readDigits?_digits fun d hd => h d (List.mem_cons_of_mem c hd)]
      rfl
    rw [readInt?, trim_of_not_isBlank fun d hd => not_isBlank_of_isDigit (h d hd)]
    split
    · next heq =>
      cases heq
      exact absurd hc (by decide)
    · next heq =>
      cases heq
      exact absurd hc (by decide)
    · rw [hread]
      rfl

/-! ## Writing digits -/

theorem digitValue?_of_ascii {c : Char} (h : c.isDigit = true) : digitValue? c = some (c.toNat - 48) := by
  obtain ⟨hlow, hhigh⟩ := Char.isDigit_iff_toNat.mp h
  have hlow : 48 ≤ c.toNat := hlow
  have hhigh : c.toNat ≤ 57 := hhigh
  have hascii : c.toNat < 128 := by omega
  simp [digitValue?, hascii, hlow, hhigh]

theorem isDigit_of_mem_toDigits {n : Nat} {c : Char} (h : c ∈ Nat.toDigits 10 n) : isDigit c = true := by
  have hdigit : c.isDigit = true := Nat.isDigit_of_mem_toDigits (by decide) (by decide) h
  rw [isDigit, digitValue?_of_ascii hdigit]
  rfl

/-- **A number in decimal digits** gives itself back. -/
theorem decimal_toDigits (n : Nat) : decimal (Nat.toDigits 10 n) = n := by
  have hascii : ∀ (s : List Char) (value : Nat), (∀ c ∈ s, c.isDigit = true) →
      s.foldl (fun n c => 10 * n + digit c) value = Nat.ofDigitChars 10 s value := by
    intro s
    induction s with
    | nil => exact fun _ _ => Nat.ofDigitChars_nil.symm
    | cons c rest ih =>
      intro value h
      have hdigit : digit c = c.toNat - '0'.toNat := by
        rw [digit, digitValue?_of_ascii (h c List.mem_cons_self)]
        rfl
      rw [List.foldl_cons, ih _ fun d hd => h d (List.mem_cons_of_mem c hd), Nat.ofDigitChars_cons, hdigit]
  rw [decimal, hascii _ _ fun c => Nat.isDigit_of_mem_toDigits (by decide) (by decide), Nat.ofDigitChars_ten_toDigits]

end EditorService.Text
