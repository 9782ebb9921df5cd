import EditorService.Text.Blank
import EditorService.Text.Digit

/-!
# Reading whole numbers

A whole number is written with an optional sign and decimal digits of any script; single underscores may stand
between digits and blanks around the whole. `readInt?` accepts exactly that.
-/

namespace EditorService.Text

/-- Reads digits with single underscores between them. `after` says whether the character before was a digit. -/
def readDigits? (value : Nat) (after : Bool) : List Char → Option Nat
  | [] => if after then some value else none
  | c :: rest =>
    if c == '_' then if after then readDigits? value false rest else none
    else match digitValue? c with
      | some d => readDigits? (10 * value + d) true rest
      | none => none

/-- **Reads a whole number.** -/
def readInt? (s : List Char) : Option Int :=
  match trim s with
  | '-' :: rest => (readDigits? 0 false rest).map fun n => -(n : Int)
  | '+' :: rest => (readDigits? 0 false rest).map fun n => (n : Int)
  | rest => (readDigits? 0 false rest).map fun n => (n : Int)

/-- The digits of `n` in base sixteen, small letters, at least `width` of them. -/
def hexDigits (width n : Nat) : List Char :=
  let digits := Nat.toDigits 16 n
  List.replicate (width - digits.length) '0' ++ digits

/-- The value of a hexadecimal digit. -/
def hexValue? (c : Char) : Option Nat :=
  if '0' ≤ c && c ≤ '9' then some (c.toNat - 48)
  else if 'a' ≤ c && c ≤ 'f' then some (c.toNat - 87)
  else if 'A' ≤ c && c ≤ 'F' then some (c.toNat - 55)
  else none

end EditorService.Text
