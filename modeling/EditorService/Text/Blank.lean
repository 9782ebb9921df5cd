/-!
# Blank characters and trimming

The blank characters are those with the Unicode property `White_Space`, together with the four information
separators U+001C to U+001F. Trimming removes them from the ends of a text and never looks inside it.
-/

namespace EditorService.Text

/-- **A blank character.** Tab to carriage return, the information separators, the space, and the blanks of the
higher planes. -/
def isBlank (c : Char) : Bool :=
  let n := c.toNat
  (9 ≤ n && n ≤ 13) || (28 ≤ n && n ≤ 32) || n == 0x85 || n == 0xA0 || n == 0x1680 ||
  (0x2000 ≤ n && n ≤ 0x200A) || n == 0x2028 || n == 0x2029 || n == 0x202F || n == 0x205F || n == 0x3000

/-- Drops what satisfies `p` from the end of a text. -/
def dropEndWhile (p : Char → Bool) (s : List Char) : List Char := (s.reverse.dropWhile p).reverse

/-- Drops leading blanks. -/
def trimStart (s : List Char) : List Char := s.dropWhile isBlank

/-- Drops trailing blanks. -/
def trimEnd (s : List Char) : List Char := dropEndWhile isBlank s

/-- Drops blanks at both ends. -/
def trim (s : List Char) : List Char := trimEnd (trimStart s)

/-- Trimming leaves something of a text that does not start with a blank. -/
theorem trim_cons_ne_nil {c : Char} (hc : isBlank c = false) (rest : List Char) : trim (c :: rest) ≠ [] := by
  have hstart : trimStart (c :: rest) = c :: rest := by simp [trimStart, hc]
  rw [trim, hstart, trimEnd, dropEndWhile, List.reverse_cons, List.dropWhile_append]
  split
  · simp [hc]
  · simp

/-- Blanks at both ends of a `String` dropped. -/
def trimmed (s : String) : String := String.ofList (trim s.toList)

/-- Puts a character in front of the first word; `new` says whether it starts one. -/
def consWord (new : Bool) (c : Char) : List (List Char) → List (List Char)
  | [] => [[c]]
  | word :: rest => if new then [c] :: word :: rest else (c :: word) :: rest

/-- **The words of a text**: what stands between blanks. -/
def words : List Char → List (List Char)
  | [] => []
  | c :: rest => if isBlank c then words rest else consWord (rest.head?.all isBlank) c (words rest)

end EditorService.Text
