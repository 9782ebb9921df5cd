import EditorService.Text.Pattern
import EditorService.Text.Number

/-!
# The notation of patterns

Patterns are written in the customary notation: `.` for any character, brackets for sets, a backslash before a
character that is meant as it stands or before the letter of a class, `*`, `+`, `?` and counts in braces after what is
repeated, `|` between alternatives, parentheses around groups, and `(?=`, `(?!`, `(?<=`, `(?<!` for tests. `parse?`
gives nothing for a text that is no pattern.
-/

namespace EditorService.Text.Pattern

/-- What a backslash and a letter stand for, outside a set. -/
def escapeOf? (c : Char) : Option Pattern :=
  match c with
  | 'd' => some (.set false [.digit false])
  | 'D' => some (.set false [.digit true])
  | 'w' => some (.set false [.word false])
  | 'W' => some (.set false [.word true])
  | 's' => some (.set false [.blank false])
  | 'S' => some (.set false [.blank true])
  | 'A' => some .start
  | 'Z' => some (.stop false)
  | 'b' => some (.boundary false)
  | 'B' => some (.boundary true)
  | 'n' => some (.char '\n')
  | 't' => some (.char '\t')
  | 'r' => some (.char '\r')
  | 'f' => some (.char (Char.ofNat 12))
  | 'v' => some (.char (Char.ofNat 11))
  | 'a' => some (.char (Char.ofNat 7))
  | c => if c.isAlphanum then none else some (.char c)

/-- What a backslash and a letter stand for inside a set. -/
def setEscapeOf? (c : Char) : Option SetItem :=
  match c with
  | 'd' => some (.digit false)
  | 'D' => some (.digit true)
  | 'w' => some (.word false)
  | 'W' => some (.word true)
  | 's' => some (.blank false)
  | 'S' => some (.blank true)
  | 'b' => some (.one (Char.ofNat 8))
  | c =>
    match escapeOf? c with
    | some (.char d) => some (.one d)
    | _ => none

/-- One member of a set, and the rest. -/
def setItem? : List Char → Option (SetItem × List Char)
  | '\\' :: c :: rest => (setEscapeOf? c).map fun i => (i, rest)
  | ['\\'] => none
  | c :: rest => some (.one c, rest)
  | [] => none

/-- The members of a set up to its closing bracket. A bracket in the first place is a member. -/
def setItems? : Nat → Bool → List Char → Option (List SetItem × List Char)
  | 0, _, _ => none
  | fuel + 1, first, s =>
    match first, s with
    | false, ']' :: rest => some ([], rest)
    | _, s => do
      let (item, rest) ← setItem? s
      match rest with
      | '-' :: ']' :: rest => return ([item, .one '-'], rest)
      | '-' :: rest =>
        let (last, rest) ← setItem? rest
        match item, last with
        | .one a, .one b =>
          if b < a then none
          let (items, rest) ← setItems? fuel false rest
          return (.span a b :: items, rest)
        | _, _ => none
      | rest =>
        let (items, rest) ← setItems? fuel false rest
        return (item :: items, rest)

/-- The counts of a repetition in braces, when they are that; the opening brace is gone. -/
def counts? (s : List Char) : Option ((Nat × Option Nat) × List Char) :=
  let low := s.takeWhile Char.isDigit
  let number (ds : List Char) : Nat := Nat.ofDigitChars 10 ds 0
  match s.dropWhile Char.isDigit with
  | '\x7d' :: rest => if low.isEmpty then none else some ((number low, some (number low)), rest)
  | ',' :: after =>
    let high := after.takeWhile Char.isDigit
    match after.dropWhile Char.isDigit with
    | '\x7d' :: rest => some ((number low, if high.isEmpty then none else some (number high)), rest)
    | _ => none
  | _ => none

/-- The repetition that is written here, if one is. -/
def repetition? (s : List Char) : Option ((Nat × Option Nat) × List Char) :=
  match s with
  | '*' :: rest => some ((0, none), rest)
  | '+' :: rest => some ((1, none), rest)
  | '?' :: rest => some ((0, some 1), rest)
  | '\x7b' :: rest => counts? rest
  | _ => none

/-- Whether something can be repeated: a test that takes no character cannot. -/
def repeatable : Pattern → Bool
  | .start => false
  | .stop _ => false
  | .boundary _ => false
  | _ => true

/-- Puts the repetitions that follow around what has just been read. -/
def withRepetition? (p : Pattern) (s : List Char) : Option (Pattern × List Char) :=
  match repetition? s with
  | none => some (p, s)
  | some ((least, most), rest) =>
    if !repeatable p || most.any (· < least) then none
    else
      let rest := match rest with
        | '?' :: rest => rest
        | '+' :: rest => rest
        | rest => rest
      match repetition? rest with
      | some _ => none
      | none => some (.repeated p least most, rest)

/-- What a group's opening says: how to wrap its content, and the rest. -/
def groupOpening? (s : List Char) : Option ((Pattern → Option Pattern) × List Char) :=
  match s with
  | '?' :: ':' :: rest => some (some, rest)
  | '?' :: '=' :: rest => some (fun p => some (.ahead false p), rest)
  | '?' :: '!' :: rest => some (fun p => some (.ahead true p), rest)
  | '?' :: '<' :: '=' :: rest => some (fun p => p.width?.map fun n => .behind false n p, rest)
  | '?' :: '<' :: '!' :: rest => some (fun p => p.width?.map fun n => .behind true n p, rest)
  | '?' :: 'P' :: '<' :: rest =>
    let name := rest.takeWhile (· != '>')
    match name, rest.dropWhile (· != '>') with
    | c :: _, _ :: rest => if c.isDigit || !(name.all isWordChar) then none else some (some, rest)
    | _, _ => none
  | '?' :: _ => none
  | rest => some (some, rest)

mutual

/-- Reads alternatives up to a closing parenthesis or the end. -/
def readAlternatives? : Nat → List Char → Option (Pattern × List Char)
  | 0, _ => none
  | fuel + 1, s => do
    let (p, rest) ← readSequence? fuel s
    match rest with
    | '|' :: rest =>
      let (q, rest) ← readAlternatives? fuel rest
      return (.alt p q, rest)
    | rest => return (p, rest)

/-- Reads a sequence up to a bar, a closing parenthesis or the end. -/
def readSequence? : Nat → List Char → Option (Pattern × List Char)
  | 0, _ => none
  | fuel + 1, s =>
    match s with
    | [] => some (.empty, [])
    | '|' :: _ => some (.empty, s)
    | ')' :: _ => some (.empty, s)
    | _ => do
      let (p, rest) ← readAtom? fuel s
      let (p, rest) ← withRepetition? p rest
      let (q, rest) ← readSequence? fuel rest
      return (.seq p q, rest)

/-- Reads one item. -/
def readAtom? : Nat → List Char → Option (Pattern × List Char)
  | 0, _ => none
  | fuel + 1, s =>
    match s with
    | '(' :: rest => do
      let (wrap, rest) ← groupOpening? rest
      let (p, rest) ← readAlternatives? fuel rest
      match rest with
      | ')' :: rest => return (← wrap p, rest)
      | _ => none
    | '[' :: '^' :: rest => (setItems? fuel true rest).map fun r => (.set true r.1, r.2)
    | '[' :: rest => (setItems? fuel true rest).map fun r => (.set false r.1, r.2)
    | '.' :: rest => some (.any, rest)
    | '^' :: rest => some (.start, rest)
    | '$' :: rest => some (.stop true, rest)
    | '\\' :: c :: rest => (escapeOf? c).map fun p => (p, rest)
    | ['\\'] => none
    | c :: rest =>
      if c == '*' || c == '+' || c == '?' || (c == '\x7b' && (counts? rest).isSome) then none
      else some (.char c, rest)
    | [] => none

end

/-- **Reads a text that is a pattern.** -/
def parse? (s : List Char) : Option Pattern :=
  match readAlternatives? (3 * s.length + 3) s with
  | some (p, []) => some p
  | _ => none

end EditorService.Text.Pattern
