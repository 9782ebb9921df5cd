import EditorService.Value
import EditorService.Text.Number

/-!
# The notation of values

Values are exchanged in JSON. `parse?` reads a text that is one value, with blanks around it; a key that is repeated
keeps its first place and its last value. Whole numbers are the only numbers. `render` writes a value on one line;
`renderIndented` writes one item a line, keys in order, each level one blank further in. Both write ASCII only.
-/

namespace EditorService.Value

/-! ## Writing -/

/-- A code unit of sixteen bits as an escape. -/
def escapeUnit (n : Nat) : List Char := ['\\', 'u'] ++ Text.hexDigits 4 n

/-- One character between the quotes of a JSON text. -/
def escapeChar (c : Char) : List Char :=
  if c == '"' then ['\\', '"']
  else if c == '\\' then ['\\', '\\']
  else if c == '\n' then ['\\', 'n']
  else if c == '\r' then ['\\', 'r']
  else if c == '\t' then ['\\', 't']
  else if c.toNat == 8 then ['\\', 'b']
  else if c.toNat == 12 then ['\\', 'f']
  else if 32 ≤ c.toNat && c.toNat < 127 then [c]
  else if c.toNat < 0x10000 then escapeUnit c.toNat
  else
    let n := c.toNat - 0x10000
    escapeUnit (0xD800 + n / 0x400) ++ escapeUnit (0xDC00 + n % 0x400)

/-- A text between double quotes. -/
def renderText (s : String) : String := String.ofList ('"' :: s.toList.flatMap escapeChar ++ ['"'])

mutual

/-- **A value on one line.** -/
def render : Value → String
  | .null => "null"
  | .bool true => "true"
  | .bool false => "false"
  | .int n => toString n
  | .str s => renderText s
  | .list items => "[" ++ renderItems items ++ "]"
  | .dict entries => "\x7b" ++ renderEntries entries ++ "\x7d"

/-- The items of a list on one line. -/
def renderItems : List Value → String
  | [] => ""
  | [v] => render v
  | v :: next :: rest => render v ++ ", " ++ renderItems (next :: rest)

/-- The entries of a dictionary on one line. -/
def renderEntries : List (String × Value) → String
  | [] => ""
  | [(k, v)] => renderText k ++ ": " ++ render v
  | (k, v) :: next :: rest => renderText k ++ ": " ++ render v ++ ", " ++ renderEntries (next :: rest)

end

/-- A new line, `level` blanks in. -/
def indent (level : Nat) : String := "\n" ++ String.ofList (List.replicate level ' ')

/-- Puts an entry into its place among entries that are in order of their keys. -/
def insertEntry {α : Type} (e : String × α) : List (String × α) → List (String × α)
  | [] => [e]
  | f :: rest => if e.1 < f.1 then e :: f :: rest else f :: insertEntry e rest

/-- Entries in order of their keys. -/
def sortEntries {α : Type} (entries : List (String × α)) : List (String × α) := entries.foldr insertEntry []

/-- What the pieces of a list or dictionary look like inside their brackets. -/
def renderBlock (opening closing : String) (level : Nat) (pieces : List String) : String :=
  if pieces.isEmpty then opening ++ closing
  else opening ++ indent (level + 1) ++ String.intercalate ("," ++ indent (level + 1)) pieces ++ indent level ++ closing

mutual

/-- **A value with one item a line**, at a depth of `level`. -/
def renderIndented (level : Nat) : Value → String
  | .null => "null"
  | .bool true => "true"
  | .bool false => "false"
  | .int n => toString n
  | .str s => renderText s
  | .list items => renderBlock "[" "]" level (indentedItems (level + 1) items)
  | .dict entries =>
    renderBlock "\x7b" "\x7d" level
      ((sortEntries (indentedEntries (level + 1) entries)).map fun e => renderText e.1 ++ ": " ++ e.2)

/-- The items of a list, each rendered. -/
def indentedItems (level : Nat) : List Value → List String
  | [] => []
  | v :: rest => renderIndented level v :: indentedItems level rest

/-- The entries of a dictionary, each value rendered. -/
def indentedEntries (level : Nat) : List (String × Value) → List (String × String)
  | [] => []
  | (k, v) :: rest => (k, renderIndented level v) :: indentedEntries level rest

end

/-! ## Reading -/

/-- Drops the blanks that may stand between the parts of a value. -/
def skipBlanks (s : List Char) : List Char := s.dropWhile fun c => c == ' ' || c == '\t' || c == '\n' || c == '\r'

/-- The value of four hexadecimal digits. -/
def unit? (a b c d : Char) : Option Nat := do
  let a ← Text.hexValue? a
  let b ← Text.hexValue? b
  let c ← Text.hexValue? c
  let d ← Text.hexValue? d
  return ((a * 16 + b) * 16 + c) * 16 + d

/-- What an escape of one letter stands for. -/
def escapeOf? (c : Char) : Option Char :=
  if c == '"' || c == '\\' || c == '/' then some c
  else if c == 'b' then some (Char.ofNat 8)
  else if c == 'f' then some (Char.ofNat 12)
  else if c == 'n' then some '\n'
  else if c == 'r' then some '\r'
  else if c == 't' then some '\t'
  else none

/-- The second half of a pair of code units, with its escape, when it stands here. -/
def lowUnit? : List Char → Option (Nat × List Char)
  | '\\' :: 'u' :: a :: b :: c :: d :: rest =>
    match unit? a b c d with
    | some n => if 0xDC00 ≤ n && n ≤ 0xDFFF then some (n, rest) else none
    | none => none
  | _ => none

/-- Reads what stands between quotes; the opening quote is gone. Each step takes at least one character. -/
def readText? : Nat → List Char → Option (List Char × List Char)
  | 0, _ => none
  | _ + 1, [] => none
  | _ + 1, '"' :: rest => some ([], rest)
  | fuel + 1, '\\' :: 'u' :: a :: b :: c :: d :: rest => do
    let n ← unit? a b c d
    if 0xD800 ≤ n && n ≤ 0xDBFF then
      match lowUnit? rest with
      | some (low, rest) =>
        let (s, rest) ← readText? fuel rest
        return (Char.ofNat (0x10000 + (n - 0xD800) * 0x400 + (low - 0xDC00)) :: s, rest)
      | none =>
        let (s, rest) ← readText? fuel rest
        return (Char.ofNat 0xFFFD :: s, rest)
    else if 0xDC00 ≤ n && n ≤ 0xDFFF then
      let (s, rest) ← readText? fuel rest
      return (Char.ofNat 0xFFFD :: s, rest)
    else
      let (s, rest) ← readText? fuel rest
      return (Char.ofNat n :: s, rest)
  | fuel + 1, '\\' :: e :: rest => do
    let c ← escapeOf? e
    let (s, rest) ← readText? fuel rest
    return (c :: s, rest)
  | fuel + 1, c :: rest =>
    if c.toNat < 32 then none
    else do
      let (s, rest) ← readText? fuel rest
      return (c :: s, rest)

/-- Reads a whole number: no leading zeros, no fraction, no exponent. -/
def readNumber? (s : List Char) : Option (Int × List Char) :=
  let (negative, s) := match s with
    | '-' :: rest => (true, rest)
    | _ => (false, s)
  let digits := s.takeWhile Char.isDigit
  let rest := s.dropWhile Char.isDigit
  let fraction := match rest with
    | '.' :: d :: _ => d.isDigit
    | 'e' :: d :: _ => d.isDigit
    | 'E' :: d :: _ => d.isDigit
    | _ => false
  match digits with
  | [] => none
  | '0' :: _ :: _ => some (0, digits.drop 1 ++ rest)
  | _ =>
    if fraction then none
    else
      let n : Int := (Nat.ofDigitChars 10 digits 0 : Nat)
      some (if negative then -n else n, rest)

mutual

/-- Reads one value. The fuel bounds the depth and the number of items together. -/
def readValue? : Nat → List Char → Option (Value × List Char)
  | 0, _ => none
  | fuel + 1, s =>
    match s with
    | '"' :: rest => (readText? fuel rest).map fun r => (.str (String.ofList r.1), r.2)
    | '[' :: rest =>
      match skipBlanks rest with
      | ']' :: rest => some (.list [], rest)
      | rest => (readItems? fuel rest).map fun r => (.list r.1, r.2)
    | '\x7b' :: rest =>
      match skipBlanks rest with
      | '\x7d' :: rest => some (.dict [], rest)
      | rest => (readEntries? fuel rest).map fun r => (.dict (Table.ofList r.1), r.2)
    | 't' :: 'r' :: 'u' :: 'e' :: rest => some (.bool true, rest)
    | 'f' :: 'a' :: 'l' :: 's' :: 'e' :: rest => some (.bool false, rest)
    | 'n' :: 'u' :: 'l' :: 'l' :: rest => some (.null, rest)
    | s => (readNumber? s).map fun r => (.int r.1, r.2)

/-- Reads the items of a list up to its closing bracket. -/
def readItems? : Nat → List Char → Option (List Value × List Char)
  | 0, _ => none
  | fuel + 1, s => do
    let (v, rest) ← readValue? fuel s
    match skipBlanks rest with
    | ',' :: rest =>
      let (vs, rest) ← readItems? fuel (skipBlanks rest)
      return (v :: vs, rest)
    | ']' :: rest => return ([v], rest)
    | _ => none

/-- Reads the entries of a dictionary up to its closing brace. -/
def readEntries? : Nat → List Char → Option (List (String × Value) × List Char)
  | 0, _ => none
  | fuel + 1, s =>
    match s with
    | '"' :: rest => do
      let (k, rest) ← readText? fuel rest
      match skipBlanks rest with
      | ':' :: rest =>
        let (v, rest) ← readValue? fuel (skipBlanks rest)
        match skipBlanks rest with
        | ',' :: rest =>
          let (es, rest) ← readEntries? fuel (skipBlanks rest)
          return ((String.ofList k, v) :: es, rest)
        | '\x7d' :: rest => return ([(String.ofList k, v)], rest)
        | _ => none
      | _ => none
    | _ => none

end

/-- **Reads a text that is one value.** The fuel exceeds the length, and every step takes a character. -/
def parse? (s : String) : Option Value :=
  let cs := s.toList
  match readValue? (2 * cs.length + 2) (skipBlanks cs) with
  | some (v, rest) => if (skipBlanks rest).isEmpty then some v else none
  | none => none

end EditorService.Value
