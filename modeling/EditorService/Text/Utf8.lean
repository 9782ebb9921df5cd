/-!
# UTF-8 octets

Encoding is core's. Decoding comes in two forms. `decode?` refuses octets that are not UTF-8. `decodeLossy` puts the
replacement character in the place of each longest stretch of octets that starts a character and does not finish it.
-/

namespace EditorService.Text

/-- The octets of a text. -/
def encode (s : List Char) : List UInt8 := s.flatMap String.utf8EncodeChar

/-- How many octets must follow a first octet, the least and greatest second octet, and the bits it contributes. -/
def leadOf? (b : UInt8) : Option (Nat × UInt8 × UInt8 × Nat) :=
  if b ≤ 0x7F then some (0, 0x80, 0xBF, b.toNat)
  else if 0xC2 ≤ b && b ≤ 0xDF then some (1, 0x80, 0xBF, b.toNat - 0xC0)
  else if b == 0xE0 then some (2, 0xA0, 0xBF, 0)
  else if b == 0xED then some (2, 0x80, 0x9F, 0xD)
  else if 0xE1 ≤ b && b ≤ 0xEF then some (2, 0x80, 0xBF, b.toNat - 0xE0)
  else if b == 0xF0 then some (3, 0x90, 0xBF, 0)
  else if b == 0xF4 then some (3, 0x80, 0x8F, 4)
  else if 0xF1 ≤ b && b ≤ 0xF3 then some (3, 0x80, 0xBF, b.toNat - 0xF0)
  else none

/-- What has been read of a character: octets still owed, the bounds of the next one, and the bits so far. -/
structure Partial where
  owed : Nat
  low : UInt8
  high : UInt8
  bits : Nat

/-- What a first octet starts. -/
inductive Start where
  | done (c : Char)
  | more (p : Partial)
  | bad

/-- Reads a first octet. -/
def startOf (b : UInt8) : Start :=
  match leadOf? b with
  | none => .bad
  | some (0, _, _, bits) => .done (Char.ofNat bits)
  | some (n + 1, low, high, bits) => .more ⟨n + 1, low, high, bits⟩

/-- The character put in the place of octets that are not UTF-8. -/
def replacement : Char := Char.ofNat 0xFFFD

/-- Decodes octets, marking each faulty stretch. `none` in the answer is such a stretch. -/
def decodeMarked : Option Partial → List UInt8 → List (Option Char)
  | none, [] => []
  | some _, [] => [none]
  | none, b :: rest =>
    match startOf b with
    | .done c => some c :: decodeMarked none rest
    | .more p => decodeMarked (some p) rest
    | .bad => none :: decodeMarked none rest
  | some p, b :: rest =>
    if p.low ≤ b && b ≤ p.high then
      let bits := p.bits * 64 + (b.toNat - 0x80)
      if p.owed ≤ 1 then some (Char.ofNat bits) :: decodeMarked none rest
      else decodeMarked (some ⟨p.owed - 1, 0x80, 0xBF, bits⟩) rest
    else
      none :: match startOf b with
        | .done c => some c :: decodeMarked none rest
        | .more q => decodeMarked (some q) rest
        | .bad => none :: decodeMarked none rest

/-- **Decodes UTF-8, replacing what is faulty.** -/
def decodeLossy (bytes : List UInt8) : List Char := (decodeMarked none bytes).map (·.getD replacement)

/-- **Decodes UTF-8, refusing what is faulty.** -/
def decode? (bytes : List UInt8) : Option (List Char) := (decodeMarked none bytes).mapM id

end EditorService.Text
