import EditorService.Uri

/-!
# Parts of a URI, encoded and decoded

An encoded part is plain ASCII. The characters that a URI is cut at do not stand in it, apart from the separator of
paths, which is kept. The text comes back from it whole: what an escape stands for is an octet, and the octets are the
UTF-8 of the text.

**The law** (`decode_encode`): decoding gives back every text that was encoded. Decoding is lossy in general, because it
replaces octets that are not UTF-8. So the law rests on the one for octets (`Text.decodeLossy_encode`): the octets of a
character are never refused.
-/

namespace EditorService

namespace Text

/-! ## Octets -/

theorem leadOf?_one : ∀ n < 128, leadOf? (UInt8.ofNat n) = some (0, 0x80, 0xBF, n) := by decide

theorem leadOf?_two {n : Nat} (hlow : 2 ≤ n) (hhigh : n < 32) :
    leadOf? (UInt8.ofNat (n + 192)) = some (1, 0x80, 0xBF, n) := by
  have hall : ∀ n < 32, n < 2 ∨ leadOf? (UInt8.ofNat (n + 192)) = some (1, 0x80, 0xBF, n) := by decide
  exact (hall n hhigh).resolve_left (Nat.not_lt.mpr hlow)

theorem leadOf?_three : ∀ n < 16, leadOf? (UInt8.ofNat (n + 224)) =
    some (2, if n = 0 then 0xA0 else 0x80, if n = 13 then 0x9F else 0xBF, n) := by decide

theorem leadOf?_four : ∀ n < 5, leadOf? (UInt8.ofNat (n + 240)) =
    some (3, if n = 0 then 0x90 else 0x80, if n = 4 then 0x8F else 0xBF, n) := by decide

/-- An octet that continues a character, where one is owed and this one is within bounds. -/
theorem decodeMarked_tail {p : Partial} {x : Nat} (hx : x < 64) (hlow : p.low.toNat ≤ x + 128)
    (hhigh : x + 128 ≤ p.high.toNat) (rest : List UInt8) :
    decodeMarked (some p) (UInt8.ofNat (x + 128) :: rest) =
      if p.owed ≤ 1 then some (Char.ofNat (p.bits * 64 + x)) :: decodeMarked none rest
      else decodeMarked (some ⟨p.owed - 1, 0x80, 0xBF, p.bits * 64 + x⟩) rest := by
  have hoctet : (UInt8.ofNat (x + 128)).toNat = x + 128 := UInt8.toNat_ofNat_of_lt' (by show x + 128 < 256; omega)
  have hbounds : (decide (p.low ≤ UInt8.ofNat (x + 128)) && decide (UInt8.ofNat (x + 128) ≤ p.high)) = true := by
    simp only [UInt8.le_iff_toNat_le, hoctet, hlow, hhigh, decide_true, Bool.and_self]
  have hbits : x + 128 - 0x80 = x := by omega
  rw [decodeMarked, if_pos hbounds, hoctet, hbits]

/-- An octet that continues a character and is not its last one. -/
theorem decodeMarked_next {n bits x : Nat} {low high : UInt8} (hx : x < 64) (hlow : low.toNat ≤ x + 128)
    (hhigh : x + 128 ≤ high.toNat) (rest : List UInt8) :
    decodeMarked (some ⟨n + 2, low, high, bits⟩) (UInt8.ofNat (x + 128) :: rest) =
      decodeMarked (some ⟨n + 1, 0x80, 0xBF, bits * 64 + x⟩) rest :=
  decodeMarked_tail hx hlow hhigh rest

/-- The last octet of a character. -/
theorem decodeMarked_last {bits x : Nat} (hx : x < 64) (rest : List UInt8) :
    decodeMarked (some ⟨1, 0x80, 0xBF, bits⟩) (UInt8.ofNat (x + 128) :: rest) =
      some (Char.ofNat (bits * 64 + x)) :: decodeMarked none rest := by
  refine decodeMarked_tail (p := ⟨1, 0x80, 0xBF, bits⟩) hx ?_ ?_ rest
  · exact Nat.le_add_left 128 x
  · show x + 128 ≤ 191
    omega

/-- **The octets of a character are read as that character**, whatever follows. The cases are the four lengths. The
second octet is within its bounds because a character is not written longer than need be, is no surrogate, and is not
beyond the last one. -/
theorem decodeMarked_encodeChar (c : Char) (rest : List UInt8) :
    decodeMarked none (String.utf8EncodeChar c ++ rest) = some c :: decodeMarked none rest := by
  have hvalid : c.val.toNat < 0xD800 ∨ 0xDFFF < c.val.toNat ∧ c.val.toNat < 0x110000 := c.valid
  have hchar : Char.ofNat c.val.toNat = c := Char.ofNat_toNat c
  unfold String.utf8EncodeChar
  generalize c.val.toNat = v at hvalid hchar
  extract_lets
  split
  · rw [List.singleton_append, decodeMarked, startOf, leadOf?_one v (by omega)]
    simp only [hchar]
  · split
    · have hback : v / 64 % 32 * 64 + v % 64 = v := by omega
      rw [List.cons_append, List.singleton_append, decodeMarked, startOf,
        leadOf?_two (n := v / 64 % 32) (by omega) (by omega)]
      simp only [Nat.zero_add]
      rw [decodeMarked_last (by omega), hback, hchar]
    · split
      · have hback : (v / 4096 % 16 * 64 + v / 64 % 64) * 64 + v % 64 = v := by omega
        rw [List.cons_append, List.cons_append, List.singleton_append, decodeMarked, startOf,
          leadOf?_three (v / 4096 % 16) (by omega)]
        simp only
        rw [decodeMarked_next (by omega), decodeMarked_last (by omega), hback, hchar]
        · split
          · simp
            omega
          · simp
        · split <;> simp <;> omega
      · have hback : ((v / 262144 % 8 * 64 + v / 4096 % 64) * 64 + v / 64 % 64) * 64 + v % 64 = v := by omega
        rw [List.cons_append, List.cons_append, List.cons_append, List.singleton_append, decodeMarked, startOf,
          leadOf?_four (v / 262144 % 8) (by omega)]
        simp only
        rw [decodeMarked_next (by omega), decodeMarked_next (by omega), decodeMarked_last (by omega), hback, hchar]
        · simp
        · simp
          omega
        · split
          · simp
            omega
          · simp
        · split <;> simp <;> omega

theorem decodeMarked_encode (s : List Char) : decodeMarked none (encode s) = s.map some := by
  induction s with
  | nil => rfl
  | cons c rest ih =>
    show decodeMarked none (String.utf8EncodeChar c ++ encode rest) = _
    rw [decodeMarked_encodeChar, ih, List.map_cons]

/-- **A text read from its own octets**: nothing is lost, and nothing replaced. -/
theorem decodeLossy_encode (s : List Char) : decodeLossy (encode s) = s := by
  rw [decodeLossy, decodeMarked_encode, List.map_map]
  exact List.map_id s

theorem utf8EncodeChar_ascii {c : Char} (h : c.toNat < 128) : String.utf8EncodeChar c = [UInt8.ofNat c.toNat] := by
  have hle : c.val.toNat ≤ 127 := Nat.le_of_lt_succ h
  simp only [String.utf8EncodeChar, hle, if_true]
  rfl

end Text

namespace Uri

/-! ## The characters of an encoded part -/

/-- **The characters that an encoded part may have**: those that are kept, and the sign of an escape. -/
def isWritten (c : Char) : Bool := isKept c || c == '%'

/-- The characters at which a URI is cut, or that are taken out of it. The separator of paths is not among them. -/
def delimiters : List Char := ['\t', '\n', '\r', '#', ':', '?', '[', ']']

theorem toNat_lt_of_isAlphanum {c : Char} (h : c.isAlphanum = true) : c.toNat < 128 := by
  change ((decide (c.val ≥ 'A'.val ∧ c.val ≤ 'Z'.val) || (c.val ≥ 'a'.val && c.val ≤ 'z'.val)) ||
    (c.val ≥ '0'.val && c.val ≤ '9'.val)) = true at h
  simp only [Bool.or_eq_true, Bool.and_eq_true, decide_eq_true_eq, ge_iff_le, UInt32.le_iff_toNat_le, Char.toNat_val,
    Char.reduceToNat] at h
  omega

theorem toNat_lt_of_isWritten {c : Char} (h : isWritten c = true) : c.toNat < 128 := by
  simp only [isWritten, isKept, Bool.or_eq_true, beq_iff_eq] at h
  rcases h with (((((h | rfl) | rfl) | rfl) | rfl) | rfl) | rfl
  · exact toNat_lt_of_isAlphanum h
  all_goals decide

theorem ne_of_isWritten {c d : Char} (h : isWritten c = true) (hd : d ∈ delimiters) : c ≠ d := by
  rintro rfl
  have hnone : delimiters.all (fun d => !isWritten d) = true := by decide
  have hc := List.all_eq_true.mp hnone c hd
  rw [h] at hc
  exact Bool.false_ne_true hc

/-- What an escape is made of is written, and is no separator. -/
theorem isWritten_of_mem_escape {b : UInt8} {c : Char} (h : c ∈ escapeOctet b) : isWritten c = true ∧ c ≠ '/' := by
  have hb : b.toNat < 256 := b.toNat_lt
  have hdigit : ∀ n < 16, isWritten (hexDigit n) = true ∧ hexDigit n ≠ '/' := by decide
  simp only [escapeOctet, List.mem_cons, List.not_mem_nil, or_false] at h
  rcases h with rfl | rfl | rfl
  · decide
  · exact hdigit _ (by omega)
  · exact hdigit _ (by omega)

/-- **An encoded part is written with the characters that a part may have**, and has a separator only where the text has
one. -/
theorem isWritten_of_mem_encode {c : Char} {s : List Char} (h : c ∈ encode s) :
    isWritten c = true ∧ (c = '/' → '/' ∈ s) := by
  obtain ⟨d, hd, hc⟩ := List.mem_flatMap.mp h
  unfold encodeChar at hc
  split at hc
  · next hkept =>
    cases List.mem_singleton.mp hc
    rw [isWritten, hkept, Bool.true_or]
    exact ⟨rfl, fun hslash => hslash ▸ hd⟩
  · obtain ⟨b, -, hb⟩ := List.mem_flatMap.mp hc
    obtain ⟨hwritten, hslash⟩ := isWritten_of_mem_escape hb
    exact ⟨hwritten, fun heq => absurd heq hslash⟩

/-! ## Escapes -/

theorem hexValue?_hexDigit : ∀ n < 16, Text.hexValue? (hexDigit n) = some n := by decide

theorem octets_escapeOctet (b : UInt8) (rest : List Char) : octets (escapeOctet b ++ rest) = b :: octets rest := by
  have hb : b.toNat < 256 := b.toNat_lt
  have hback : b.toNat / 16 * 16 + b.toNat % 16 = b.toNat := by omega
  simp only [escapeOctet, List.cons_append, List.nil_append]
  rw [octets, hexValue?_hexDigit _ (by omega), hexValue?_hexDigit _ (by omega)]
  simp only [hback, UInt8.ofNat_toNat]

theorem octets_escapes (bytes : List UInt8) (rest : List Char) :
    octets (bytes.flatMap escapeOctet ++ rest) = bytes ++ octets rest := by
  induction bytes with
  | nil => rfl
  | cons b bytes ih => rw [List.flatMap_cons, List.append_assoc, octets_escapeOctet, ih, List.cons_append]

/-- A character of ASCII that does not announce an escape stands for its own octet. -/
theorem octets_plain {c : Char} (hascii : c.toNat < 128) (h : c ≠ '%') (rest : List Char) :
    octets (c :: rest) = String.utf8EncodeChar c ++ octets rest := by
  rw [Text.utf8EncodeChar_ascii hascii, octets]
  · rfl
  · rintro a b tail rfl -
    exact h rfl

theorem octets_encodeChar (c : Char) (rest : List Char) :
    octets (encodeChar c ++ rest) = String.utf8EncodeChar c ++ octets rest := by
  unfold encodeChar
  split
  · next hkept =>
    have hwritten : isWritten c = true := by rw [isWritten, hkept, Bool.true_or]
    refine octets_plain (toNat_lt_of_isWritten hwritten) ?_ rest
    rintro rfl
    exact absurd hkept (by decide)
  · have hone : Text.encode [c] = String.utf8EncodeChar c := List.flatMap_singleton _ c
    rw [hone, octets_escapes]

/-- **The octets of an encoded part are those of the text.** -/
theorem octets_encode (s : List Char) : octets (encode s) = Text.encode s := by
  induction s with
  | nil => rfl
  | cons c rest ih =>
    show octets (encodeChar c ++ encode rest) = String.utf8EncodeChar c ++ Text.encode rest
    rw [octets_encodeChar, ih]

/-- Plain ASCII is one run, and so it is decoded at once. -/
theorem decodeAfter_ascii (run : List Char) {s : List Char} (h : ∀ c ∈ s, c.toNat < 128) :
    decodeAfter run s = Text.decodeLossy (octets (run.reverse ++ s)) := by
  induction s generalizing run with
  | nil => rw [decodeAfter, List.append_nil]
  | cons c rest ih =>
    rw [decodeAfter, if_pos (h c List.mem_cons_self), ih (c :: run) fun d hd => h d (List.mem_cons_of_mem c hd),
      List.reverse_cons, List.append_assoc, List.singleton_append]

/-- A text in plain ASCII whose octets are those of another text is decoded to it. -/
theorem decode_of_octets {s t : List Char} (h : ∀ c ∈ s, c.toNat < 128) (hoctets : octets s = Text.encode t) :
    decode s = t := by
  rw [decode, decodeAfter_ascii [] h, List.reverse_nil, List.nil_append, hoctets, Text.decodeLossy_encode]

/-- **Decoding gives back what was encoded.** -/
theorem decode_encode (s : List Char) : decode (encode s) = s :=
  decode_of_octets (fun _ hc => toNat_lt_of_isWritten (isWritten_of_mem_encode hc).1) (octets_encode s)

end Uri

end EditorService
