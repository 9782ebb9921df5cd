import EditorService.Value.Json
import Mathlib.Tactic.SplitIfs

/-!
# Values, written and read back

A dictionary of simple values (`Simple`: nothing, truth values and texts) is written with one entry a line, the entries in
order of their keys, and is read back as it was.

* **Characters** (`Escape`): what a character may stand as between quotes. Every case is read in one step, whatever
  follows, so a text is read back up to its closing quote (`readText?_escaped`).
* **Entries** (`readEntries?_blockText`): the fuel exceeds the length of what is read, and an entry takes one unit of it.
* **Order** (`sortEntries_perm`, `sortEntries_map`): entries are moved, and their values do not count.

**The law** (`parse?_renderIndented`): reading a dictionary that was written gives its entries in order of their keys.
-/

namespace EditorService

namespace Text

/-- Digits of a fixed width: the last one, and the ones before it. -/
theorem hexDigits_succ {width : Nat} (hwidth : 0 < width) (n : Nat) :
    hexDigits (width + 1) n = hexDigits width (n / 16) ++ [Nat.digitChar (n % 16)] := by
  simp only [hexDigits]
  by_cases hn : n < 16
  · obtain ⟨more, rfl⟩ := Nat.exists_eq_add_one.mpr hwidth
    have hzero : n / 16 = 0 := Nat.div_eq_of_lt hn
    rw [Nat.toDigits_of_lt_base hn, hzero, Nat.mod_eq_of_lt hn, Nat.toDigits_of_lt_base (by omega)]
    simp only [List.length_singleton, Nat.add_sub_cancel, List.replicate_succ']
    rfl
  · rw [Nat.toDigits_of_base_le (by omega) (by omega)]
    simp only [List.length_append, List.length_singleton, Nat.add_sub_add_right, List.append_assoc]

theorem hexValue?_digitChar : ∀ n < 16, hexValue? (Nat.digitChar n) = some n := by decide

end Text

namespace Value

/-! ## Texts -/

/-- **The escape of a code unit** has four digits, which give it back. -/
theorem exists_escapeUnit {n : Nat} (h : n < 0x10000) :
    ∃ a b c d, escapeUnit n = ['\\', 'u', a, b, c, d] ∧ unit? a b c d = some n := by
  have hdigits : Text.hexDigits 4 n = [Nat.digitChar (n / 16 / 16 / 16), Nat.digitChar (n / 16 / 16 % 16),
      Nat.digitChar (n / 16 % 16), Nat.digitChar (n % 16)] := by
    have hfirst : Text.hexDigits 1 (n / 16 / 16 / 16) = [Nat.digitChar (n / 16 / 16 / 16)] := by
      rw [Text.hexDigits, Nat.toDigits_of_lt_base (by omega)]
      rfl
    rw [Text.hexDigits_succ (by omega), Text.hexDigits_succ (by omega), Text.hexDigits_succ (by omega), hfirst]
    rfl
  refine ⟨_, _, _, _, congrArg ('\\' :: 'u' :: ·) hdigits, ?_⟩
  rw [unit?, Text.hexValue?_digitChar _ (by omega), Text.hexValue?_digitChar _ (by omega),
    Text.hexValue?_digitChar _ (by omega), Text.hexValue?_digitChar _ (by omega)]
  simp only [Option.bind_eq_bind, Option.bind_some, Option.pure_def, Option.some.injEq]
  omega

/-- **How a character stands between quotes**: by an escape of one letter, by itself, or by one or two code units. A
character that is one code unit is none of a pair. -/
inductive Escape (c : Char) : List Char → Prop
  | letter {e : Char} (he : e ≠ 'u') (hc : escapeOf? e = some c) : Escape c ['\\', e]
  | plain (hquote : c ≠ '"') (hslash : c ≠ '\\') (hlow : 32 ≤ c.toNat) : Escape c [c]
  | unit (hrange : c.toNat < 0xD800 ∨ 0xDFFF < c.toNat) (hc : c.toNat < 0x10000) : Escape c (escapeUnit c.toNat)
  | pair {high low : Nat} (hhigh : 0xD800 ≤ high ∧ high ≤ 0xDBFF) (hlow : 0xDC00 ≤ low ∧ low ≤ 0xDFFF)
    (hc : 0x10000 + (high - 0xD800) * 0x400 + (low - 0xDC00) = c.toNat) : Escape c (escapeUnit high ++ escapeUnit low)

theorem escape_escapeChar (c : Char) : Escape c (escapeChar c) := by
  have hvalid : c.toNat < 0xD800 ∨ 0xDFFF < c.toNat ∧ c.toNat < 0x110000 := c.valid
  unfold escapeChar
  split_ifs with hquote hslash hfeed hreturn htab hback hpage hshown hunit
  · exact .letter (by decide) (by rw [beq_iff_eq.mp hquote]; rfl)
  · exact .letter (by decide) (by rw [beq_iff_eq.mp hslash]; rfl)
  · exact .letter (by decide) (by rw [beq_iff_eq.mp hfeed]; rfl)
  · exact .letter (by decide) (by rw [beq_iff_eq.mp hreturn]; rfl)
  · exact .letter (by decide) (by rw [beq_iff_eq.mp htab]; rfl)
  · exact .letter (by decide) (by rw [← Char.ofNat_toNat c, beq_iff_eq.mp hback]; rfl)
  · exact .letter (by decide) (by rw [← Char.ofNat_toNat c, beq_iff_eq.mp hpage]; rfl)
  · simp only [Bool.and_eq_true, decide_eq_true_eq] at hshown
    exact .plain (by simpa using hquote) (by simpa using hslash) hshown.1
  · exact .unit (hvalid.imp_right And.left) hunit
  · exact .pair ⟨by omega, by omega⟩ ⟨by omega, by omega⟩ (by omega)

section

variable {fuel : Nat} {rest s after : List Char} (h : readText? fuel rest = some (s, after))

include h

theorem readText?_unit {c : Char} (hrange : c.toNat < 0xD800 ∨ 0xDFFF < c.toNat) (hc : c.toNat < 0x10000) :
    readText? (fuel + 1) (escapeUnit c.toNat ++ rest) = some (c :: s, after) := by
  obtain ⟨w, x, y, z, hunit, hvalue⟩ := exists_escapeUnit hc
  have hfirst : ¬ (0xD800 ≤ c.toNat ∧ c.toNat ≤ 0xDBFF) := by omega
  have hsecond : ¬ (0xDC00 ≤ c.toNat ∧ c.toNat ≤ 0xDFFF) := by omega
  rw [hunit]
  simp [readText?, hvalue, hfirst, hsecond, h]

theorem readText?_pair {high low : Nat} (hhigh : 0xD800 ≤ high ∧ high ≤ 0xDBFF) (hlow : 0xDC00 ≤ low ∧ low ≤ 0xDFFF) :
    readText? (fuel + 1) (escapeUnit high ++ (escapeUnit low ++ rest)) =
      some (Char.ofNat (0x10000 + (high - 0xD800) * 0x400 + (low - 0xDC00)) :: s, after) := by
  obtain ⟨w, x, y, z, hfirst, hvalue⟩ := exists_escapeUnit (Nat.lt_of_le_of_lt hhigh.2 (by decide))
  obtain ⟨w', x', y', z', hsecond, hvalue'⟩ := exists_escapeUnit (Nat.lt_of_le_of_lt hlow.2 (by decide))
  have hpair : lowUnit? ('\\' :: 'u' :: w' :: x' :: y' :: z' :: rest) = some (low, rest) := by
    simp [lowUnit?, hvalue', hlow]
  rw [hfirst, hsecond]
  simp [readText?, hvalue, hhigh, hpair, h]

/-- **A character is read back** in one step, whatever follows. -/
theorem Escape.readText? {c : Char} {text : List Char} (hc : Escape c text) :
    Value.readText? (fuel + 1) (text ++ rest) = some (c :: s, after) := by
  cases hc with
  | letter he hc => simp [Value.readText?, he, hc, h]
  | plain hquote hslash hlow =>
    have hshown : ¬ c.toNat < 32 := by omega
    simp [Value.readText?, hslash, hshown, h]
  | unit hrange hc => exact readText?_unit h hrange hc
  | pair hhigh hlow hc => rw [List.append_assoc, readText?_pair h hhigh hlow, hc, Char.ofNat_toNat]

end

/-- **A text is read back** up to its closing quote. -/
theorem readText?_escaped {s : List Char} {fuel : Nat} (hfuel : s.length < fuel) (rest : List Char) :
    readText? fuel (s.flatMap escapeChar ++ '"' :: rest) = some (s, rest) := by
  induction s generalizing fuel with
  | nil =>
    obtain ⟨more, rfl⟩ := Nat.exists_eq_add_one.mpr (Nat.zero_lt_of_lt hfuel)
    rfl
  | cons c s ih =>
    obtain ⟨more, rfl⟩ := Nat.exists_eq_add_one.mpr (Nat.zero_lt_of_lt hfuel)
    rw [List.flatMap_cons, List.append_assoc]
    exact (escape_escapeChar c).readText? (ih (by simpa using hfuel))

/-! ## Simple values -/

/-- **A simple value**: nothing, a truth value or a text. -/
inductive Simple : Value → Prop
  | null : Simple .null
  | bool (b : Bool) : Simple (.bool b)
  | str (s : String) : Simple (.str s)

theorem Escape.ne_nil {c : Char} {text : List Char} (h : Escape c text) : text ≠ [] := by
  have hunit : ∀ n, escapeUnit n ≠ [] := fun n => List.cons_ne_nil _ _
  cases h with
  | letter => exact List.cons_ne_nil _ _
  | plain => exact List.cons_ne_nil _ _
  | unit => exact hunit _
  | pair => exact List.append_ne_nil_of_left_ne_nil (hunit _) _

theorem return_notMem_escapeUnit {n : Nat} (h : n < 0x10000) : '\r' ∉ escapeUnit n := by
  obtain ⟨w, x, y, z, hunit, hvalue⟩ := exists_escapeUnit h
  rw [hunit]
  intro hmem
  have hdigit : '\r' = w ∨ '\r' = x ∨ '\r' = y ∨ '\r' = z := by simpa using hmem
  have hreturn : Text.hexValue? '\r' = none := by decide
  rcases hdigit with rfl | rfl | rfl | rfl <;> simp [unit?, hreturn] at hvalue

theorem Escape.return_notMem {c : Char} {text : List Char} (h : Escape c text) : '\r' ∉ text := by
  cases h with
  | @letter e he hc =>
    intro hmem
    have heq : '\r' = e := by simpa using hmem
    have hnone : escapeOf? '\r' = none := by decide
    rw [← heq, hnone] at hc
    cases hc
  | plain hquote hslash hlow =>
    intro hmem
    rw [← List.mem_singleton.mp hmem] at hlow
    exact absurd hlow (by decide)
  | unit hrange hc => exact return_notMem_escapeUnit hc
  | pair hhigh hlow hc =>
    rw [List.mem_append]
    exact not_or.mpr ⟨return_notMem_escapeUnit (by omega), return_notMem_escapeUnit (by omega)⟩

theorem length_le_escaped (s : List Char) : s.length ≤ (s.flatMap escapeChar).length := by
  induction s with
  | nil => exact Nat.le_refl 0
  | cons c s ih =>
    have hpos := List.length_pos_iff.mpr (escape_escapeChar c).ne_nil
    rw [List.flatMap_cons, List.length_append, List.length_cons]
    omega

theorem toList_renderText (s : String) : (renderText s).toList = '"' :: (s.toList.flatMap escapeChar ++ ['"']) :=
  String.toList_ofList

/-- **A simple value is read back**, whatever follows. -/
theorem Simple.readValue? {v : Value} (h : Simple v) (level : Nat) {fuel : Nat}
    (hfuel : (v.renderIndented level).toList.length < fuel) (rest : List Char) :
    Value.readValue? fuel ((v.renderIndented level).toList ++ rest) = some (v, rest) := by
  obtain ⟨more, rfl⟩ := Nat.exists_eq_add_one.mpr (Nat.zero_lt_of_lt hfuel)
  cases h with
  | null => simp [renderIndented, Value.readValue?]
  | bool b => cases b <;> simp [renderIndented, Value.readValue?]
  | str s =>
    rw [renderIndented, toList_renderText] at hfuel ⊢
    have hmore : s.toList.length < more := by
      have hle := length_le_escaped s.toList
      simp only [List.length_cons, List.length_append, List.length_nil] at hfuel
      omega
    rw [List.cons_append, List.append_assoc, List.singleton_append, Value.readValue?, readText?_escaped hmore,
      Option.map_some, String.ofList_toList]

theorem Simple.skipBlanks {v : Value} (h : Simple v) (level : Nat) (rest : List Char) :
    Value.skipBlanks ((v.renderIndented level).toList ++ rest) = (v.renderIndented level).toList ++ rest := by
  cases h with
  | null => simp [renderIndented, Value.skipBlanks]
  | bool b => cases b <;> simp [renderIndented, Value.skipBlanks]
  | str s => simp [renderIndented, toList_renderText, Value.skipBlanks]

theorem skipBlanks_indent (level : Nat) (rest : List Char) :
    skipBlanks ((indent level).toList ++ rest) = skipBlanks rest := by
  refine List.dropWhile_append_of_pos ?_
  intro c hc
  have hcases : c = '\n' ∨ c = ' ' := by
    simp only [indent, String.toList_append, String.toList_ofList, List.mem_append, List.mem_replicate] at hc
    exact hc.imp List.mem_singleton.mp And.right
  rcases hcases with rfl | rfl <;> rfl

/-! ## Dictionaries of simple values -/

/-- An entry on its line. -/
def entryText (level : Nat) (e : String × Value) : String := renderText e.1 ++ ": " ++ e.2.renderIndented level

theorem toList_entryText (level : Nat) (e : String × Value) : (entryText level e).toList =
    '"' :: (e.1.toList.flatMap escapeChar ++ '"' :: ':' :: ' ' :: (e.2.renderIndented level).toList) := by
  simp [entryText, toList_renderText]

/-- **An entry is read back.** What follows it says whether there are more. -/
theorem readEntries?_entryText {e : String × Value} (he : Simple e.2) {level fuel : Nat}
    (hfuel : (entryText level e).toList.length ≤ fuel) {tail after : List Char} :
    (skipBlanks tail = '\x7d' :: after → readEntries? (fuel + 1) ((entryText level e).toList ++ tail) = some ([e], after)) ∧
      ∀ {next : List Char} {es : List (String × Value)}, skipBlanks tail = ',' :: next →
        readEntries? fuel (skipBlanks next) = some (es, after) →
        readEntries? (fuel + 1) ((entryText level e).toList ++ tail) = some (e :: es, after) := by
  rw [toList_entryText] at hfuel ⊢
  simp only [List.length_cons, List.length_append] at hfuel
  have hkey : readText? fuel (e.1.toList.flatMap escapeChar ++
      '"' :: ':' :: ' ' :: ((e.2.renderIndented level).toList ++ tail)) =
        some (e.1.toList, ':' :: ' ' :: ((e.2.renderIndented level).toList ++ tail)) := by
    refine readText?_escaped ?_ _
    have hle := length_le_escaped e.1.toList
    omega
  have hvalue : readValue? fuel ((e.2.renderIndented level).toList ++ tail) = some (e.2, tail) :=
    he.readValue? level (by omega) tail
  have hcolon : ∀ s, skipBlanks (':' :: s) = ':' :: s := fun s => rfl
  have hblank : skipBlanks (' ' :: ((e.2.renderIndented level).toList ++ tail)) =
      (e.2.renderIndented level).toList ++ tail := he.skipBlanks level tail
  constructor
  · intro htail
    simp [readEntries?, hkey, hcolon, hblank, hvalue, htail]
  · intro next es htail hrest
    simp [readEntries?, hkey, hcolon, hblank, hvalue, htail, hrest]

/-- Entries on their lines. -/
def blockText (level : Nat) (es : List (String × Value)) : String :=
  String.intercalate ("," ++ indent level) (es.map (entryText level))

theorem toList_blockText_cons (level : Nat) (e next : String × Value) (rest : List (String × Value)) :
    (blockText level (e :: next :: rest)).toList =
      (entryText level e).toList ++ ',' :: ((indent level).toList ++ (blockText level (next :: rest)).toList) := by
  simp [blockText, String.intercalate_cons_cons]

theorem exists_blockText {es : List (String × Value)} (hne : es ≠ []) (level : Nat) :
    ∃ s, (blockText level es).toList = '"' :: s := by
  obtain ⟨e, es, rfl⟩ := List.exists_cons_of_ne_nil hne
  cases es with
  | nil => simp [blockText, toList_entryText]
  | cons next es => simp [toList_blockText_cons, toList_entryText]

theorem skipBlanks_blockText {es : List (String × Value)} (hne : es ≠ []) (level : Nat) (rest : List Char) :
    skipBlanks ((blockText level es).toList ++ rest) = (blockText level es).toList ++ rest := by
  obtain ⟨s, hs⟩ := exists_blockText hne level
  rw [hs]
  rfl

/-- **The entries of a dictionary are read back** up to its closing brace. -/
theorem readEntries?_blockText {es : List (String × Value)} (hne : es ≠ []) (hes : ∀ e ∈ es, Simple e.2) (level outer : Nat)
    {fuel : Nat} (hfuel : (blockText level es).toList.length < fuel) (after : List Char) :
    readEntries? fuel ((blockText level es).toList ++ ((indent outer).toList ++ '\x7d' :: after)) = some (es, after) := by
  induction es generalizing fuel with
  | nil => exact absurd rfl hne
  | cons e rest ih =>
    obtain ⟨more, rfl⟩ := Nat.exists_eq_add_one.mpr (Nat.zero_lt_of_lt hfuel)
    have he := hes e List.mem_cons_self
    cases rest with
    | nil =>
      have hone : blockText level [e] = entryText level e := String.intercalate_singleton
      rw [hone] at hfuel ⊢
      exact (readEntries?_entryText he (by omega)).1 (skipBlanks_indent outer _)
    | cons next rest =>
      rw [toList_blockText_cons] at hfuel ⊢
      simp only [List.length_append, List.length_cons] at hfuel
      rw [List.append_assoc, List.cons_append, List.append_assoc]
      refine (readEntries?_entryText he (by omega)).2 rfl ?_
      rw [skipBlanks_indent, skipBlanks_blockText (List.cons_ne_nil next rest)]
      exact ih (List.cons_ne_nil next rest) (fun f hf => hes f (List.mem_cons_of_mem e hf)) (by omega)

/-! ## Entries in order of their keys -/

section

variable {α β : Type}

theorem insertEntry_perm (e : String × α) (entries : List (String × α)) : (insertEntry e entries).Perm (e :: entries) := by
  induction entries with
  | nil => exact .refl _
  | cons f rest ih =>
    rw [insertEntry]
    split
    · exact .refl _
    · exact (ih.cons f).trans (.swap e f rest)

/-- **Putting entries in order** neither adds nor loses one. -/
theorem sortEntries_perm (entries : List (String × α)) : (sortEntries entries).Perm entries := by
  induction entries with
  | nil => exact .refl _
  | cons e rest ih => exact (insertEntry_perm e _).trans (ih.cons e)

/-- Only the keys count for the order. -/
theorem sortEntries_map (f : α → β) (entries : List (String × α)) :
    sortEntries (entries.map fun e => (e.1, f e.2)) = (sortEntries entries).map fun e => (e.1, f e.2) := by
  have hinsert : ∀ (e : String × α) (rest : List (String × α)),
      insertEntry (e.1, f e.2) (rest.map fun e => (e.1, f e.2)) = (insertEntry e rest).map fun e => (e.1, f e.2) := by
    intro e rest
    induction rest with
    | nil => rfl
    | cons g rest ih =>
      by_cases hlt : e.1 < g.1
      · simp [insertEntry, hlt]
      · simp [insertEntry, hlt, ih]
  induction entries with
  | nil => rfl
  | cons e rest ih =>
    calc sortEntries ((e :: rest).map fun e => (e.1, f e.2))
        = insertEntry (e.1, f e.2) (sortEntries (rest.map fun e => (e.1, f e.2))) := rfl
      _ = (sortEntries (e :: rest)).map fun e => (e.1, f e.2) := by rw [ih, hinsert]; rfl

end

theorem indentedEntries_eq (level : Nat) (entries : List (String × Value)) :
    indentedEntries level entries = entries.map fun e => (e.1, renderIndented level e.2) := by
  induction entries with
  | nil => rfl
  | cons e rest ih => rw [indentedEntries, ih, List.map_cons]

/-! ## The law -/

theorem renderIndented_dict {entries : List (String × Value)} (hne : entries ≠ []) (level : Nat) :
    (Value.dict entries).renderIndented level =
      "\x7b" ++ indent (level + 1) ++ blockText (level + 1) (sortEntries entries) ++ indent level ++ "\x7d" := by
  have hsorted : sortEntries entries ≠ [] := fun hnil => hne (List.nil_perm.mp (hnil ▸ sortEntries_perm entries))
  have hpieces : ((sortEntries (indentedEntries (level + 1) entries)).map fun e => renderText e.1 ++ ": " ++ e.2) =
      (sortEntries entries).map (entryText (level + 1)) := by
    rw [indentedEntries_eq, sortEntries_map, List.map_map]
    rfl
  rw [renderIndented, hpieces, renderBlock, if_neg (by simpa using hsorted)]
  rfl

theorem return_notMem_renderText (s : String) : '\r' ∉ (renderText s).toList := by
  rw [toList_renderText]
  simp only [List.mem_cons, List.mem_append, List.mem_flatMap, List.not_mem_nil, or_false]
  rintro (hquote | ⟨c, -, hc⟩ | hquote)
  · exact absurd hquote (by decide)
  · exact (escape_escapeChar c).return_notMem hc
  · exact absurd hquote (by decide)

theorem Simple.return_notMem {v : Value} (h : Simple v) (level : Nat) : '\r' ∉ (v.renderIndented level).toList := by
  cases h with
  | null => simp [renderIndented]
  | bool b => cases b <;> simp [renderIndented]
  | str s => exact return_notMem_renderText s

theorem return_notMem_indent (level : Nat) : '\r' ∉ (indent level).toList := by
  simp [indent]

theorem return_notMem_blockText {es : List (String × Value)} (hes : ∀ e ∈ es, Simple e.2) (level : Nat) :
    '\r' ∉ (blockText level es).toList := by
  have hentry : ∀ e ∈ es, '\r' ∉ (entryText level e).toList := by
    intro e he
    simp [entryText, return_notMem_renderText, (hes e he).return_notMem level]
  clear hes
  induction es with
  | nil => simp [blockText]
  | cons e rest ih =>
    have he := hentry e List.mem_cons_self
    have hrest := ih fun f hf => hentry f (List.mem_cons_of_mem e hf)
    cases rest with
    | nil => simpa [blockText] using he
    | cons next rest => simp [toList_blockText_cons, he, return_notMem_indent, hrest]

/-- **A dictionary of simple values** is written without a carriage return. -/
theorem return_notMem_renderIndented {entries : List (String × Value)} (hsimple : ∀ e ∈ entries, Simple e.2) (level : Nat) :
    '\r' ∉ ((Value.dict entries).renderIndented level).toList := by
  by_cases hne : entries = []
  · simp [hne, renderIndented, indentedEntries, sortEntries, renderBlock]
  · have hes : ∀ e ∈ sortEntries entries, Simple e.2 := fun e he => hsimple e ((sortEntries_perm entries).mem_iff.mp he)
    simp [renderIndented_dict hne, return_notMem_indent, return_notMem_blockText hes]

/-- **A dictionary of simple values is read back**, its entries in order of their keys. -/
theorem parse?_renderIndented {entries : Table String Value} (hkeys : entries.keys.Nodup)
    (hsimple : ∀ e ∈ entries, Simple e.2) :
    parse? ((Value.dict entries).renderIndented 0 ++ "\n") = some (.dict (sortEntries entries)) := by
  have hperm := sortEntries_perm entries
  by_cases hne : entries = []
  · subst hne
    rfl
  have hsorted : sortEntries entries ≠ [] := fun hnil => hne (List.nil_perm.mp (hnil ▸ hperm))
  have hes : ∀ e ∈ sortEntries entries, Simple e.2 := fun e he => hsimple e (hperm.mem_iff.mp he)
  have hnodup : (Table.keys (sortEntries entries)).Nodup := (hperm.map Prod.fst).nodup_iff.mpr hkeys
  have htext : ((Value.dict entries).renderIndented 0 ++ "\n").toList = '\x7b' :: ((indent 1).toList ++
      ((blockText 1 (sortEntries entries)).toList ++ ((indent 0).toList ++ ['\x7d', '\n']))) := by
    simp [renderIndented_dict hne]
  have hread : ∀ fuel, (blockText 1 (sortEntries entries)).toList.length < fuel →
      readValue? (fuel + 1) ('\x7b' :: ((indent 1).toList ++ ((blockText 1 (sortEntries entries)).toList ++
        ((indent 0).toList ++ ['\x7d', '\n'])))) = some (.dict (sortEntries entries), ['\n']) := by
    intro fuel hfuel
    have hentries := readEntries?_blockText hsorted hes 1 0 hfuel ['\n']
    obtain ⟨s, hs⟩ := exists_blockText hsorted 1
    have hskip := skipBlanks_blockText hsorted 1 ((indent 0).toList ++ ['\x7d', '\n'])
    rw [hs, List.cons_append] at hentries hskip
    rw [hs, List.cons_append]
    simp [readValue?, skipBlanks_indent, hskip, hentries, Table.ofList_of_nodup hnodup]
  have hfuel : (blockText 1 (sortEntries entries)).toList.length <
      2 * ((Value.dict entries).renderIndented 0 ++ "\n").toList.length + 1 := by
    rw [htext]
    simp only [List.length_cons, List.length_append]
    omega
  have hstart : ∀ s, skipBlanks ('\x7b' :: s) = '\x7b' :: s := fun s => rfl
  simp only [parse?]
  rw [htext] at hfuel ⊢
  simp only [hstart, hread _ hfuel]
  rfl

end Value

end EditorService
