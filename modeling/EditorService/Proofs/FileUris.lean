import EditorService.Uri.FilePath
import EditorService.Proofs.Escapes

/-!
# The URI of a file, written and read

A file's URI is written from decoded parts: an authority, a path that starts with a separator, perhaps a query and a
fragment. Encoding keeps separators, so authority and path are written as one text, with nothing to tell where the one
ends. A path that starts with two separators is even written without an empty authority in front of it (`behind`).

**The law** (`parse_render_file`): reading such a URI gives this text back whatever characters it has, cut at its first
separator, and the query and the fragment as they were.
-/

namespace EditorService

namespace Uri

/-! ## Drives -/

theorem hasDrive_eq_true {path : List Char} (h : hasDrive path = true) :
    ∃ letter rest, path = '/' :: letter :: ':' :: rest ∧ letter.isAlpha = true := by
  unfold hasDrive at h
  split at h
  · exact ⟨_, _, rfl, h⟩
  · exact absurd h Bool.false_ne_true

theorem isKept_of_isAlpha {c : Char} (h : c.isAlpha = true) : isKept c = true := by
  simp [isKept, Char.isAlphanum, h]

theorem isWritten_of_isAlpha {c : Char} (h : c.isAlpha = true) : isWritten c = true := by
  rw [isWritten, isKept_of_isAlpha h, Bool.true_or]

/-! ## Spellings -/

/-- **A spelling of a text**: each character encoded, or a colon as it is. -/
inductive Spells : List Char → List Char → Prop
  | nil : Spells [] []
  | encoded (c : Char) {text written : List Char} (h : Spells text written) :
      Spells (c :: text) (encodeChar c ++ written)
  | colon {text written : List Char} (h : Spells text written) : Spells (':' :: text) (':' :: written)

theorem encodeChar_of_isKept {c : Char} (h : isKept c = true) : encodeChar c = [c] := if_pos h

theorem spells_encode (s : List Char) : Spells s (encode s) := by
  induction s with
  | nil => exact .nil
  | cons c rest ih => exact .encoded c ih

/-- **A path is spelled by its encoding**, the colon of a drive included. -/
theorem spells_encodePath (path : List Char) : Spells path (encodePath path) := by
  unfold encodePath
  split
  · next hdrive =>
    obtain ⟨letter, rest, rfl, hletter⟩ := hasDrive_eq_true hdrive
    have hspelled := Spells.encoded '/' (.encoded letter (.colon (spells_encode rest)))
    rwa [encodeChar_of_isKept (by decide), encodeChar_of_isKept (isKept_of_isAlpha hletter)] at hspelled
  · exact spells_encode path

namespace Spells

variable {text written : List Char}

theorem append (h : Spells text written) {text' written' : List Char} (h' : Spells text' written') :
    Spells (text ++ text') (written ++ written') := by
  induction h with
  | nil => exact h'
  | encoded c _ ih =>
    rw [List.append_assoc]
    exact .encoded c ih
  | colon _ ih => exact .colon ih

theorem chars (h : Spells text written) : ∀ c ∈ written, isWritten c = true ∨ c = ':' := by
  induction h with
  | nil => exact nofun
  | encoded d _ ih =>
    intro c hc
    rcases List.mem_append.mp hc with hd | hrest
    · have hencoded : c ∈ encode [d] := by rwa [encode, List.flatMap_singleton]
      exact .inl (isWritten_of_mem_encode hencoded).1
    · exact ih c hrest
  | colon _ ih =>
    intro c hc
    rcases List.mem_cons.mp hc with rfl | hrest
    · exact .inr rfl
    · exact ih c hrest

theorem octets (h : Spells text written) : Uri.octets written = Text.encode text := by
  induction h with
  | nil => rfl
  | encoded c _ ih =>
    rw [octets_encodeChar, ih]
    rfl
  | colon _ ih =>
    rw [octets_plain (by decide) (by decide), ih]
    rfl

/-- Apart from the colon, a spelling has none of the characters that a URI is cut at. -/
theorem notMem (h : Spells text written) {d : Char} (hd : d ∈ delimiters) (hcolon : d ≠ ':') : d ∉ written := by
  intro hmem
  rcases h.chars d hmem with hwritten | heq
  · exact ne_of_isWritten hwritten hd rfl
  · exact hcolon heq

theorem ascii (h : Spells text written) : ∀ c ∈ written, c.toNat < 128 := by
  intro c hc
  rcases h.chars c hc with hwritten | rfl
  · exact toNat_lt_of_isWritten hwritten
  · decide

/-- **A text comes back from its spelling.** -/
theorem decode (h : Spells text written) : Uri.decode written = text :=
  decode_of_octets h.ascii h.octets

/-- A separator is spelled as it is. -/
theorem of_slash (h : Spells ('/' :: text) written) : ∃ rest, written = '/' :: rest ∧ Spells text rest := by
  cases h with
  | encoded _ hrest => exact ⟨_, rfl, hrest⟩

/-- And nothing else is spelled with one. -/
theorem slash_of (h : Spells text ('/' :: written)) : ∃ rest, text = '/' :: rest ∧ Spells rest written := by
  generalize hall : '/' :: written = all at h
  cases h with
  | nil => exact nomatch hall
  | colon _ => exact absurd (List.cons.inj hall).1 (by decide)
  | @encoded c rest tail hrest =>
    by_cases hc : c = '/'
    · subst hc
      cases hall
      exact ⟨rest, rfl, hrest⟩
    · cases hencoded : encodeChar c with
      | nil =>
        have hbytes := octets_encodeChar c []
        rw [hencoded] at hbytes
        exact absurd (List.append_eq_nil_iff.mp hbytes.symm).1 String.utf8EncodeChar_ne_nil
      | cons first more =>
        rw [hencoded] at hall
        cases (List.cons.inj hall).1
        have hsingle : '/' ∈ encode [c] := by
          rw [encode, List.flatMap_singleton, hencoded]
          exact List.mem_cons_self
        exact absurd (List.mem_singleton.mp ((isWritten_of_mem_encode hsingle).2 rfl)).symm hc

/-- **A spelling is cut at the first separator where the text is.** -/
theorem cut (h : Spells text written) : ∃ front back, written = front ++ back ∧
    Spells (text.takeWhile (· != '/')) front ∧ '/' ∉ front ∧
    Spells (text.dropWhile (· != '/')) back ∧ ∀ c ∈ back.head?, c = '/' := by
  induction h with
  | nil => exact ⟨[], [], rfl, .nil, List.not_mem_nil, .nil, nofun⟩
  | @encoded c text written hrest ih =>
    by_cases hc : c = '/'
    · subst hc
      refine ⟨[], encodeChar '/' ++ written, rfl, .nil, List.not_mem_nil, .encoded '/' hrest, ?_⟩
      rintro c ⟨⟩
      rfl
    · obtain ⟨front, back, rfl, hfront, hslash, hback, hhead⟩ := ih
      have hkept : (c != '/') = true := bne_iff_ne.mpr hc
      rw [List.takeWhile_cons_of_pos (p := (· != '/')) hkept, List.dropWhile_cons_of_pos (p := (· != '/')) hkept]
      refine ⟨encodeChar c ++ front, back, (List.append_assoc ..).symm, .encoded c hfront, ?_, hback, hhead⟩
      intro hmem
      rcases List.mem_append.mp hmem with hencoded | hmem
      · have hsingle : '/' ∈ encode [c] := by rwa [encode, List.flatMap_singleton]
        exact hc (List.mem_singleton.mp ((isWritten_of_mem_encode hsingle).2 rfl)).symm
      · exact hslash hmem
  | colon _ ih =>
    obtain ⟨front, back, rfl, hfront, hslash, hback, hhead⟩ := ih
    refine ⟨':' :: front, back, rfl, .colon hfront, ?_, hback, hhead⟩
    intro hmem
    rcases List.mem_cons.mp hmem with heq | hmem
    · exact absurd heq (by decide)
    · exact hslash hmem

end Spells

/-! ## Writing -/

/-- **What stands behind the two separators of a file's URI.** Where the path has two separators of its own, an empty
authority is left out. -/
def behind (authority path : List Char) : List Char :=
  if authority = [] ∧ path.take 2 = ['/', '/'] then path.drop 2 else authority ++ path

/-- A part with the mark that announces it, unless it is empty. -/
def marked (mark : Char) (part : List Char) : List Char := if part = [] then [] else mark :: part

theorem mem_marked {c mark : Char} {part : List Char} (h : c ∈ marked mark part) : c = mark ∨ c ∈ part := by
  unfold marked at h
  split at h
  · exact nomatch h
  · exact List.mem_cons.mp h

theorem hasPrefix_separators (path : String) : Text.hasPrefix "//" path = decide (path.toList.take 2 = ['/', '/']) := by
  rw [Text.hasPrefix, Text.startsWith]
  rcases path.toList with _ | ⟨a, _ | ⟨b, rest⟩⟩
  · rfl
  · by_cases ha : '/' = a <;> simp [Text.dropPrefix?, ha]
  · by_cases ha : '/' = a
    · by_cases hb : '/' = b
      · simp [Text.dropPrefix?, ← ha, ← hb]
      · simp [Text.dropPrefix?, ← ha, hb, Ne.symm hb]
    · simp [Text.dropPrefix?, ha, Ne.symm ha]

theorem toList_marked {mark : Char} {text : String} (hmark : text.toList = [mark]) (body part : String) :
    (if part == "" then body else body ++ text ++ part).toList = body.toList ++ marked mark part.toList := by
  unfold marked
  by_cases h : part = ""
  · simp [h]
  · simp [h, hmark]

theorem toList_assemble_file {authority path query fragment : String} {rest : List Char}
    (hpath : path.toList = '/' :: rest) :
    (assemble { scheme := "file", authority, path, query, fragment }).toList =
      "file://".toList ++ (behind authority.toList path.toList ++
        (marked '?' query.toList ++ marked '#' fragment.toList)) := by
  have hrooted : (path != "" && !Text.hasPrefix "/" path) = false := by
    simp [Text.hasPrefix, Text.startsWith, hpath, Text.dropPrefix?]
  have hnamed : (authority != "" ||
      ("file" != "" && schemesWithAuthority.contains "file" && !Text.hasPrefix "//" path)) =
        !decide (authority.toList = [] ∧ path.toList.take 2 = ['/', '/']) := by
    have hfile : schemesWithAuthority.contains "file" = true := by decide
    rw [hasPrefix_separators, hfile]
    by_cases hempty : authority = ""
    · by_cases htwo : path.toList.take 2 = ['/', '/'] <;> simp [hempty, htwo]
    · simp [hempty]
  have hbody : (if (!decide (authority.toList = [] ∧ path.toList.take 2 = ['/', '/'])) = true
      then "//" ++ authority ++ path else path).toList = '/' :: '/' :: behind authority.toList path.toList := by
    unfold behind
    by_cases hbare : authority.toList = [] ∧ path.toList.take 2 = ['/', '/']
    · rw [if_pos hbare]
      have htwo := List.take_append_drop 2 path.toList
      rw [hbare.2] at htwo
      simpa [hbare] using htwo.symm
    · rw [if_neg hbare, if_pos (by rw [decide_eq_false hbare]; rfl)]
      simp
  have hscheme : ("file" == "") = false := by decide
  have hquestion : "?".toList = ['?'] := rfl
  have hhash : "#".toList = ['#'] := rfl
  simp only [assemble, BEq.rfl, if_true, hrooted, hnamed, hscheme, Bool.false_eq_true, if_false,
    toList_marked hquestion, toList_marked hhash, String.toList_append, hbody, List.append_assoc]
  rfl

/-- What is written behind the separators spells what stands behind them. -/
theorem spells_behind (authority path : List Char) :
    Spells (behind authority path) (behind (encode authority) (encodePath path)) := by
  have hpath := spells_encodePath path
  have hempty : encode authority = [] ↔ authority = [] := by
    constructor
    · intro hnil
      rw [← decode_encode authority, hnil]
      rfl
    · rintro rfl
      rfl
  have htwo : ∀ s : List Char, s.take 2 = ['/', '/'] → ∃ rest, s = '/' :: '/' :: rest := by
    intro s hs
    refine ⟨s.drop 2, ?_⟩
    rw [← List.take_append_drop 2 s, hs]
    simp
  unfold behind
  by_cases hbare : authority = [] ∧ path.take 2 = ['/', '/']
  · obtain ⟨rest, rfl⟩ := htwo path hbare.2
    obtain ⟨more, hmore, hpath⟩ := hpath.of_slash
    obtain ⟨written, rfl, hrest⟩ := hpath.of_slash
    rw [if_pos hbare, if_pos ⟨hempty.mpr hbare.1, by rw [hmore]; rfl⟩, hmore]
    exact hrest
  · rw [if_neg hbare, if_neg]
    · exact (spells_encode authority).append hpath
    · rintro ⟨hnil, hwritten⟩
      obtain ⟨written, hwritten⟩ := htwo _ hwritten
      rw [hwritten] at hpath
      obtain ⟨more, rfl, hmore⟩ := hpath.slash_of
      obtain ⟨rest, rfl, -⟩ := hmore.slash_of
      exact hbare ⟨hempty.mp hnil, rfl⟩

/-- **The URI of a file as text.** -/
theorem toList_render_file {u : Uri} (hscheme : u.scheme = "file") (hparameters : u.parameters = "") {rest : List Char}
    (hpath : u.path.toList = '/' :: rest) :
    (render u).toList = "file://".toList ++ (behind (encode u.authority.toList) (encodePath u.path.toList) ++
      (marked '?' (encode u.query.toList) ++ marked '#' (encode u.fragment.toList))) := by
  have hspelled := spells_encodePath u.path.toList
  rw [hpath] at hspelled
  obtain ⟨written, hwritten, -⟩ := hspelled.of_slash
  have hscheme' : encoded "file" = "file" := by decide
  have hparameters' : encoded "" = "" := by decide
  have hpath' : (String.ofList (encodePath u.path.toList)).toList = '/' :: written := by
    rw [String.toList_ofList, hpath, hwritten]
  rw [render, hscheme, hparameters, hscheme', hparameters', toList_assemble_file hpath']
  simp only [encoded, String.toList_ofList]

/-! ## Reading -/

theorem cleaned_file {body : List Char} (h : ∀ c ∈ body, (c != '\t' && c != '\r' && c != '\n') = true) :
    cleaned ("file://".toList ++ body) = "file://".toList ++ body := by
  show List.filter _ ("file://".toList ++ body) = _
  rw [List.filter_append, List.filter_eq_self.mpr h]
  rfl

theorem cutScheme_file (body : List Char) :
    cutScheme ("file://".toList ++ body) = ("file".toList, '/' :: '/' :: body) := rfl

theorem cutAuthority_eq {authority rest : List Char} (hslash : '/' ∉ authority) (hquestion : '?' ∉ authority)
    (hhash : '#' ∉ authority) (hrest : ∀ c ∈ rest.head?, c = '/' ∨ c = '?' ∨ c = '#') :
    cutAuthority ('/' :: '/' :: (authority ++ rest)) = (authority, rest) := by
  have hends : ∀ c ∈ authority, (!(c == '/' || c == '?' || c == '#')) = true := by
    intro c hc
    have hne : ∀ {d}, d ∉ authority → c ≠ d := fun hd heq => hd (heq ▸ hc)
    simp [hne hslash, hne hquestion, hne hhash]
  simp only [cutAuthority]
  rw [List.takeWhile_append_of_pos hends, List.dropWhile_append_of_pos hends]
  cases rest with
  | nil => simp
  | cons c rest =>
    rcases hrest c rfl with rfl | rfl | rfl <;> simp

theorem checkAuthority_plain {authority : List Char} (hopens : '[' ∉ authority) (hcloses : ']' ∉ authority) :
    checkAuthority authority = .ok () := by
  have habsent : ∀ {d}, d ∉ authority → authority.contains d = false := by
    intro d hd
    simp [hd]
  rw [checkAuthority, habsent hopens, habsent hcloses]
  rfl

theorem checkDisguise_ascii {authority : List Char} (h : ∀ c ∈ authority, c.toNat < 128) :
    checkDisguise authority = .ok () := by
  have hplain : (authority.any fun c => disguised.contains c.toNat) = false := by
    rw [List.any_eq_false]
    intro c hc
    have hascii := h c hc
    simp only [disguised, List.contains_eq_mem, List.mem_cons, List.not_mem_nil, or_false, decide_eq_true_eq]
    omega
  rw [checkDisguise, hplain]
  rfl

/-- A mark cuts where it announces a part, and nowhere if the part is empty. -/
theorem cutAt_marked {mark : Char} {front : List Char} (h : mark ∉ front) (part : List Char) :
    cutAt mark (front ++ marked mark part) = (front, part) := by
  unfold marked
  split
  · next hempty =>
    rw [List.append_nil, cutAt, Text.splitFirst_of_notMem h, hempty]
    rfl
  · rw [cutAt, Text.splitFirst_append h]
    rfl

section

variable {host path query fragment authority written asked part : List Char}

theorem split_file (hauthority : Spells host authority) (hslash : '/' ∉ authority) (hpath : Spells path written)
    (hhead : ∀ c ∈ written.head?, c = '/') (hquery : Spells query asked) (hfragment : Spells fragment part) {s : String}
    (hs : s.toList = "file://".toList ++ (authority ++ written ++ (marked '?' asked ++ marked '#' part))) :
    split s = .ok {
      scheme := "file", authority := String.ofList authority, path := String.ofList written,
      query := String.ofList asked, fragment := String.ofList part } := by
  have hnone : ∀ d ∈ delimiters, d ≠ ':' → d ≠ '?' → d ≠ '#' →
      d ∉ authority ++ (written ++ (marked '?' asked ++ marked '#' part)) := by
    intro d hd hcolon hquestion hhash hmem
    rcases List.mem_append.mp hmem with hmem | hmem
    · exact hauthority.notMem hd hcolon hmem
    · rcases List.mem_append.mp hmem with hmem | hmem
      · exact hpath.notMem hd hcolon hmem
      · rcases List.mem_append.mp hmem with hmem | hmem
        · exact (mem_marked hmem).elim hquestion (hquery.notMem hd hcolon)
        · exact (mem_marked hmem).elim hhash (hfragment.notMem hd hcolon)
  have hclean : ∀ c ∈ authority ++ (written ++ (marked '?' asked ++ marked '#' part)),
      (c != '\t' && c != '\r' && c != '\n') = true := by
    intro c hc
    have hne : ∀ d ∈ delimiters, d ≠ ':' → d ≠ '?' → d ≠ '#' → c ≠ d :=
      fun d hd hcolon hquestion hhash heq => hnone d hd hcolon hquestion hhash (heq ▸ hc)
    simp [hne '\t' (by decide), hne '\r' (by decide), hne '\n' (by decide)]
  have hrest : ∀ c ∈ (written ++ (marked '?' asked ++ marked '#' part)).head?, c = '/' ∨ c = '?' ∨ c = '#' := by
    intro c hc
    cases written with
    | cons d written => exact .inl (hhead c hc)
    | nil =>
      unfold marked at hc
      split at hc
      · split at hc
        · exact nomatch hc
        · exact .inr (.inr (Option.some.inj hc).symm)
      · exact .inr (.inl (Option.some.inj hc).symm)
  have hhash : '#' ∉ written ++ marked '?' asked := by
    intro hmem
    rcases List.mem_append.mp hmem with hmem | hmem
    · exact hpath.notMem (by decide) (by decide) hmem
    · exact (mem_marked hmem).elim (by decide) (hquery.notMem (by decide) (by decide))
  have hcut : cutAt '#' (written ++ (marked '?' asked ++ marked '#' part)) = (written ++ marked '?' asked, part) := by
    rw [← List.append_assoc, cutAt_marked hhash]
  have hquestion : '?' ∉ written := hpath.notMem (by decide) (by decide)
  have hscheme : schemesWithParameters.contains (String.ofList "file".toList) = false := by decide
  simp only [split, hs, List.append_assoc, cleaned_file hclean, cutScheme_file,
    cutAuthority_eq hslash (hauthority.notMem (by decide) (by decide)) (hauthority.notMem (by decide) (by decide)) hrest,
    checkAuthority_plain (hauthority.notMem (by decide) (by decide)) (hauthority.notMem (by decide) (by decide)),
    checkDisguise_ascii hauthority.ascii, hcut, cutAt_marked hquestion asked, hscheme]
  rfl

end

/-- **Reading the URI of a file.** What stands behind the separators comes back, cut at the first separator in it. -/
theorem parse_render_file {u : Uri} (hscheme : u.scheme = "file") (hparameters : u.parameters = "") {rest : List Char}
    (hpath : u.path.toList = '/' :: rest) :
    parse (render u) = .ok { u with
      authority := String.ofList ((behind u.authority.toList u.path.toList).takeWhile (· != '/'))
      path := String.ofList ((behind u.authority.toList u.path.toList).dropWhile (· != '/')) } := by
  have htext := toList_render_file hscheme hparameters hpath
  obtain ⟨front, back, hwritten, hfront, hslash, hback, hhead⟩ := (spells_behind u.authority.toList u.path.toList).cut
  rw [hwritten] at htext
  have hsplit := split_file hfront hslash hback hhead (spells_encode u.query.toList) (spells_encode u.fragment.toList) htext
  have hfile : decode "file".toList = "file".toList := by decide
  rw [parse, hsplit]
  show Except.ok _ = _
  simp only [decoded, String.toList_ofList, hfront.decode, hback.decode, decode_encode, String.ofList_toList, hscheme,
    hparameters, hfile]
  rfl

end Uri

end EditorService
