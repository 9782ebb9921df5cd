import EditorService.Proofs.FileUris

/-!
# File paths and their URIs

The service knows a file by a URI, and the system by a path. The URI of a path is written from two parts, the host and
the path behind it, and reading the URI gives these two parts back, whatever characters they have
(`parse_render_ofFile`).

**The law** (`path_of_uri_of_path`): a path comes back from its URI. On a system with drives it comes back in one
spelling: with backslashes, and with the drive letter small. The URI of that spelling is the same one, so a file that
is named in several spellings has one URI.

The paths in question are `Addressable`: one separator and no drive, or a host behind two separators, or a drive on a
system that has drives. A path that only looks as if it started with a drive, such as `/c:/x` on a system without
drives, does not come back, because the URI of a drive looks the same.
-/

namespace EditorService

namespace Uri

/-! ## Drives -/

/-- A letter made small is a letter, and stays as it is when made small again. -/
theorem toLower_of_isAlpha {c : Char} (h : c.isAlpha = true) :
    c.toLower.isAlpha = true ∧ c.toLower.toLower = c.toLower := by
  have hall : ∀ n < 128, (Char.ofNat n).isAlpha = false ∨
      (Char.ofNat n).toLower.isAlpha = true ∧ (Char.ofNat n).toLower.toLower = (Char.ofNat n).toLower := by decide
  have hc := hall c.toNat (toNat_lt_of_isWritten (isWritten_of_isAlpha h))
  rw [Char.ofNat_toNat, h] at hc
  exact hc.resolve_left nofun

/-! ## The parts of a file's URI -/

/-- The decoded parts of a file's URI. -/
def ofFile (authority path : List Char) : Uri :=
  { scheme := "file", authority := String.ofList authority, path := String.ofList path }

/-- **The authority and the path that a file's URI can have**: the authority has no separator, the path starts with one,
and it starts with two only behind an authority. -/
structure Filed (authority path : List Char) : Prop where
  host : '/' ∉ authority
  rooted : ∃ rest, path = '/' :: rest ∧ (authority = [] → rest.head? ≠ some '/')

/-- **Reading the URI of a file gives its parts back.** -/
theorem parse_render_ofFile {authority path : List Char} (h : Filed authority path) :
    parse (render (ofFile authority path)) = .ok (ofFile authority path) := by
  obtain ⟨rest, rfl, hsingle⟩ := h.rooted
  have hbehind : behind authority ('/' :: rest) = authority ++ '/' :: rest := by
    refine if_neg ?_
    rintro ⟨hnil, htwo⟩
    cases rest with
    | nil => exact nomatch htwo
    | cons c rest =>
      cases htwo
      exact hsingle hnil rfl
  have hwhole : ∀ c ∈ authority, (c != '/') = true := fun c hc => bne_iff_ne.mpr fun heq => h.host (heq ▸ hc)
  have hparsed := parse_render_file (u := ofFile authority ('/' :: rest)) rfl rfl (String.toList_ofList (l := '/' :: rest))
  simp only [ofFile, String.toList_ofList, hbehind] at hparsed
  rw [List.takeWhile_append_of_pos hwhole, List.dropWhile_append_of_pos hwhole] at hparsed
  simpa [ofFile] using hparsed

/-! ## Paths and their URIs -/

/-- Whether a character separates the segments of a path. -/
def isSeparator (drives : Bool) (c : Char) : Bool := c == '/' || drives && c == '\\'

/-- **The paths that have a URI of their own.** -/
inductive Addressable : Bool → List Char → Prop
  | rooted {rest : List Char} (hsingle : rest.head? ≠ some '/') (hdrive : hasDrive ('/' :: rest) = false) :
      Addressable false ('/' :: rest)
  | hosted {drives : Bool} {a b c : Char} {host share : List Char} (ha : isSeparator drives a = true)
      (hb : isSeparator drives b = true) (hc : isSeparator drives c = true) (hhost : host ≠ [])
      (hwhole : ∀ d ∈ host, isSeparator drives d = false) (hdrive : hasDrive ('/' :: share) = false) :
      Addressable drives (a :: b :: (host ++ c :: share))
  | driven {letter separator : Char} {rest : List Char} (hletter : letter.isAlpha = true)
      (hseparator : isSeparator true separator = true) : Addressable true (letter :: ':' :: separator :: rest)

/-- A path with its first letter made small, where this is the letter of a drive. -/
def smallDrive : List Char → List Char
  | letter :: ':' :: rest => letter.toLower :: ':' :: rest
  | p => p

/-- **The one spelling of a path**: on a system with drives, with backslashes and a small drive letter. -/
def canonical (drives : Bool) (p : List Char) : List Char :=
  if drives then (smallDrive p).map fun c => if c == '/' then '\\' else c else p

/-- A character with a backslash turned round, on a system with drives. -/
def forward (drives : Bool) (c : Char) : Char := if drives && c == '\\' then '/' else c

/-- A character with a forward separator turned round, on a system with drives. -/
def backward (drives : Bool) (c : Char) : Char := if drives && c == '/' then '\\' else c

section

variable {drives : Bool}

theorem map_forward (drives : Bool) (p : List Char) :
    (if drives then p.map fun c => if c == '\\' then '/' else c else p) = p.map (forward drives) := by
  cases drives with
  | false => exact (List.map_id p).symm
  | true => rfl

theorem map_backward (drives : Bool) (p : List Char) :
    (if drives then p.map fun c => if c == '/' then '\\' else c else p) = p.map (backward drives) := by
  cases drives with
  | false => exact (List.map_id p).symm
  | true => rfl

theorem forward_of_isSeparator {c : Char} (h : isSeparator drives c = true) : forward drives c = '/' := by
  simp only [isSeparator, Bool.or_eq_true, beq_iff_eq] at h
  rcases h with rfl | h
  · simp [forward]
  · rw [forward, if_pos h]

theorem not_isSeparator_of_isAlpha {c : Char} (h : c.isAlpha = true) : isSeparator drives c = false := by
  have hslash : c ≠ '/' := by
    rintro rfl
    exact absurd h (by decide)
  have hback : c ≠ '\\' := by
    rintro rfl
    exact absurd h (by decide)
  simp [isSeparator, hslash, hback]

theorem forward_of_not_isSeparator {c : Char} (h : isSeparator drives c = false) : forward drives c = c := by
  rw [isSeparator, Bool.or_eq_false_iff] at h
  simp only [forward, h.2, Bool.false_eq_true, if_false]

theorem forward_backward (c : Char) : forward drives (backward drives c) = forward drives c := by
  cases drives with
  | false => rfl
  | true =>
    by_cases h : c = '/'
    · subst h
      decide
    · simp [backward, h]

theorem backward_forward (c : Char) : backward drives (forward drives c) = backward drives c := by
  cases drives with
  | false => rfl
  | true =>
    by_cases h : c = '\\'
    · subst h
      decide
    · simp [forward, h]

theorem hasDrive_cons (a b : Char) (rest : List Char) : hasDrive ('/' :: a :: b :: rest) = (b == ':' && a.isAlpha) := by
  by_cases h : b = ':'
  · subst h
    rfl
  · simp [hasDrive, h]

/-- Turning separators round makes no drive and loses none. -/
theorem hasDrive_map_forward (p : List Char) : hasDrive ('/' :: p.map (forward drives)) = hasDrive ('/' :: p) := by
  have hletter : ∀ c, (forward drives c).isAlpha = c.isAlpha := by
    intro c
    unfold forward
    split
    · next h =>
      rw [beq_iff_eq.mp (Bool.and_eq_true_iff.mp h).2]
      rfl
    · rfl
  have hcolon : ∀ c, (forward drives c == ':') = (c == ':') := by
    intro c
    unfold forward
    split
    · next h =>
      rw [beq_iff_eq.mp (Bool.and_eq_true_iff.mp h).2]
      rfl
    · rfl
  cases p with
  | nil => rfl
  | cons a rest =>
    cases rest with
    | nil => rfl
    | cons b tail => rw [List.map_cons, List.map_cons, hasDrive_cons, hasDrive_cons, hletter, hcolon]

end

/-! ### Normal form -/

theorem normalizePath_map (drives : Bool) (p : List Char) :
    normalizePath drives p = normalizePath false (p.map (forward drives)) := by
  simp only [normalizePath, map_forward, Bool.false_eq_true, if_false]

theorem lowerDrive_of_not_hasDrive {path : List Char} (h : hasDrive path = false) : lowerDrive path = path := by
  simp only [lowerDrive, h, Bool.false_eq_true, if_false]

theorem normalizePath_rooted {rest : List Char} (hsingle : rest.head? ≠ some '/')
    (hdrive : hasDrive ('/' :: rest) = false) :
    normalizePath false ('/' :: rest) = .ok ('/' :: rest, []) := by
  simp only [normalizePath, Bool.false_eq_true, if_false]
  split
  · next heq =>
    cases heq
    exact absurd rfl hsingle
  · rw [rooted, List.head?_cons, if_pos BEq.rfl, lowerDrive_of_not_hasDrive hdrive]

theorem normalizePath_hosted {host share : List Char} (hhost : '/' ∉ host) (hdrive : hasDrive ('/' :: share) = false) :
    normalizePath false ('/' :: '/' :: (host ++ '/' :: share)) = .ok ('/' :: share, host) := by
  simp only [normalizePath, Bool.false_eq_true, if_false, Text.splitFirst_append hhost,
    lowerDrive_of_not_hasDrive hdrive]

theorem normalizePath_driven {letter : Char} (hletter : letter.isAlpha = true) (rest : List Char) :
    normalizePath false (letter :: ':' :: rest) = .ok ('/' :: letter.toLower :: ':' :: rest, []) := by
  have hslash : ¬ letter = '/' := by
    rintro rfl
    exact absurd hletter (by decide)
  have hrooted : rooted (letter :: ':' :: rest) = '/' :: letter :: ':' :: rest := by
    simp [rooted, hslash]
  have hdrive : hasDrive ('/' :: letter :: ':' :: rest) = true := hletter
  simp only [normalizePath, Bool.false_eq_true, if_false]
  split
  · next heq =>
    cases heq
  · rw [hrooted, lowerDrive, if_pos hdrive]

theorem smallDrive_of_isSeparator {drives : Bool} {a b : Char} {rest : List Char} (h : isSeparator drives b = true) :
    smallDrive (a :: b :: rest) = a :: b :: rest := by
  unfold smallDrive
  split
  · next heq =>
    cases heq
    cases drives <;> exact absurd h (by decide)
  · rfl

/-! ### There and back -/

/-- A path comes back from its URI in its one spelling, and that spelling has the same URI. -/
def ComesBack (drives : Bool) (p : List Char) : Prop :=
  ∃ uri, ofPath drives (String.ofList p) = .ok uri ∧
    toPath drives uri = .ok (String.ofList (canonical drives p)) ∧
    ofPath drives (String.ofList (canonical drives p)) = .ok uri

/-- It is enough that a path and a spelling `q` of it have the same parts, and that these name `q`. -/
theorem comesBack_of_parts {drives : Bool} {p q authority path : List Char}
    (hcanonical : canonical drives p = q.map (backward drives))
    (hparts : normalizePath false (p.map (forward drives)) = .ok (path, authority))
    (hsame : normalizePath false (q.map (forward drives)) = .ok (path, authority)) (hfiled : Filed authority path)
    (hnamed : pathOf (ofFile authority path) = q.map (forward drives)) : ComesBack drives p := by
  have hback : (q.map (forward drives)).map (backward drives) = canonical drives p := by
    rw [hcanonical, List.map_map]
    exact List.map_congr_left fun c _ => backward_forward c
  have hforth : (canonical drives p).map (forward drives) = q.map (forward drives) := by
    rw [hcanonical, List.map_map]
    exact List.map_congr_left fun c _ => forward_backward c
  refine ⟨render (ofFile authority path), ?_, ?_, ?_⟩
  · rw [ofPath, String.toList_ofList, normalizePath_map, hparts]
    rfl
  · rw [toPath, parse_render_ofFile hfiled]
    show Except.ok (String.ofList (if drives then _ else _)) = _
    rw [map_backward, hnamed, hback]
  · rw [ofPath, String.toList_ofList, normalizePath_map, hforth, hsame]
    rfl

theorem comesBack_rooted {rest : List Char} (hsingle : rest.head? ≠ some '/')
    (hdrive : hasDrive ('/' :: rest) = false) : ComesBack false ('/' :: rest) := by
  have hforward : ('/' :: rest).map (forward false) = '/' :: rest := (map_forward false _).symm
  have hparts : normalizePath false (('/' :: rest).map (forward false)) = .ok ('/' :: rest, []) := by
    rw [hforward, normalizePath_rooted hsingle hdrive]
  refine comesBack_of_parts (map_backward false _) hparts hparts ⟨List.not_mem_nil, rest, rfl, fun _ => hsingle⟩ ?_
  rw [hforward]
  simp [pathOf, ofFile, hdrive]

theorem comesBack_hosted {drives : Bool} {a b c : Char} {host share : List Char} (ha : isSeparator drives a = true)
    (hb : isSeparator drives b = true) (hc : isSeparator drives c = true) (hhost : host ≠ [])
    (hwhole : ∀ d ∈ host, isSeparator drives d = false) (hdrive : hasDrive ('/' :: share) = false) :
    ComesBack drives (a :: b :: (host ++ c :: share)) := by
  have hslash : '/' ∉ host := by
    intro hmem
    have hno := hwhole '/' hmem
    rw [isSeparator, beq_self_eq_true, Bool.true_or] at hno
    cases hno
  have hforward : (a :: b :: (host ++ c :: share)).map (forward drives) =
      '/' :: '/' :: (host ++ '/' :: share.map (forward drives)) := by
    have hkept : host.map (forward drives) = host := by
      rw [List.map_congr_left fun d hd => forward_of_not_isSeparator (hwhole d hd)]
      exact List.map_id host
    simp only [List.map_cons, List.map_append, forward_of_isSeparator ha, forward_of_isSeparator hb,
      forward_of_isSeparator hc, hkept]
  have hcanonical : canonical drives (a :: b :: (host ++ c :: share)) =
      (a :: b :: (host ++ c :: share)).map (backward drives) := by
    rw [canonical, smallDrive_of_isSeparator hb, map_backward]
  have hparts : normalizePath false ((a :: b :: (host ++ c :: share)).map (forward drives)) =
      .ok ('/' :: share.map (forward drives), host) := by
    rw [hforward]
    apply normalizePath_hosted hslash
    rw [hasDrive_map_forward, hdrive]
  refine comesBack_of_parts hcanonical hparts hparts ⟨hslash, _, rfl, fun hnil => absurd hnil hhost⟩ ?_
  rw [hforward]
  simp [pathOf, ofFile, hhost]

theorem comesBack_driven {letter separator : Char} (hletter : letter.isAlpha = true)
    (hseparator : isSeparator true separator = true) (rest : List Char) :
    ComesBack true (letter :: ':' :: separator :: rest) := by
  have hforward : ∀ {letter : Char}, letter.isAlpha = true →
      (letter :: ':' :: separator :: rest).map (forward true) = letter :: ':' :: '/' :: rest.map (forward true) := by
    intro letter hletter
    simp only [List.map_cons, forward_of_not_isSeparator (not_isSeparator_of_isAlpha hletter),
      forward_of_isSeparator hseparator]
    rfl
  -- The two spellings differ in the letter, and the normal form has the small one.
  obtain ⟨hlower, hagain⟩ := toLower_of_isAlpha hletter
  have hparts : normalizePath false ((letter :: ':' :: separator :: rest).map (forward true)) =
      .ok ('/' :: letter.toLower :: ':' :: '/' :: rest.map (forward true), []) := by
    rw [hforward hletter, normalizePath_driven hletter]
  have hsame : normalizePath false ((letter.toLower :: ':' :: separator :: rest).map (forward true)) =
      .ok ('/' :: letter.toLower :: ':' :: '/' :: rest.map (forward true), []) := by
    rw [hforward hlower, normalizePath_driven hlower, hagain]
  have hdrive : hasDrive ('/' :: letter.toLower :: ':' :: '/' :: rest.map (forward true)) = true := hlower
  have hnamed : pathOf (ofFile [] ('/' :: letter.toLower :: ':' :: '/' :: rest.map (forward true))) =
      (letter.toLower :: ':' :: separator :: rest).map (forward true) := by
    rw [hforward hlower]
    simp [pathOf, ofFile, hdrive, drivePath, hagain]
  refine comesBack_of_parts rfl hparts hsame ⟨List.not_mem_nil, _, rfl, fun _ hslash => ?_⟩ hnamed
  rw [Option.some.inj hslash] at hlower
  exact absurd hlower (by decide)

/-- **A path comes back from its URI.** Every addressable path has a URI. Its path is the one spelling of the first one,
which on a system without drives is the path itself, and that spelling has the same URI. -/
theorem path_of_uri_of_path {drives : Bool} {p : String} (h : Addressable drives p.toList) :
    ∃ uri, ofPath drives p = .ok uri ∧
      toPath drives uri = .ok (String.ofList (canonical drives p.toList)) ∧
      ofPath drives (String.ofList (canonical drives p.toList)) = .ok uri := by
  have hback : ComesBack drives p.toList := by
    generalize p.toList = chars at h
    cases h with
    | rooted hsingle hdrive => exact comesBack_rooted hsingle hdrive
    | hosted ha hb hc hhost hwhole hdrive => exact comesBack_hosted ha hb hc hhost hwhole hdrive
    | driven hletter hseparator => exact comesBack_driven hletter hseparator _
  rw [ComesBack, String.ofList_toList] at hback
  exact hback

/-- A path with signs that a URI uses for itself, a drive with mixed separators, and a host with a share. -/
theorem path_of_uri_of_path_three_paths :
    (∃ uri, ofPath false "/a b;c/%41?#[é𝄞" = .ok uri ∧ toPath false uri = .ok "/a b;c/%41?#[é𝄞") ∧
      (∃ uri, ofPath true "C:/x\\ü.py" = .ok uri ∧ toPath true uri = .ok "c:\\x\\ü.py" ∧
        ofPath true "c:\\x\\ü.py" = .ok uri) ∧
      ∃ uri, ofPath true "\\\\h@st\\a/b" = .ok uri ∧ toPath true uri = .ok "\\\\h@st\\a\\b" := by
  have hrooted : Addressable false "/a b;c/%41?#[é𝄞".toList := .rooted (by decide) rfl
  have hdriven : Addressable true "C:/x\\ü.py".toList := .driven rfl rfl
  have hhosted : Addressable true "\\\\h@st\\a/b".toList :=
    @Addressable.hosted true '\\' '\\' '\\' ['h', '@', 's', 't'] ['a', '/', 'b'] rfl rfl rfl nofun
      (by simp [isSeparator]) rfl
  refine ⟨?_, ?_, ?_⟩
  · obtain ⟨uri, hof, hto, -⟩ := path_of_uri_of_path hrooted
    exact ⟨uri, hof, hto⟩
  · obtain ⟨uri, hof, hto, hagain⟩ := path_of_uri_of_path hdriven
    exact ⟨uri, hof, hto, hagain⟩
  · obtain ⟨uri, hof, hto, -⟩ := path_of_uri_of_path hhosted
    exact ⟨uri, hof, hto⟩

end Uri

end EditorService
