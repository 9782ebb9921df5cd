import EditorService.Feature.Location
import EditorService.Proofs.FeatureJobs
import EditorService.Proofs.FilePaths

/-!
# Locations and the files they name

The engine names a file by its path. In a location the file has a URI, and this URI is written from two files: it has the
path of the file that is named, and everything else from the document at hand, the host included. The URI that the service
writes for a path on its own has the host of the path.

**The law** (`locations_name_file_iff`): a location leads to the file that the engine named exactly if the document's
authority names the host of that file. So locations are right among the files of one host. A library on this machine that
is used by a document on another one is sought on that other one.
-/

namespace EditorService

namespace Uri

variable {drives : Bool}

/-! ## Hosts -/

/-- **The host that a path names**: what stands between two separators in front and the next one. -/
def hostOf (drives : Bool) : List Char → List Char
  | a :: b :: rest =>
    if isSeparator drives a && isSeparator drives b then rest.takeWhile fun c => !isSeparator drives c else []
  | _ => []

/-- **The host that an authority names.** Separators in it are part of the path of the file, so two of them in front only
say once more that a host follows. -/
def hostNamed (drives : Bool) : List Char → List Char
  | '/' :: c :: rest => if isSeparator drives c && !rest.isEmpty then rest else '/' :: c :: rest
  | authority => authority

theorem not_isSeparator_of_mem_hostOf {p : List Char} {c : Char} (h : c ∈ hostOf drives p) :
    isSeparator drives c = false := by
  unfold hostOf at h
  split at h
  · split at h
    · simpa using List.all_eq_true.mp List.all_takeWhile c h
    · exact nomatch h
  · exact nomatch h

theorem forward_eq_slash {c : Char} : forward drives c = '/' ↔ isSeparator drives c = true := by
  constructor
  · intro h
    by_contra hno
    rw [Bool.not_eq_true] at hno
    rw [forward_of_not_isSeparator hno] at h
    rw [h, isSeparator, BEq.rfl, Bool.true_or] at hno
    cases hno
  · exact forward_of_isSeparator

theorem splitFirst_map_forward (drives : Bool) (rest : List Char) :
    (Text.splitFirst '/' (rest.map (forward drives))).1 = rest.takeWhile fun c => !isSeparator drives c := by
  induction rest with
  | nil => rfl
  | cons c rest ih =>
    rw [List.map_cons, Text.splitFirst]
    by_cases hc : isSeparator drives c = true
    · rw [forward_of_isSeparator hc, if_pos BEq.rfl, List.takeWhile_cons_of_neg (by simp [hc])]
    · have hplain : ¬ (forward drives c == '/') = true := fun heq => hc (forward_eq_slash.mp (beq_iff_eq.mp heq))
      rw [if_neg hplain, List.takeWhile_cons_of_pos (by simpa using hc), ← ih,
        forward_of_not_isSeparator (Bool.not_eq_true _ ▸ hc)]

/-- A path that starts with two separators. -/
theorem map_forward_eq_host {p rest' : List Char} (h : p.map (forward drives) = '/' :: '/' :: rest') :
    ∃ a b rest, p = a :: b :: rest ∧ isSeparator drives a = true ∧ isSeparator drives b = true ∧
      rest' = rest.map (forward drives) := by
  rcases p with _ | ⟨a, _ | ⟨b, rest⟩⟩
  · simp at h
  · simp at h
  · simp only [List.map_cons, List.cons.injEq, forward_eq_slash] at h
    exact ⟨a, b, rest, rfl, h.1, h.2.1, h.2.2.symm⟩

theorem lowerDrive_slash (rest : List Char) : ∃ rest', lowerDrive ('/' :: rest) = '/' :: rest' := by
  unfold lowerDrive
  split
  · split
    · next heq =>
      cases heq
      exact ⟨_, rfl⟩
    · exact ⟨rest, rfl⟩
  · exact ⟨rest, rfl⟩

theorem rooted_slash (path : List Char) : ∃ rest, rooted path = '/' :: rest := by
  unfold rooted
  split
  · next hhead => exact List.head?_eq_some_iff.mp (beq_iff_eq.mp hhead)
  · exact ⟨path, rfl⟩

/-- **The parts of a path**: the path behind the host starts with a separator, and the host is the one that is named. -/
theorem normalizePath_eq_ok {p path host : List Char} (h : normalizePath drives p = .ok (path, host)) :
    (∃ rest, path = '/' :: rest) ∧ host = hostOf drives p := by
  rw [normalizePath_map] at h
  simp only [normalizePath, Bool.false_eq_true, if_false] at h
  split at h
  · next rest' hp =>
    obtain ⟨a, b, rest, rfl, ha, hb, rfl⟩ := map_forward_eq_host hp
    have hhost := splitFirst_map_forward drives rest
    split at h
    · next cut host' after hcut =>
      cases h
      rw [hcut] at hhost
      refine ⟨lowerDrive_slash after, ?_⟩
      rw [hostOf, ha, hb]
      exact hhost
    · cases h
  · next hp =>
    cases h
    obtain ⟨rest, hrest⟩ := rooted_slash (p.map (forward drives))
    rw [hrest]
    refine ⟨lowerDrive_slash rest, ?_⟩
    unfold hostOf
    split
    · next a b tail =>
      split
      · next hboth =>
        obtain ⟨ha, hb⟩ := Bool.and_eq_true_iff.mp hboth
        refine absurd ?_ (hp (tail.map (forward drives)))
        simp [forward_of_isSeparator ha, forward_of_isSeparator hb]
      · rfl
    · rfl

/-- **A host and nothing behind it.** -/
def BareHost (drives : Bool) (p : List Char) : Prop :=
  ∃ a b host, p = a :: b :: host ∧ isSeparator drives a = true ∧ isSeparator drives b = true ∧
    ∀ c ∈ host, isSeparator drives c = false

theorem notMem_of_splitFirst {mark : Char} {s : List Char} (h : (Text.splitFirst mark s).2 = none) : mark ∉ s := by
  intro hmem
  induction s with
  | nil => cases hmem
  | cons c s ih =>
    rw [Text.splitFirst] at h
    split at h
    · cases h
    · next hc =>
      rcases List.mem_cons.mp hmem with rfl | hmem
      · exact hc BEq.rfl
      · exact ih h hmem

/-- The only paths without parts. -/
theorem bareHost_of_error {p : List Char} {f : Fault} (h : normalizePath drives p = .error f) : BareHost drives p := by
  rw [normalizePath_map] at h
  simp only [normalizePath, Bool.false_eq_true, if_false] at h
  split at h
  · next rest' hp =>
    obtain ⟨a, b, host, rfl, ha, hb, rfl⟩ := map_forward_eq_host hp
    split at h
    · cases h
    · next hcut =>
      refine ⟨a, b, host, rfl, ha, hb, fun c hc => ?_⟩
      cases hsep : isSeparator drives c with
      | false => rfl
      | true =>
        refine absurd (List.mem_map.mpr ⟨c, hc, forward_of_isSeparator hsep⟩) (notMem_of_splitFirst ?_)
        rw [hcut]
  · cases h

/-! ## The file of a URI -/

/-- **The file that a URI leads to**, by what stands behind its two separators. -/
def fileAt (text : List Char) : List Char :=
  pathOf (ofFile (text.takeWhile (· != '/')) (text.dropWhile (· != '/')))

theorem toPath_render_file (drives : Bool) {u : Uri} (hscheme : u.scheme = "file") (hparameters : u.parameters = "")
    {rest : List Char} (hpath : u.path.toList = '/' :: rest) :
    toPath drives (render u) =
      .ok (String.ofList ((fileAt (behind u.authority.toList u.path.toList)).map (backward drives))) := by
  rw [toPath, parse_render_file hscheme hparameters hpath]
  show Except.ok (String.ofList (if drives then _ else _)) = _
  rw [map_backward]
  simp only [fileAt, pathOf, ofFile, hscheme]
  rfl

theorem fileAt_eq (text : List Char) :
    fileAt text =
      if text.takeWhile (· != '/') ≠ [] ∧ text.dropWhile (· != '/') ≠ [] then '/' :: '/' :: text
      else if hasDrive (text.dropWhile (· != '/')) then drivePath (text.dropWhile (· != '/'))
      else text.dropWhile (· != '/') := by
  have hwhole : text.takeWhile (· != '/') ++ text.dropWhile (· != '/') = text := List.takeWhile_append_dropWhile
  simp only [fileAt, pathOf, ofFile, String.toList_ofList, List.cons_append, hwhole]
  congr 1
  simp

theorem fileAt_of_slash (rest : List Char) :
    fileAt ('/' :: rest) = if hasDrive ('/' :: rest) then drivePath ('/' :: rest) else '/' :: rest := by
  simp [fileAt_eq]

theorem fileAt_of_host {host : List Char} {c : Char} (hc : c ≠ '/') (rest : List Char) :
    fileAt (c :: host ++ '/' :: rest) = '/' :: '/' :: (c :: host ++ '/' :: rest) := by
  rw [fileAt_eq, if_pos]
  refine ⟨by simp [hc], ?_⟩
  intro hnone
  have hwhole := List.takeWhile_append_dropWhile (p := (· != '/')) (l := c :: host ++ '/' :: rest)
  rw [hnone, List.append_nil] at hwhole
  have hall := List.all_takeWhile (p := (· != '/')) (l := c :: host ++ '/' :: rest)
  rw [hwhole] at hall
  simp at hall

theorem length_drivePath_of_hasDrive {path : List Char} (h : hasDrive path = true) :
    (drivePath path).length + 1 = path.length := by
  obtain ⟨letter, rest, rfl, -⟩ := hasDrive_eq_true h
  rfl

/-- Without an authority, the file of a URI is not longer than its path. -/
theorem length_fileAt_behind_nil (rest : List Char) : (fileAt (behind [] ('/' :: rest))).length ≤ rest.length + 1 := by
  have hlocal : ∀ text : List Char, (if hasDrive text then drivePath text else text).length ≤ text.length := by
    intro text
    split
    · next hdrive => exact Nat.le_of_succ_le (Nat.le_of_eq (length_drivePath_of_hasDrive hdrive))
    · exact Nat.le_refl _
  unfold behind
  split
  · next htwo =>
    cases rest with
    | nil => exact absurd htwo.2 (by simp)
    | cons d rest =>
      rw [List.drop_succ_cons, List.drop_succ_cons, List.drop_zero, fileAt_eq]
      split
      · simp
      · refine Nat.le_trans (hlocal _) ?_
        have hle := (List.dropWhile_sublist (l := rest) (· != '/')).length_le
        simp only [List.length_cons]
        omega
  · rw [List.nil_append, fileAt_of_slash]
    exact hlocal ('/' :: rest)

/-- With one, it is longer. -/
theorem length_lt_fileAt {authority : List Char} (h : authority ≠ []) (rest : List Char) :
    rest.length + 1 < (fileAt (authority ++ '/' :: rest)).length := by
  cases authority with
  | nil => exact absurd rfl h
  | cons c authority =>
    by_cases hc : c = '/'
    · subst hc
      rw [List.cons_append, fileAt_of_slash]
      split
      · next hdrive =>
        have hlength := length_drivePath_of_hasDrive hdrive
        cases authority with
        | nil =>
          obtain ⟨letter, tail, heq, hletter⟩ := hasDrive_eq_true hdrive
          cases heq
          exact absurd hletter (by decide)
        | cons d authority =>
          simp only [List.length_cons, List.length_append] at hlength ⊢
          omega
      · simp only [List.length_cons, List.length_append]
        omega
    · rw [fileAt_of_host hc]
      simp only [List.length_cons, List.length_append]
      omega

theorem behind_of_ne_nil {authority : List Char} (h : authority ≠ []) (path : List Char) :
    behind authority path = authority ++ path := if_neg fun hbare => h hbare.1

/-! ## Two URIs for one path -/

/-- Turning separators round cannot hide what is no separator. -/
theorem eq_of_backward {c d : Char} (h : backward drives c = backward drives d) (hd : isSeparator drives d = false) :
    c = d := by
  have hforward : forward drives c = d := by
    rw [← forward_backward, h, forward_backward, forward_of_not_isSeparator hd]
  cases hc : isSeparator drives c with
  | false => rwa [forward_of_not_isSeparator hc] at hforward
  | true =>
    rw [forward_of_isSeparator hc] at hforward
    rw [← hforward, isSeparator, BEq.rfl, Bool.true_or] at hd
    cases hd

theorem map_backward_inj {text host : List Char} (hhost : ∀ c ∈ host, isSeparator drives c = false) :
    text.map (backward drives) = host.map (backward drives) ↔ text = host := by
  refine ⟨fun h => ?_, fun h => by rw [h]⟩
  induction text generalizing host with
  | nil => exact (List.map_eq_nil_iff.mp h.symm).symm
  | cons c text ih =>
    cases host with
    | nil => exact nomatch h
    | cons d host =>
      simp only [List.map_cons, List.cons.injEq] at h
      rw [eq_of_backward h.1 (hhost d List.mem_cons_self), ih (fun x hx => hhost x (List.mem_cons_of_mem d hx)) h.2]

theorem backward_eq_slash {c : Char} : backward drives c = backward drives '/' ↔ isSeparator drives c = true := by
  constructor
  · intro h
    rw [← forward_eq_slash, ← forward_backward, h, forward_backward]
    exact forward_of_isSeparator (by simp [isSeparator])
  · intro hc
    rw [← backward_forward, forward_of_isSeparator hc]

theorem hostNamed_of_ne_slash {c : Char} (hc : c ≠ '/') (rest : List Char) :
    hostNamed drives (c :: rest) = c :: rest := by
  unfold hostNamed
  split
  · next heq =>
    cases heq
    exact absurd rfl hc
  · rfl

theorem hostNamed_eq_nil {authority : List Char} (h : hostNamed drives authority = []) : authority = [] := by
  unfold hostNamed at h
  split at h
  · split at h
    · next hboth =>
      rw [h] at hboth
      simp at hboth
    · exact nomatch h
  · exact h

/-- Which authorities that start with a separator name a host. -/
theorem hostNamed_slash_iff {d : Char} (hd : d ≠ '/') {authority host : List Char} :
    hostNamed drives ('/' :: authority) = d :: host ↔ ∃ c, isSeparator drives c = true ∧ authority = c :: d :: host := by
  cases authority with
  | nil =>
    refine iff_of_false (fun h => ?_) (fun ⟨_, _, h⟩ => nomatch h)
    exact hd (List.cons.inj h).1.symm
  | cons c rest =>
    rw [hostNamed]
    split
    · next hboth =>
      have hc := (Bool.and_eq_true_iff.mp hboth).1
      refine ⟨fun h => ⟨c, hc, by rw [h]⟩, fun ⟨_, _, h⟩ => (List.cons.inj h).2⟩
    · next hnot =>
      refine iff_of_false (fun h => hd (List.cons.inj h).1.symm) ?_
      rintro ⟨_, hc, heq⟩
      cases heq
      exact hnot (by rw [hc]; rfl)

/-- With an authority and without one, the files differ: the one is longer than the other. -/
theorem fileAt_authority_ne (c : Char) (authority rest : List Char) :
    (fileAt (behind (c :: authority) ('/' :: rest))).map (backward drives) ≠
      (fileAt (behind [] ('/' :: rest))).map (backward drives) := by
  intro heq
  have hlength := congrArg List.length heq
  have hshort := length_fileAt_behind_nil rest
  have hlong := length_lt_fileAt (List.cons_ne_nil c authority) rest
  rw [List.length_map, List.length_map, behind_of_ne_nil (List.cons_ne_nil c authority)] at hlength
  omega

theorem map_backward_cancel (text text' rest : List Char) :
    ('/' :: (text ++ rest)).map (backward drives) = ('/' :: (text' ++ rest)).map (backward drives) ↔
      text.map (backward drives) = text'.map (backward drives) := by
  rw [List.map_cons, List.map_cons, List.cons_inj_right, List.map_append, List.map_append, List.append_cancel_right_eq]

/-- **An authority that starts with a separator** leads to the file of a host only by a second separator and the host. -/
theorem fileAt_slash_eq_iff {d : Char} {authority host : List Char} (hd : d ≠ '/')
    (hhost : ∀ c ∈ d :: host, isSeparator drives c = false) (rest : List Char) :
    (fileAt ('/' :: (authority ++ '/' :: rest))).map (backward drives) =
        ('/' :: '/' :: (d :: host ++ '/' :: rest)).map (backward drives) ↔
      hostNamed drives ('/' :: authority) = d :: host := by
  rw [hostNamed_slash_iff hd, fileAt_of_slash]
  split
  · next hdrive =>
    -- The file starts with the letter of a drive, and so does not start with a separator.
    obtain ⟨letter, tail, heq, hletter⟩ := hasDrive_eq_true hdrive
    have hplain : isSeparator drives letter.toLower = false :=
      not_isSeparator_of_isAlpha (toLower_of_isAlpha hletter).1
    refine iff_of_false (fun hsame => ?_) ?_
    · rw [heq] at hsame
      have hhead := backward_eq_slash.mp (List.cons.inj hsame).1
      rw [hplain] at hhead
      exact nomatch hhead
    · rintro ⟨e, he, rfl⟩
      cases heq
      rw [not_isSeparator_of_isAlpha hletter] at he
      exact nomatch he
  · refine (map_backward_cancel authority ('/' :: d :: host) ('/' :: rest)).trans ?_
    rw [List.map_cons]
    constructor
    · intro hsame
      cases authority with
      | nil => exact nomatch hsame
      | cons e more =>
        obtain ⟨he, hmore⟩ := List.cons.inj hsame
        exact ⟨e, backward_eq_slash.mp he, by rw [(map_backward_inj hhost).mp hmore]⟩
    · rintro ⟨e, he, rfl⟩
      rw [List.map_cons, backward_eq_slash.mpr he]

/-- **Two authorities lead to one file**, with the same path behind them, exactly if they name the same host. -/
theorem fileAt_eq_iff {authority host : List Char} (hhost : ∀ c ∈ host, isSeparator drives c = false) (rest : List Char) :
    (fileAt (behind authority ('/' :: rest))).map (backward drives) =
        (fileAt (behind host ('/' :: rest))).map (backward drives) ↔
      hostNamed drives authority = host := by
  cases host with
  | nil =>
    cases authority with
    | nil => exact iff_of_true rfl rfl
    | cons c authority =>
      refine iff_of_false (fileAt_authority_ne c authority rest) fun h => ?_
      cases hostNamed_eq_nil h
  | cons d host =>
    have hd : d ≠ '/' := by
      rintro rfl
      have hno := hhost '/' List.mem_cons_self
      simp [isSeparator] at hno
    cases authority with
    | nil => exact iff_of_false (fileAt_authority_ne d host rest).symm (List.cons_ne_nil d host).symm
    | cons c authority =>
      rw [behind_of_ne_nil (List.cons_ne_nil c authority), behind_of_ne_nil (List.cons_ne_nil d host), fileAt_of_host hd]
      by_cases hc : c = '/'
      · subst hc
        exact fileAt_slash_eq_iff hd hhost rest
      · rw [fileAt_of_host hc, hostNamed_of_ne_slash hc]
        refine (map_backward_cancel ('/' :: c :: authority) ('/' :: d :: host) ('/' :: rest)).trans ?_
        rw [List.map_cons (a := '/'), List.map_cons (a := '/'), List.cons_inj_right]
        exact map_backward_inj hhost

/-! ## The document's own URI -/

theorem split_eq_ok {s : String} {u : Uri} (h : split s = .ok u) :
    u.scheme = String.ofList (cutScheme (cleaned s.toList)).1 ∧
      (schemesWithParameters.contains u.scheme = false → u.parameters = "") := by
  obtain ⟨_, -, h⟩ := Fault.bind_eq_ok.mp h
  obtain ⟨_, -, h⟩ := Fault.bind_eq_ok.mp h
  cases h
  refine ⟨rfl, fun hnone => ?_⟩
  dsimp only at hnone ⊢
  rw [hnone]
  rfl

/-- The characters of a scheme, in small letters. -/
theorem mem_cutScheme {s : List Char} {c : Char} (h : c ∈ (cutScheme s).1) : c.toNat < 128 ∧ c ≠ '%' := by
  have hlower : ∀ n < 128, (Char.ofNat n).toLower.toNat < 128 ∧ (n = 37 ∨ (Char.ofNat n).toLower ≠ '%') := by decide
  have hscheme : ∀ d, isSchemeChar d = true → d.toLower.toNat < 128 ∧ d.toLower ≠ '%' := by
    intro d hd
    have hsmall : d.toNat < 128 ∧ d.toNat ≠ 37 := by
      simp only [isSchemeChar, Bool.or_eq_true, beq_iff_eq] at hd
      rcases hd with ((hd | rfl) | rfl) | rfl
      · refine ⟨toNat_lt_of_isAlphanum hd, fun heq => ?_⟩
        rw [← Char.ofNat_toNat d, heq] at hd
        exact absurd hd (by decide)
      all_goals decide
    have hall := hlower d.toNat hsmall.1
    rw [Char.ofNat_toNat] at hall
    exact ⟨hall.1, hall.2.resolve_left hsmall.2⟩
  unfold cutScheme at h
  split at h
  · split at h
    · split at h
      · next hchars =>
        obtain ⟨d, hd, rfl⟩ := List.mem_map.mp h
        exact hscheme d (List.all_eq_true.mp (Bool.and_eq_true_iff.mp hchars).2 d hd)
      · exact nomatch h
    · exact nomatch h
  · exact nomatch h

/-- A text without escapes is decoded to itself. -/
theorem decode_plain {s : List Char} (h : ∀ c ∈ s, c.toNat < 128 ∧ c ≠ '%') : decode s = s := by
  refine decode_of_octets (fun c hc => (h c hc).1) ?_
  induction s with
  | nil => rfl
  | cons c s ih =>
    obtain ⟨hascii, hpercent⟩ := h c List.mem_cons_self
    rw [octets_plain hascii hpercent, ih fun d hd => h d (List.mem_cons_of_mem c hd)]
    rfl

/-- **The URI of a file has no parameters.** -/
theorem parameters_of_file {s : String} {u : Uri} (h : parse s = .ok u) (hscheme : u.scheme = "file") :
    u.parameters = "" := by
  obtain ⟨w, hw, h⟩ := Fault.bind_eq_ok.mp h
  cases h
  obtain ⟨hcut, hnone⟩ := split_eq_ok hw
  have hfile : w.scheme = "file" := by
    rw [← hscheme]
    dsimp only
    rw [decoded, hcut, String.toList_ofList, decode_plain fun c hc => mem_cutScheme hc]
  have hempty : w.parameters = "" := hnone (by rw [hfile]; decide)
  dsimp only
  rw [hempty]
  rfl

end Uri

namespace Feature

open EditorService.Tool (Definition)
open EditorService.Uri (hostOf hostNamed BareHost normalizePath normalizePath_eq_ok)

variable {drives : Bool}

/-- The URI in a location has everything from the document's URI but the path. -/
theorem uriOfFile_eq {u : String} {own : Uri} (h : Uri.parse u = .ok own) {p : String} {path host : List Char}
    (hp : normalizePath drives p.toList = .ok (path, host)) :
    uriOfFile drives u p = .ok (Uri.render { own with path := String.ofList path }) := by
  obtain ⟨⟨rest, rfl⟩, -⟩ := normalizePath_eq_ok hp
  have hpath : ∀ old, Uri.orElse (some (String.ofList ('/' :: rest))) old = String.ofList ('/' :: rest) := by
    intro old
    simp [Uri.orElse]
  simp only [uriOfFile, Uri.replaceParts, h, Uri.newPath, hp, Except.map, bind, Except.bind, hpath]
  rfl

/-- **A location leads to the file that the engine named** exactly if the document's authority names the host of that
file. A host with nothing behind it has no URI in either way. -/
theorem file_of_location {u : String} {own : Uri} (h : Uri.parse u = .ok own) (hscheme : own.scheme = "file") (p : String) :
    (BareHost drives p.toList ∧ ∃ f, uriOfFile drives u p = .error f ∧ Uri.ofPath drives p = .error f) ∨
      ∃ shown alone file named, uriOfFile drives u p = .ok shown ∧ Uri.ofPath drives p = .ok alone ∧
        Uri.toPath drives shown = .ok file ∧ Uri.toPath drives alone = .ok named ∧
        (file = named ↔ hostNamed drives own.authority.toList = hostOf drives p.toList) := by
  cases hp : normalizePath drives p.toList with
  | error f =>
    refine .inl ⟨Uri.bareHost_of_error hp, f, ?_, ?_⟩
    · simp only [uriOfFile, Uri.replaceParts, h, Uri.newPath, hp, Except.map, bind, Except.bind]
    · simp only [Uri.ofPath, hp, bind, Except.bind]
  | ok parts =>
    obtain ⟨path, host⟩ := parts
    have halone : Uri.ofPath drives p = .ok (Uri.render (Uri.ofFile host path)) := by
      simp only [Uri.ofPath, hp, bind, Except.bind]
      rfl
    obtain ⟨⟨rest, rfl⟩, rfl⟩ := normalizePath_eq_ok hp
    have hshown := uriOfFile_eq h hp
    have hpath : (String.ofList ('/' :: rest)).toList = '/' :: rest := String.toList_ofList
    have hparameters := Uri.parameters_of_file h hscheme
    have hfile := Uri.toPath_render_file drives (u := { own with path := String.ofList ('/' :: rest) })
      hscheme hparameters hpath
    have hnamed := Uri.toPath_render_file drives (u := Uri.ofFile (hostOf drives p.toList) ('/' :: rest))
      rfl rfl hpath
    refine .inr ⟨_, _, _, _, hshown, halone, hfile, hnamed, ?_⟩
    rw [String.ofList_inj]
    simp only [Uri.ofFile, String.toList_ofList]
    exact Uri.fileAt_eq_iff (fun c hc => Uri.not_isSeparator_of_mem_hostOf hc) rest

/-! ## The locations that are answered -/

/-- **A location shows a definition** that names a file. -/
def Shows (drives : Bool) (documentUri : String) (d : Definition) (l : Location) : Prop :=
  ∃ p, d.modulePath = some p ∧ uriOfFile drives documentUri p = .ok l.uri ∧ nameRange d = .ok l.range

theorem locationIn_eq_ok {u p : String} {d : Definition} {l : Location} (h : locationIn drives u p d = .ok l) :
    uriOfFile drives u p = .ok l.uri ∧ nameRange d = .ok l.range := by
  obtain ⟨uri, huri, h⟩ := Fault.bind_eq_ok.mp h
  obtain ⟨range, hrange, h⟩ := Fault.bind_eq_ok.mp h
  cases h
  exact ⟨huri, hrange⟩

/-- **What the answer to a definition request is made of.** -/
theorem definitions_eq_ok {config : Config} {v : DocumentView} {position value : Value} {b b' : Bench}
    (h : (definitions config v position).perform b = (.ok value, b')) :
    ∃ found locations, b.host.answers.engine.goto = .ok found ∧ value = .list (locations.map Location.toValue) ∧
      List.Forall₂ (Shows b.host.drives v.document.uri) (found.filter fun d => d.isDefinition && hasPlace d) locations := by
  obtain ⟨settings, b₁, hsettings, h⟩ := Job.perform_bind_eq_ok.mp h
  obtain ⟨place, b₂, hplace, h⟩ := Job.perform_bind_eq_ok.mp h
  obtain ⟨_, b₃, hopen, h⟩ := Job.perform_bind_eq_ok.mp h
  obtain ⟨imports, b₄, himports, h⟩ := Job.perform_bind_eq_ok.mp h
  obtain ⟨builtIns, b₅, hbuiltIns, h⟩ := Job.perform_bind_eq_ok.mp h
  obtain ⟨found, b₆, hfound, h⟩ := Job.perform_bind_eq_ok.mp h
  have hhost : b₅.host = b.host := by
    rw [(ofExcept_eq_ok hbuiltIns).2, (ofExcept_eq_ok himports).2, host_of_keeps (keeps_openInEngine v _ _) hopen,
      host_of_keeps (keeps_reading (v.document.enginePosition · position)) hplace,
      host_of_keeps (keeps_pluginSettings _ _ _) hsettings]
  obtain ⟨hanswer, hkept⟩ := ask_eq_ok hfound
  replace h := host_bind_eq_ok h
  obtain ⟨locations, b₇, hlocations, h⟩ := Job.perform_bind_eq_ok.mp h
  cases h
  rw [hkept, hhost] at hlocations
  rw [hhost] at hanswer
  refine ⟨found, locations, hanswer, rfl, ?_⟩
  have hplaces : ∀ d ∈ found.filter fun d => d.isDefinition && hasPlace d, ∃ p, d.modulePath = some p := by
    intro d hd
    have hplace := (Bool.and_eq_true_iff.mp (List.mem_filter.mp hd).2).2
    simp only [hasPlace, Bool.and_eq_true] at hplace
    exact Option.isSome_iff_exists.mp hplace.1.2
  refine ((List.forall₂_and_left _ _).mpr ⟨hplaces, mapM_ofExcept_eq_ok hlocations⟩).imp ?_
  rintro d l ⟨⟨p, hp⟩, hl⟩
  rw [hp] at hl
  exact ⟨p, hp, locationIn_eq_ok hl⟩

/-- The definitions whose places are the answer to a request for uses. -/
def uses (withoutDeclaration : Bool) (found : List Definition) : List Definition :=
  (if withoutDeclaration then found.filter fun d => !d.isDefinition else found).filter fun d => !d.isBuiltIn

/-- **What the answer to a request for uses is made of.** A use without a file is in the document itself. -/
theorem references_eq_ok {v : DocumentView} {position value : Value} {withoutDeclaration : Bool} {b b' : Bench}
    (h : (references v position withoutDeclaration).perform b = (.ok value, b')) :
    ∃ found locations, b.host.answers.engine.references = .ok found ∧ value = .list (locations.map Location.toValue) ∧
      List.Forall₂ (fun d l => Shows b.host.drives v.document.uri d l ∨
          (d.modulePath = none ∨ d.modulePath = some "") ∧ l.uri = v.document.uri ∧ nameRange d = .ok l.range)
        (uses withoutDeclaration found) locations := by
  obtain ⟨place, b₁, hplace, h⟩ := Job.perform_bind_eq_ok.mp h
  obtain ⟨_, b₂, hopen, h⟩ := Job.perform_bind_eq_ok.mp h
  obtain ⟨found, b₃, hfound, h⟩ := Job.perform_bind_eq_ok.mp h
  have hhost : b₂.host = b.host := by
    rw [host_of_keeps (keeps_openInEngine v _ _) hopen,
      host_of_keeps (keeps_reading (v.document.enginePosition · position)) hplace]
  obtain ⟨hanswer, hkept⟩ := ask_eq_ok hfound
  replace h := host_bind_eq_ok h
  obtain ⟨locations, b₄, hlocations, h⟩ := Job.perform_bind_eq_ok.mp h
  cases h
  rw [hkept, hhost] at hlocations
  rw [hhost] at hanswer
  refine ⟨found, locations, hanswer, rfl, (mapM_ofExcept_eq_ok hlocations).imp fun d l hl => ?_⟩
  have hown : ∀ {l : Location}, (do return { uri := v.document.uri, range := ← nameRange d : Location }) = Except.ok l →
      l.uri = v.document.uri ∧ nameRange d = .ok l.range := by
    intro l hl
    obtain ⟨range, hrange, hl⟩ := Fault.bind_eq_ok.mp hl
    cases hl
    exact ⟨rfl, hrange⟩
  split at hl
  · next p hp =>
    split at hl
    · next hempty =>
      rw [beq_iff_eq.mp hempty] at hp
      exact .inr ⟨.inr hp, hown hl⟩
    · exact .inl ⟨p, hp, locationIn_eq_ok hl⟩
  · next hp => exact .inr ⟨.inl hp, hown hl⟩

/-- Reads a location: its document, then its range. -/
def Location.ofValue (v : Value) : Except Fault Location := do
  let uri ← (← v.item "uri").text
  let range ← Protocol.Range.ofValue (← v.item "range")
  return ⟨uri, range⟩

theorem Location.ofValue_toValue (l : Location) : ofValue l.toValue = .ok l := rfl

/-- **Locations lead to the files that the engine named, on the host of the document.** The URI that a location has for a
path leads to the same file as the URI of the path itself exactly if the document's authority names the host of the path.
These are the URIs that are answered, for definitions and for uses: the answer reads as the locations. -/
theorem locations_name_file_iff {u : String} {own : Uri} (hparse : Uri.parse u = .ok own) (hscheme : own.scheme = "file") :
    (∀ (drives : Bool) (p : String),
      (BareHost drives p.toList ∧ ∃ f, uriOfFile drives u p = .error f ∧ Uri.ofPath drives p = .error f) ∨
        ∃ shown alone file named, uriOfFile drives u p = .ok shown ∧ Uri.ofPath drives p = .ok alone ∧
          Uri.toPath drives shown = .ok file ∧ Uri.toPath drives alone = .ok named ∧
          (file = named ↔ hostNamed drives own.authority.toList = hostOf drives p.toList)) ∧
    (∀ (config : Config) (v : DocumentView) (position value : Value) (b b' : Bench), v.document.uri = u →
      (definitions config v position).perform b = (.ok value, b') →
      ∃ found locations, b.host.answers.engine.goto = .ok found ∧ value = .list (locations.map Location.toValue) ∧
        (locations.map Location.toValue).mapM Location.ofValue = .ok locations ∧
        List.Forall₂ (Shows b.host.drives u) (found.filter fun d => d.isDefinition && hasPlace d) locations) ∧
    ∀ (v : DocumentView) (position value : Value) (withoutDeclaration : Bool) (b b' : Bench), v.document.uri = u →
      (references v position withoutDeclaration).perform b = (.ok value, b') →
      ∃ found locations, b.host.answers.engine.references = .ok found ∧ value = .list (locations.map Location.toValue) ∧
        (locations.map Location.toValue).mapM Location.ofValue = .ok locations ∧
        List.Forall₂ (fun d l => Shows b.host.drives u d l ∨
            (d.modulePath = none ∨ d.modulePath = some "") ∧ l.uri = u ∧ nameRange d = .ok l.range)
          (uses withoutDeclaration found) locations := by
  refine ⟨fun drives p => file_of_location hparse hscheme p, ?_, ?_⟩
  · rintro config v position value b b' rfl h
    obtain ⟨found, locations, hfound, hvalue, hshown⟩ := definitions_eq_ok h
    exact ⟨found, locations, hfound, hvalue, Fault.mapM_read_write Location.ofValue_toValue locations, hshown⟩
  · rintro v position value withoutDeclaration b b' rfl h
    obtain ⟨found, locations, hfound, hvalue, hshown⟩ := references_eq_ok h
    exact ⟨found, locations, hfound, hvalue, Fault.mapM_read_write Location.ofValue_toValue locations, hshown⟩

/-- A document on a server. -/
def onServer : DocumentView where
  document := {
    uri := "file://server/ws/a.py", path := "//server/ws/a.py", dottedName := "a", fileName := "a.py"
    source := some "import os", home := 0 }
  config := none
  rootPath := "/ws"

/-- A module that a document uses. -/
def usedModule (path : String) : Definition where
  name := "os"
  kind := "module"
  fullName := some "os"
  description := "module os"
  modulePath := some path
  line := some 1
  column := some 0
  index := none
  params := []
  extent := {}
  parent := .ok none
  members := .ok []
  doc := ""
  rawDoc := ""
  signatures := []
  text := ""
  isDefinition := true
  isBuiltIn := false

/-- An engine that finds the module among the files of this machine. -/
def localLibrary : Bench where
  host := { answers := { engine := { goto := .ok [usedModule "/usr/lib/os.py"] } } }

/-- A configuration without settings. -/
def plainConfig : Config where
  id := 0
  rootUri := "file:///ws"
  rootPath := "/ws"
  initOptions := .null
  processId := .null
  capabilities := .null

/-- The library of this machine is sought on the server; a library on the server is found, and so is one on another drive. -/
theorem locations_name_file_iff_library_elsewhere :
    (∃ value b' locations, (definitions plainConfig onServer .null).perform localLibrary = (.ok value, b') ∧
      value = .list (locations.map Location.toValue) ∧
      List.Forall₂ (Shows false "file://server/ws/a.py") [usedModule "/usr/lib/os.py"] locations) ∧
    (∃ shown alone file named, uriOfFile false "file://server/ws/a.py" "/usr/lib/os.py" = .ok shown ∧
      Uri.ofPath false "/usr/lib/os.py" = .ok alone ∧ Uri.toPath false shown = .ok file ∧
      Uri.toPath false alone = .ok named ∧ file ≠ named) ∧
    (∃ shown alone file, uriOfFile false "file://server/ws/a.py" "//server/lib/os.py" = .ok shown ∧
      Uri.ofPath false "//server/lib/os.py" = .ok alone ∧ Uri.toPath false shown = .ok file ∧
      Uri.toPath false alone = .ok file) ∧
    ∃ shown alone file, uriOfFile true "file:///c%3A/ws/a.py?x#y" "D:\\lib\\os.py" = .ok shown ∧
      Uri.ofPath true "D:\\lib\\os.py" = .ok alone ∧ Uri.toPath true shown = .ok file ∧
      Uri.toPath true alone = .ok file := by
  have hserver : Uri.parse "file://server/ws/a.py" =
      .ok { scheme := "file", authority := "server", path := "/ws/a.py" } := Fault.eq_ok_of_toOption (by decide +kernel)
  have hdrive : Uri.parse "file:///c%3A/ws/a.py?x#y" =
      .ok { scheme := "file", path := "/c:/ws/a.py", query := "x", fragment := "y" } :=
    Fault.eq_ok_of_toOption (by decide +kernel)
  obtain ⟨hfiles, hdefinitions, -⟩ := locations_name_file_iff hserver rfl
  refine ⟨?_, ?_, ?_, ?_⟩
  · have hok : ((definitions plainConfig onServer .null).perform localLibrary).1.isOk = true := by decide +kernel
    rcases hrun : (definitions plainConfig onServer .null).perform localLibrary with ⟨_ | value, b'⟩
    · rw [hrun] at hok
      exact nomatch hok
    · obtain ⟨found, locations, hfound, hvalue, -, hlocations⟩ := hdefinitions _ _ _ _ _ _ rfl hrun
      cases hfound
      exact ⟨value, b', locations, rfl, hvalue, hlocations⟩
  · rcases hfiles false "/usr/lib/os.py" with ⟨⟨a, b, host, heq, -, hb, -⟩, -⟩ | ⟨s, t, f, n, hs, ht, hf, hn, hiff⟩
    · cases heq
      exact nomatch hb
    · exact ⟨s, t, f, n, hs, ht, hf, hn, fun heq => absurd (hiff.mp heq) (by decide)⟩
  · rcases hfiles false "//server/lib/os.py" with ⟨⟨a, b, host, heq, -, -, hwhole⟩, -⟩ | ⟨s, t, f, n, hs, ht, hf, hn, hiff⟩
    · cases heq
      exact absurd (hwhole '/' (by decide)) (by decide)
    · cases hiff.mpr (by decide)
      exact ⟨s, t, f, hs, ht, hf, hn⟩
  · rcases (locations_name_file_iff hdrive rfl).1 true "D:\\lib\\os.py" with
      ⟨⟨a, b, host, heq, ha, -, -⟩, -⟩ | ⟨s, t, f, n, hs, ht, hf, hn, hiff⟩
    · cases heq
      exact nomatch ha
    · cases hiff.mpr (by decide)
      exact ⟨s, t, f, hs, ht, hf, hn⟩

end Feature

end EditorService
