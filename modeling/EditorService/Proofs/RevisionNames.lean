import EditorService.Version.Pieces
import EditorService.Version.Style
import EditorService.Proofs.OutputLines
import EditorService.Proofs.Routines

/-!
# Names of revisions, read back

A revision is named by a tag, a number of steps and a hash, with hyphens between them. A tag may hold hyphens of its own, and
may even end in what looks like steps and a hash, or like the mark of changes. It is told apart because what follows it
holds none: digits and hash digits are no hyphens.

* **Reading** (`ofText?_eq_some_iff`): a name is read exactly if it has a tag, digits and a hash, and as these.
* **The mark of changes** (`takeDirty_markDirty`): it is taken off once, at the end.
* **Questions** (`ask_of_answers`): a checkout that answers gives its output, without the blanks around it.

**The law** (`checkout_reads_back`): the pieces of a checkout are the parts of the name of its revision, the tag without the
prefix of tags. If that is empty, the long style gives the name back.
-/

namespace EditorService

namespace Text

theorem splitLast_eq_some_iff {mark : Char} {s front last : List Char} :
    splitLast mark s = (some front, last) ↔ s = front ++ mark :: last ∧ mark ∉ last := by
  constructor
  · intro h
    by_cases hmem : mark ∈ s
    · obtain ⟨back, ahead, hsplit, hback⟩ := List.eq_append_cons_of_mem (List.mem_reverse.mpr hmem)
      have hs : s = ahead.reverse ++ mark :: back.reverse := by
        rw [← List.reverse_reverse s, hsplit]
        simp
      have hnot : mark ∉ back.reverse := by simpa using hback
      rw [hs, splitLast_append hnot] at h
      cases h
      exact ⟨hs, hnot⟩
    · rw [splitLast_of_notMem hmem] at h
      cases h
  · rintro ⟨rfl, hlast⟩
    exact splitLast_append hlast front

theorem dropWhile_of_head? {p : Char → Bool} {s : List Char} (h : ∀ c, s.head? = some c → p c = false) :
    s.dropWhile p = s := by
  cases s with
  | nil => rfl
  | cons c rest => exact List.dropWhile_cons_of_neg (Bool.eq_false_iff.mp (h c rfl))

/-- What is dropped from the end of a text is what was added to it. -/
theorem dropEndWhile_append {p : Char → Bool} {s trail : List Char} (htrail : ∀ c ∈ trail, p c = true)
    (hlast : ∀ c, s.getLast? = some c → p c = false) : dropEndWhile p (s ++ trail) = s := by
  have hreverse : ∀ c ∈ trail.reverse, p c = true := fun c hc => htrail c (List.mem_reverse.mp hc)
  rw [dropEndWhile, List.reverse_append, List.dropWhile_append_of_pos hreverse, dropWhile_of_head?, List.reverse_reverse]
  intro c hc
  exact hlast c (by rwa [List.head?_reverse] at hc)

/-- A text with a character other than a blank at either end stays as it is when it is trimmed. -/
theorem trim_of_ends {s : List Char} (hfirst : ∀ c, s.head? = some c → isBlank c = false)
    (hlast : ∀ c, s.getLast? = some c → isBlank c = false) : trim s = s := by
  have hend : dropEndWhile isBlank (s ++ []) = s := dropEndWhile_append (fun c hc => by cases hc) hlast
  rw [List.append_nil] at hend
  rw [trim, trimStart, dropWhile_of_head? hfirst, trimEnd, hend]

theorem endsWith_iff {part s : List Char} : endsWith part s = true ↔ ∃ front, s = front ++ part := by
  rw [endsWith, startsWith_iff]
  constructor
  · rintro ⟨rest, hrest⟩
    refine ⟨rest.reverse, ?_⟩
    rw [← List.reverse_reverse s, hrest]
    simp
  · rintro ⟨front, rfl⟩
    exact ⟨front.reverse, List.reverse_append⟩

/-- A whole number is read from any digits, if there are some. -/
theorem readDigits?_eq_decimal {s : List Char} (hne : s ≠ []) (h : ∀ c ∈ s, isDigit c = true) :
    readDigits? 0 false s = some (decimal s) := by
  obtain ⟨c, rest, rfl⟩ := List.exists_cons_of_ne_nil hne
  rw [readDigits?_cons (h c List.mem_cons_self), readDigits?_digits fun d hd => h d (List.mem_cons_of_mem c hd)]
  rfl

end Text

namespace Version

/-! ## Names, read from the end -/

/-- **The parts of a name**: a tag on one line, digits, and the digits of a hash. -/
structure Parts (s tag digits hash : List Char) : Prop where
  whole : s = (tag ++ '-' :: digits) ++ '-' :: 'g' :: hash
  tag_ne_nil : tag ≠ []
  feed_notMem : '\n' ∉ tag
  digits_ne_nil : digits ≠ []
  isDigit : ∀ c ∈ digits, Text.isDigit c = true
  hash_ne_nil : hash ≠ []
  isHashDigit : ∀ c ∈ hash, isHashDigit c = true

theorem steps?_eq_some_iff {digits : List Char} {n : Nat} :
    steps? digits = some n ↔ digits ≠ [] ∧ (∀ c ∈ digits, Text.isDigit c = true) ∧ n = Text.decimal digits := by
  unfold steps?
  split
  · next hall =>
    have hdigits := List.all_eq_true.mp hall
    cases digits with
    | nil => simp [Text.readDigits?]
    | cons c rest =>
      rw [Text.readDigits?_eq_decimal (List.cons_ne_nil c rest) hdigits]
      constructor
      · intro h
        exact ⟨List.cons_ne_nil c rest, hdigits, (Option.some.inj h).symm⟩
      · rintro ⟨-, -, rfl⟩
        rfl
  · next hall =>
    constructor
    · intro h
      cases h
    · rintro ⟨-, hdigits, -⟩
      exact absurd (List.all_eq_true.mpr hdigits) hall

theorem hash?_eq_some_iff {s hash : List Char} :
    hash? s = some hash ↔ s = 'g' :: hash ∧ hash ≠ [] ∧ ∀ c ∈ hash, isHashDigit c = true := by
  unfold hash?
  split
  · next digits =>
    split
    · next hall =>
      simp only [Bool.and_eq_true, Bool.not_eq_true', List.isEmpty_eq_false_iff, List.all_eq_true] at hall
      constructor
      · rintro h
        cases h
        exact ⟨rfl, hall⟩
      · rintro ⟨h, -⟩
        cases h
        rfl
    · next hall =>
      constructor
      · intro h
        cases h
      · rintro ⟨h, hhash⟩
        cases h
        simp only [Bool.and_eq_true, Bool.not_eq_true', List.isEmpty_eq_false_iff, List.all_eq_true] at hall
        exact absurd hhash hall
  · next hnot =>
    constructor
    · intro h
      cases h
    · rintro ⟨rfl, -⟩
      exact absurd rfl (hnot hash)

/-- **A name is read exactly if it has a tag, digits and a hash**, and as these. Its parts are found from its end: neither
digits nor the hash hold a hyphen, whatever the tag holds. -/
theorem ofText?_eq_some_iff {s : List Char} {d : Described} :
    Described.ofText? s = some d ↔ ∃ digits, Parts (dropFeed s) d.tag digits d.hash ∧ d.steps = Text.decimal digits := by
  constructor
  · intro h
    unfold Described.ofText? at h
    split at h
    · next front last hlast =>
      obtain ⟨hwhole, -⟩ := Text.splitLast_eq_some_iff.mp hlast
      split at h
      · next tag digits hfront =>
        obtain ⟨rfl, -⟩ := Text.splitLast_eq_some_iff.mp hfront
        split at h
        · cases h
        · next htag =>
          simp only [Bool.or_eq_true, List.isEmpty_iff, List.contains_iff_mem, not_or] at htag
          obtain ⟨n, hn, h⟩ := Option.bind_eq_some_iff.mp h
          obtain ⟨hash, hhash, h⟩ := Option.bind_eq_some_iff.mp h
          cases h
          obtain ⟨hne, hdigits, hsteps⟩ := steps?_eq_some_iff.mp hn
          obtain ⟨rfl, hhashne, hhashes⟩ := hash?_eq_some_iff.mp hhash
          exact ⟨digits, ⟨hwhole, htag.1, htag.2, hne, hdigits, hhashne, hhashes⟩, hsteps⟩
      · cases h
    · cases h
  · rintro ⟨digits, h, hsteps⟩
    have hdigits : '-' ∉ digits := fun hmem => absurd (h.isDigit _ hmem) (by decide)
    have hhash : '-' ∉ 'g' :: d.hash := by
      intro hmem
      rcases List.mem_cons.mp hmem with heq | hmem
      · exact absurd heq (by decide)
      · exact absurd (h.isHashDigit _ hmem) (by decide)
    have htag : ¬ (d.tag.isEmpty || d.tag.contains '\n') = true := by
      simp only [Bool.or_eq_true, List.isEmpty_iff, List.contains_iff_mem, not_or]
      exact ⟨h.tag_ne_nil, h.feed_notMem⟩
    have hn := steps?_eq_some_iff.mpr ⟨h.digits_ne_nil, h.isDigit, hsteps⟩
    have hread := hash?_eq_some_iff.mpr ⟨rfl, h.hash_ne_nil, h.isHashDigit⟩
    simp only [Described.ofText?, h.whole, Text.splitLast_append hhash, Text.splitLast_append hdigits, htag, hn, hread]
    rfl

/-! ## Names, written and read -/

/-- **A name that can be told apart**: the tag is on one line, and does not start with a blank; the hash is not empty. -/
structure Described.Plain (d : Described) : Prop where
  tag_ne_nil : d.tag ≠ []
  feed_notMem : '\n' ∉ d.tag
  head_not_isBlank : ∀ c, d.tag.head? = some c → Text.isBlank c = false
  hash_ne_nil : d.hash ≠ []
  isHashDigit : ∀ c ∈ d.hash, isHashDigit c = true

/-- The hash digits are neither blanks nor the last letter of the mark of changes. -/
theorem toNat_of_isHashDigit {c : Char} (h : isHashDigit c = true) : 48 ≤ c.toNat ∧ c.toNat ≤ 102 := by
  simp only [Version.isHashDigit, Bool.or_eq_true, Bool.and_eq_true, decide_eq_true_eq, Char.le_def,
    UInt32.le_iff_toNat_le, Char.toNat_val, Char.reduceToNat] at h
  omega

section

variable {d : Described}

theorem Described.getLast?_text (h : d.Plain) : ∃ c, d.text.getLast? = some c ∧ isHashDigit c = true := by
  obtain ⟨front, c, hhash⟩ : ∃ front c, d.hash = front ++ [c] := by
    rcases List.eq_nil_or_concat d.hash with hnil | ⟨front, c, hc⟩
    · exact absurd hnil h.hash_ne_nil
    · exact ⟨front, c, by rw [hc, List.concat_eq_append]⟩
  refine ⟨c, ?_, h.isHashDigit c (by simp [hhash])⟩
  have htext : d.text = (d.tag ++ '-' :: Nat.toDigits 10 d.steps ++ '-' :: 'g' :: front) ++ [c] := by
    simp [Described.text, hhash]
  rw [htext, List.getLast?_concat]

/-- **A name gives back what it was written from.** -/
theorem Described.ofText?_text (h : d.Plain) : Described.ofText? d.text = some d := by
  obtain ⟨c, hlast, hc⟩ := d.getLast?_text h
  have hfeed : dropFeed d.text = d.text := by
    have hne : ¬ (d.text.getLast? == some '\n') = true := by
      rw [hlast, beq_iff_eq]
      rintro heq
      cases heq
      exact absurd hc (by decide)
    rw [dropFeed, if_neg hne]
  refine ofText?_eq_some_iff.mpr ⟨Nat.toDigits 10 d.steps, ⟨?_, h.tag_ne_nil, h.feed_notMem, Nat.toDigits_ne_nil, ?_,
    h.hash_ne_nil, h.isHashDigit⟩, (Text.decimal_toDigits d.steps).symm⟩
  · rw [hfeed]
    simp [Described.text]
  · intro c hc
    exact Text.isDigit_of_mem_toDigits hc

/-- **The mark of changes is taken off** exactly if it was added, from a name that does not end in it. -/
theorem takeDirty_markDirty {s : List Char} (h : Text.endsWith dirtyMark s = false) (dirty : Bool) :
    takeDirty (markDirty s dirty) = (s, dirty) := by
  cases dirty with
  | false => simp [markDirty, takeDirty, h]
  | true =>
    have hends : Text.endsWith dirtyMark (s ++ dirtyMark) = true := Text.endsWith_iff.mpr ⟨s, rfl⟩
    simp [markDirty, takeDirty, hends]

theorem Described.endsWith_text (h : d.Plain) : Text.endsWith dirtyMark d.text = false := by
  apply Bool.eq_false_iff.mpr
  intro hends
  obtain ⟨front, hfront⟩ := Text.endsWith_iff.mp hends
  obtain ⟨c, hlast, hc⟩ := d.getLast?_text h
  have hy : (front ++ dirtyMark).getLast? = some 'y' := by simp [dirtyMark]
  rw [hfront, hy] at hlast
  cases hlast
  exact absurd hc (by decide)

/-- A name has no blank at either end, with or without the mark of changes. -/
theorem Described.ends_not_isBlank (h : d.Plain) (dirty : Bool) :
    (∀ c, (markDirty d.text dirty).head? = some c → Text.isBlank c = false) ∧
      ∀ c, (markDirty d.text dirty).getLast? = some c → Text.isBlank c = false := by
  constructor
  · intro c hc
    refine h.head_not_isBlank c ?_
    obtain ⟨first, rest, htag⟩ := List.exists_cons_of_ne_nil h.tag_ne_nil
    cases dirty <;> simpa [markDirty, Described.text, htag] using hc
  · intro c hc
    cases dirty with
    | false =>
      obtain ⟨last, hlast, hdigit⟩ := d.getLast?_text h
      have heq : last = c := Option.some.inj (hlast.symm.trans hc)
      obtain ⟨hlow, hhigh⟩ := toNat_of_isHashDigit (heq ▸ hdigit)
      simp [Text.isBlank]
      omega
    | true =>
      have hy : (markDirty d.text true).getLast? = some 'y' := by simp [markDirty, dirtyMark]
      cases hc.symm.trans hy
      decide

/-- What is a blank of an output is a blank of a text. -/
theorem isBlank_of_isOutputBlank {c : Char} (h : isOutputBlank c = true) : Text.isBlank c = true := by
  simp only [isOutputBlank, Bool.or_eq_true, beq_iff_eq, Bool.and_eq_true, decide_eq_true_eq] at h
  rcases h with rfl | h
  · decide
  · simp [Text.isBlank, h]

/-- The blanks behind a name are dropped, and nothing else is. -/
theorem trimmed_trimOutput (h : d.Plain) (dirty : Bool) {trail : List Char} (htrail : ∀ c ∈ trail, isOutputBlank c = true) :
    Text.trimmed (trimOutput (String.ofList (markDirty d.text dirty ++ trail))) =
      String.ofList (markDirty d.text dirty) := by
  obtain ⟨hhead, hlast⟩ := d.ends_not_isBlank h dirty
  have hout : ∀ c, Text.isBlank c = false → isOutputBlank c = false := by
    intro c hc
    refine Bool.eq_false_iff.mpr fun hblank => ?_
    rw [isBlank_of_isOutputBlank hblank] at hc
    cases hc
  have hstart : (markDirty d.text dirty ++ trail).dropWhile isOutputBlank = markDirty d.text dirty ++ trail := by
    refine Text.dropWhile_of_head? fun c hc => hout c (hhead c ?_)
    obtain ⟨first, rest, htag⟩ := List.exists_cons_of_ne_nil h.tag_ne_nil
    cases dirty <;> simpa [markDirty, Described.text, htag] using hc
  have htrim : trimOutput (String.ofList (markDirty d.text dirty ++ trail)) = String.ofList (markDirty d.text dirty) := by
    rw [trimOutput, String.toList_ofList, hstart, Text.dropEndWhile_append htrail fun c hc => hout c (hlast c hc)]
  rw [htrim, Text.trimmed, String.toList_ofList, Text.trim_of_ends hhead hlast]

end

/-! ## Asking a checkout -/

/-- The version control system has an answer to a question. -/
def Answers (host : Host) (arguments : List String) (output : String) : Prop :=
  Succeeds host.answers.commands arguments output (programNames host.platform)

/-- **A checkout that answers** all questions. The name of its revision may have blanks behind it. -/
structure Replies (host : Host) (tagPrefix : String) (name : List Char) : Prop where
  place : ∃ output, Answers host ["rev-parse", "--git-dir"] output
  name : ∃ trail, (∀ c ∈ trail, isOutputBlank c = true) ∧
    Answers host ["describe", "--tags", "--dirty", "--always", "--long", "--match", tagPrefix ++ "*"]
      (String.ofList (name ++ trail))
  head : ∃ output, Answers host ["rev-parse", "HEAD"] output
  date : ∃ output, Answers host ["show", "-s", "--format=%ci", "HEAD"] output

section

variable {c : Console} {arguments : List String} {output : String}

theorem ask_of_answers (h : Answers c.host arguments output) (root : String) :
    ∃ calls, (ask root arguments).perform c =
      (.ok { output := some (trimOutput output), status := some 0 }, c.called calls) := by
  have hget : (get : Routine Console).perform c = (.ok c, c) := rfl
  rw [ask, Routine.perform_bind_ok hget]
  exact run_of_succeeds h (some root) false

theorem askFor_of_answers (h : Answers c.host arguments output) (root reason : String) :
    ∃ calls, (askFor root arguments reason).perform c = (.ok (Text.trimmed (trimOutput output)), c.called calls) := by
  obtain ⟨calls, hask⟩ := ask_of_answers h root
  exact ⟨calls, by rw [askFor, Routine.perform_bind_ok hask]; rfl⟩

theorem askDate_of_answers (h : Answers c.host ["show", "-s", "--format=%ci", "HEAD"] output) (root : String) :
    ∃ calls, (askDate root).perform c = (.ok (isoDate (trimOutput output)), c.called calls) := by
  obtain ⟨calls, hask⟩ := ask_of_answers h root
  exact ⟨calls, by rw [askDate, Routine.perform_bind_ok hask]; rfl⟩

end

/-- The pieces of a revision that has a name. -/
def Described.pieces (d : Described) (closest : String) (dirty : Bool) (full date : String) : Pieces :=
  { long := full
    short := String.ofList d.hash
    dirty
    position := .ok { tag := some closest, distance := d.steps, date } }

section

variable {d : Described} {c : Console} {tagPrefix closest date : String}

theorem piecesOf_name (h : d.Plain) (htag : d.tag = tagPrefix.toList ++ closest.toList)
    (hdate : Answers c.host ["show", "-s", "--format=%ci", "HEAD"] date) (root : String) (verbose dirty : Bool)
    (full : String) :
    ∃ calls, (piecesOf tagPrefix root verbose (String.ofList (markDirty d.text dirty)) full).perform c =
      (.ok (d.pieces closest dirty full (isoDate (trimOutput date))), c.called calls) := by
  obtain ⟨calls, hask⟩ := askDate_of_answers hdate root
  have hhyphen : d.text.contains '-' = true := by simp [Described.text]
  have hclosest : withoutPrefix? tagPrefix (String.ofList d.tag) = some closest := by
    rw [withoutPrefix?, String.toList_ofList, Text.dropPrefix?_eq_some_iff.mpr htag, Option.map_some, String.ofList_toList]
  refine ⟨calls, ?_⟩
  simp only [piecesOf, String.toList_ofList, takeDirty_markDirty (d.endsWith_text h), hhyphen, if_pos,
    d.ofText?_text h, hclosest]
  rw [Routine.perform_bind_ok hask]
  rfl

/-- **A checkout whose revision has a name** gives the pieces of that name. -/
theorem checkoutPieces_name (h : d.Plain) (htag : d.tag = tagPrefix.toList ++ closest.toList) {dirty : Bool}
    (hreplies : Replies c.host tagPrefix (markDirty d.text dirty)) (root : String) (verbose : Bool) :
    ∃ full date calls, (checkoutPieces tagPrefix root verbose).perform c =
      (.ok (d.pieces closest dirty full date), c.called calls) := by
  obtain ⟨⟨place, hplace⟩, ⟨trail, htrail, hname⟩, ⟨head, hhead⟩, date, hdate⟩ := hreplies
  obtain ⟨asked, hasked⟩ := ask_of_answers hplace root
  obtain ⟨named, hnamed⟩ := askFor_of_answers (c := c.called asked) hname root "'git describe' failed"
  rw [Console.called_called, trimmed_trimOutput h dirty htrail] at hnamed
  obtain ⟨headed, hheaded⟩ := askFor_of_answers (c := c.called (asked ++ named)) hhead root "'git rev-parse' failed"
  rw [Console.called_called] at hheaded
  obtain ⟨calls, hpieces⟩ := piecesOf_name (c := c.called (asked ++ named ++ headed)) h htag hdate root verbose dirty
    (Text.trimmed (trimOutput head))
  rw [Console.called_called] at hpieces
  refine ⟨Text.trimmed (trimOutput head), isoDate (trimOutput date), asked ++ named ++ headed ++ calls, ?_⟩
  rw [checkoutPieces, Routine.perform_bind_ok hasked]
  simp only [bne_self_eq_false, Bool.false_eq_true, if_false]
  rw [Routine.perform_bind_ok hnamed, Routine.perform_bind_ok hheaded, hpieces]

/-- What stands in the record of the pieces. -/
theorem Described.item_pieces (d : Described) (closest : String) (dirty : Bool) (full date : String) :
    let record := (d.pieces closest dirty full date).record
    record.item "closest-tag" = .ok (.str closest) ∧ record.item "distance" = .ok (.int d.steps) ∧
      record.item "short" = .ok (.str (String.ofList d.hash)) ∧ record.item "dirty" = .ok (.bool dirty) ∧
      record.item "error" = .ok .null :=
  ⟨rfl, rfl, rfl, rfl, rfl⟩

/-- **The long style writes the name again** from its pieces. -/
theorem render_pieces (h : d.tag ≠ []) (dirty : Bool) (full date : String) :
    render (d.pieces (String.ofList d.tag) dirty full date).record (.str "git-describe-long") =
      .ok (Info.record {
        version := .str (String.ofList (markDirty d.text dirty))
        revision := .str full
        dirty := .bool dirty
        date := .str date }) := by
  have htruthy : (Value.str (String.ofList d.tag)).truthy = true := by
    simpa [Value.truthy] using h
  have hname : String.ofList d.tag ++ ("-" ++ (toString (d.steps : Int) ++ "-g" ++ String.ofList d.hash)) =
      String.ofList d.text := by
    have hdigits : toString (d.steps : Int) = String.ofList (Nat.toDigits 10 d.steps) := rfl
    simp [hdigits, Described.text, ← String.toList_inj]
  obtain ⟨htag, hdistance, hshort, hdirty, herror⟩ := d.item_pieces (String.ofList d.tag) dirty full date
  have hversion : Style.tagged .describeLong (d.pieces (String.ofList d.tag) dirty full date).record
      (.str (String.ofList d.tag)) = .ok (.str (String.ofList (markDirty d.text dirty))) := by
    refine Fault.bind_eq_ok.mpr ⟨_, Fault.bind_eq_ok.mpr ⟨_, hdistance, Fault.bind_eq_ok.mpr ⟨_, hshort, rfl⟩⟩, ?_⟩
    refine Fault.bind_eq_ok.mpr ⟨_, congrArg (fun name => Except.ok (Value.str name)) hname, ?_⟩
    refine Fault.bind_eq_ok.mpr ⟨dirty, Fault.bind_eq_ok.mpr ⟨_, hdirty, rfl⟩, ?_⟩
    cases dirty with
    | false => rfl
    | true => exact congrArg (fun name => Except.ok (Value.str name)) String.ofList_append.symm
  refine Fault.bind_eq_ok.mpr ⟨.null, herror, ?_⟩
  rw [if_neg (by decide)]
  refine Fault.bind_eq_ok.mpr ⟨.describeLong, rfl, Fault.bind_eq_ok.mpr ⟨_, htag, ?_⟩⟩
  rw [if_pos htruthy]
  exact Fault.bind_eq_ok.mpr ⟨_, hversion, rfl⟩

end

/-- **The pieces of a checkout are the parts of its revision's name**, whatever the tag holds: hyphens, what looks like
steps and a hash, the mark of changes. With no prefix of tags, the long style gives the name back. -/
theorem checkout_reads_back {c : Console} {tagPrefix closest hash name : String} {steps : Nat} {dirty : Bool}
    (htag : tagPrefix ++ closest ≠ "") (hfeed : '\n' ∉ (tagPrefix ++ closest).toList)
    (hblank : ∀ first, (tagPrefix ++ closest).toList.head? = some first → Text.isBlank first = false)
    (hhash : hash ≠ "") (hdigits : ∀ digit ∈ hash.toList, isHashDigit digit = true)
    (hname : name = tagPrefix ++ closest ++ "-" ++ toString steps ++ "-g" ++ hash ++ if dirty then "-dirty" else "")
    (hreplies : Replies c.host tagPrefix name.toList) (root : String) (verbose : Bool) :
    ∃ pieces calls, (checkoutPieces tagPrefix root verbose).perform c = (.ok pieces, c.called calls) ∧
      pieces.record.item "closest-tag" = .ok (.str closest) ∧ pieces.record.item "distance" = .ok (.int steps) ∧
      pieces.record.item "short" = .ok (.str hash) ∧ pieces.record.item "dirty" = .ok (.bool dirty) ∧
      pieces.record.item "error" = .ok .null ∧
      (tagPrefix = "" → ∃ info, render pieces.record (.str "git-describe-long") = .ok info ∧
        info.item "version" = .ok (.str name)) := by
  let d : Described := { tag := (tagPrefix ++ closest).toList, steps, hash := hash.toList }
  have hplain : d.Plain :=
    { tag_ne_nil := fun hnil => htag (String.toList_eq_nil_iff.mp hnil)
      feed_notMem := hfeed
      head_not_isBlank := hblank
      hash_ne_nil := fun hnil => hhash (String.toList_eq_nil_iff.mp hnil)
      isHashDigit := hdigits }
  have htext : name = String.ofList (markDirty d.text dirty) := by
    have hsteps : toString steps = String.ofList (Nat.toDigits 10 steps) := rfl
    subst hname
    cases dirty <;> simp [d, markDirty, dirtyMark, Described.text, hsteps, ← String.toList_inj]
  rw [htext, String.toList_ofList] at hreplies
  obtain ⟨full, date, calls, hpieces⟩ := checkoutPieces_name hplain (String.toList_append ..) hreplies root verbose
  obtain ⟨hclosest, hdistance, hshort, hdirty, herror⟩ := d.item_pieces closest dirty full date
  rw [String.ofList_toList] at hshort
  refine ⟨_, calls, hpieces, hclosest, hdistance, hshort, hdirty, herror, ?_⟩
  rintro rfl
  have hwhole : String.ofList d.tag = closest := by simp [d]
  have hrender := render_pieces hplain.tag_ne_nil dirty full date
  rw [hwhole, ← htext] at hrender
  exact ⟨_, hrender, rfl⟩

/-- A checkout whose tag ends in what looks like another name, with its mark of changes. -/
def nestedName : Console :=
  { host := { answers := { commands := [
      { command := ["git", "rev-parse", "--git-dir"], output := ".git\n" },
      { command := ["git", "describe"], output := "v1-3-gabc-dirty-0-gfe-dirty\n" },
      { command := ["git", "rev-parse", "HEAD"], output := "fe00000000\n" },
      { command := ["git", "show"], output := "2020-02-01 10:00:00 +0100\n" }] } } }

theorem replies_nestedName (tagPrefix : String) :
    Replies nestedName.host tagPrefix "v1-3-gabc-dirty-0-gfe-dirty".toList where
  place := ⟨".git\n", .here rfl rfl rfl⟩
  name := by
    have houtput : "v1-3-gabc-dirty-0-gfe-dirty\n" = String.ofList ("v1-3-gabc-dirty-0-gfe-dirty".toList ++ ['\n']) := by
      decide
    exact ⟨['\n'], List.all_eq_true.mp rfl, .here rfl rfl houtput⟩
  head := ⟨"fe00000000\n", .here rfl rfl rfl⟩
  date := ⟨"2020-02-01 10:00:00 +0100\n", .here rfl rfl rfl⟩

theorem checkout_reads_back_nested_name : ∃ pieces calls,
    (checkoutPieces "" "/work" false).perform nestedName = (.ok pieces, nestedName.called calls) ∧
      pieces.record.item "closest-tag" = .ok (.str "v1-3-gabc-dirty") ∧ pieces.record.item "dirty" = .ok (.bool true) ∧
      ∃ info, render pieces.record (.str "git-describe-long") = .ok info ∧
        info.item "version" = .ok (.str "v1-3-gabc-dirty-0-gfe-dirty") := by
  obtain ⟨pieces, calls, hperform, hclosest, -, -, hdirty, -, hrender⟩ :=
    @checkout_reads_back nestedName "" "v1-3-gabc-dirty" "fe" "v1-3-gabc-dirty-0-gfe-dirty" 0 true (by decide) (by decide)
      (by rintro first ⟨⟩; decide) (by decide) (List.all_eq_true.mp (by decide)) (by decide) (replies_nestedName "")
      "/work" false
  exact ⟨pieces, calls, hperform, hclosest, hdirty, hrender rfl⟩

end Version

end EditorService
