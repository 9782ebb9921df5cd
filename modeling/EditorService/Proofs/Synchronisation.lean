import EditorService.Proofs.ClientLines
import EditorService.Proofs.OpenDocuments

/-!
# Incremental synchronisation

A client edits its own copy of a document and tells the service its edits. It counts lines by the three endings of the
protocol, the service by all its breaks. Both then have a text, and the two should be the same.

The client's side is `editedAll?`: each edit is a splice at the client's offsets, in the text that the edits before it
left, and an edit with a place that is not valid there has no result. The service's side is `Edit.made`, edit by edit.

**The law** (`changes_synchronise_iff`): after any history, a change of an open document with edits that are valid for
the client leaves the service with the client's text, provided that the end of every range is clear in the text that it
finds (`ClearAll`). The condition is exact: where it fails, both sides agree up to some edit, and with another text in
that edit they come to differ.

Texts without foreign breaks are clear everywhere. An edit may bring a foreign break, and then the edits behind it are
not clear any more.
-/

namespace EditorService

namespace Client

open EditorService.Server
open EditorService.Document (Edit Place splice replaceRange)

/-! ## One edit -/

/-- **The client's text after an edit**, if the edit is valid there. -/
def edited? (text : String) (e : Edit) : Option String :=
  match e.range with
  | none => some e.text
  | some (a, b) =>
    if a ≤ b then
      (offset? text.toList a).bind fun first =>
        (offset? text.toList b).map fun last => String.ofList (splice text.toList first last e.text.toList)
    else none

/-- **An edit is clear** when the end of its range is. -/
def ClearEdit (text : String) (e : Edit) : Prop :=
  ∀ a b last, e.range = some (a, b) → offset? text.toList b = some last → Clear text.toList last

/-- The places of a valid edit have offsets, and these do not depend on the text that the edit brings. -/
theorem edited?_eq_some {text old next : String} {a b : Place} (h : edited? text ⟨old, some (a, b)⟩ = some next) :
    a ≤ b ∧ ∃ first last, offset? text.toList a = some first ∧ offset? text.toList b = some last ∧
      ∀ new, edited? text ⟨new, some (a, b)⟩ = some (String.ofList (splice text.toList first last new.toList)) := by
  simp only [edited?] at h
  split at h
  · next hle =>
    obtain ⟨first, hfirst, h⟩ := Option.bind_eq_some_iff.mp h
    obtain ⟨last, hlast, -⟩ := Option.map_eq_some_iff.mp h
    refine ⟨hle, first, last, hfirst, hlast, fun new => ?_⟩
    simp only [edited?, if_pos hle, hfirst, hlast, Option.bind_some, Option.map_some]
  · exact nomatch h

/-- **One edit**: the two sides agree whatever text it brings exactly when it is clear. -/
theorem clearEdit_iff {text : String} {e : Edit} (hvalid : (edited? text e).isSome) :
    ClearEdit text e ↔
      ∀ new, edited? text { e with text := new } = some (Edit.made { e with text := new } text) := by
  obtain ⟨old, range⟩ := e
  obtain ⟨next, hnext⟩ := Option.isSome_iff_exists.mp hvalid
  rcases range with _ | ⟨a, b⟩
  · exact iff_of_true (fun a b last h => nomatch h) fun new => rfl
  · obtain ⟨hle, first, last, hfirst, hlast, hedited⟩ := edited?_eq_some hnext
    have hclear : ClearEdit text ⟨old, some (a, b)⟩ ↔ Clear text.toList last := by
      constructor
      · exact fun h => h a b last rfl hlast
      · intro h a' b' last' hrange hlast'
        cases hrange
        cases hlast.symm.trans hlast'
        exact h
    have hmade : ∀ new : String, Edit.made ⟨new, some (a, b)⟩ text =
        String.ofList (replaceRange text.toList (a.upTo b) new.toList) := fun new => rfl
    rw [hclear, ← replaceRange_agrees_iff hle hfirst hlast]
    constructor
    · intro h new
      rw [hedited, hmade, h]
    · intro h new
      have hsame := h (String.ofList new)
      rw [hedited, hmade, String.toList_ofList] at hsame
      exact (String.ofList_injective (Option.some.inj hsame)).symm

theorem made_of_clear {text next : String} {e : Edit} (hnext : edited? text e = some next) (hclear : ClearEdit text e) :
    e.made text = next := by
  have hsame := (clearEdit_iff (Option.isSome_iff_exists.mpr ⟨next, hnext⟩)).mp hclear e.text
  exact Option.some.inj (hsame.symm.trans hnext)

/-! ## Many edits -/

/-- **The client's text after edits**, if each is valid in the text that it finds. -/
def editedAll? (text : String) : List Edit → Option String
  | [] => some text
  | e :: rest => (edited? text e).bind fun next => editedAll? next rest

/-- The service's text after the same edits. -/
def servedAll (text : String) (edits : List Edit) : String := edits.foldl (fun text e => e.made text) text

/-- **All edits are clear**, each in the client's text that it finds. -/
def ClearAll (text : String) : List Edit → Prop
  | [] => True
  | e :: rest => ClearEdit text e ∧ ∀ next, edited? text e = some next → ClearAll next rest

/-- Edits up to one of them, and that one with another text. -/
def reworded (edits : List Edit) (k : Nat) (e : Edit) (new : String) : List Edit :=
  edits.take k ++ [{ e with text := new }]

/-- Clear edits lead both sides to one text. -/
theorem servedAll_of_clear {text client : String} {edits : List Edit} (hvalid : editedAll? text edits = some client)
    (hclear : ClearAll text edits) : servedAll text edits = client := by
  induction edits generalizing text with
  | nil => exact Option.some.inj hvalid
  | cons e rest ih =>
    obtain ⟨next, hnext, hrest⟩ := Option.bind_eq_some_iff.mp hvalid
    show servedAll (e.made text) rest = client
    rw [made_of_clear hnext hclear.1]
    exact ih hrest (hclear.2 next hnext)

example : editedAll? "a\x0cb" [⟨"X", some (⟨0, 3⟩, ⟨0, 3⟩)⟩] = some "a\x0cbX" ∧
    servedAll "a\x0cb" [⟨"X", some (⟨0, 3⟩, ⟨0, 3⟩)⟩] = "a\x0cXb" := by decide

/-- **Many edits**: they are clear exactly when the two sides agree after each of them, whatever text it brings. -/
theorem clearAll_iff {text : String} {edits : List Edit} (hvalid : (editedAll? text edits).isSome) :
    ClearAll text edits ↔ ∀ k e new, edits[k]? = some e →
      editedAll? text (reworded edits k e new) = some (servedAll text (reworded edits k e new)) := by
  induction edits generalizing text with
  | nil => exact iff_of_true trivial fun k e new h => nomatch h
  | cons e rest ih =>
    obtain ⟨client, hclient⟩ := Option.isSome_iff_exists.mp hvalid
    obtain ⟨next, hnext, hrest⟩ := Option.bind_eq_some_iff.mp hclient
    have hfirst := clearEdit_iff (Option.isSome_iff_exists.mpr ⟨next, hnext⟩)
    have hlater := ih (Option.isSome_iff_exists.mpr ⟨client, hrest⟩)
    -- Behind the first edit the client has `next`, and so has the service if that edit is clear.
    have hbehind : ∀ more, editedAll? text (e :: more) = editedAll? next more := by
      intro more
      rw [editedAll?, hnext, Option.bind_some]
    have hserved : ClearEdit text e → ∀ more, servedAll text (e :: more) = servedAll next more := by
      intro hclear more
      rw [servedAll, List.foldl_cons, made_of_clear hnext hclear]
      rfl
    constructor
    · rintro ⟨hclear, hclearRest⟩ k f new hk
      cases k with
      | zero =>
        cases hk
        show (edited? text { e with text := new }).bind (editedAll? · []) = _
        rw [hfirst.mp hclear new]
        rfl
      | succ k =>
        show editedAll? text (e :: reworded rest k f new) = some (servedAll text (e :: reworded rest k f new))
        rw [hbehind, hserved hclear]
        exact hlater.mp (hclearRest next hnext) k f new hk
    · intro h
      have hclear : ClearEdit text e := by
        refine hfirst.mpr fun new => ?_
        have hone : (edited? text { e with text := new }).bind (editedAll? · []) = _ := h 0 e new rfl
        obtain ⟨found, hfound, heq⟩ := Option.bind_eq_some_iff.mp hone
        rw [hfound]
        exact heq
      refine ⟨hclear, fun next' hnext' => ?_⟩
      cases hnext.symm.trans hnext'
      refine hlater.mpr fun k f new hk => ?_
      have hmore : editedAll? text (e :: reworded rest k f new) = some (servedAll text (e :: reworded rest k f new)) :=
        h (k + 1) f new hk
      rwa [hbehind, hserved hclear] at hmore

/-! ## Texts without foreign breaks -/

/-- No break in a text is foreign to the client. -/
def Plain (text : String) : Prop := ∀ c ∈ text.toList, isForeign c = false

instance (text : String) : Decidable (Plain text) := List.decidableBAll ..

theorem clear_of_plain {text : String} (h : Plain text) (o : Nat) : Clear text.toList o :=
  fun c hc => h c (List.mem_of_mem_take hc)

/-- An edit brings no characters but its own. -/
theorem plain_edited {text next : String} {e : Edit} (hnext : edited? text e = some next) (htext : Plain text)
    (he : Plain e.text) : Plain next := by
  obtain ⟨new, range⟩ := e
  rcases range with _ | ⟨a, b⟩
  · cases hnext
    exact he
  · obtain ⟨-, first, last, -, -, hedited⟩ := edited?_eq_some hnext
    cases (hedited new).symm.trans hnext
    intro c hc
    rw [String.toList_ofList, splice, List.mem_append, List.mem_append] at hc
    rcases hc with (hfront | hnew) | hback
    · exact htext c (List.mem_of_mem_take hfront)
    · exact he c hnew
    · exact htext c (List.mem_of_mem_drop hback)

/-- **Without foreign breaks all edits are clear.** -/
theorem clearAll_of_plain {text : String} {edits : List Edit} (htext : Plain text)
    (hedits : ∀ e ∈ edits, Plain e.text) : ClearAll text edits := by
  induction edits generalizing text with
  | nil => trivial
  | cons e rest ih =>
    refine ⟨fun a b last _ _ => clear_of_plain htext last, fun next hnext => ?_⟩
    exact ih (plain_edited hnext htext (hedits e List.mem_cons_self)) fun f hf => hedits f (List.mem_cons_of_mem e hf)

/-! ## The service -/

/-- **A notice synchronises a document**: it is handled, and then the service has the client's text. -/
def Synchronises (n : Notice) (s : Server) (uri text : String) (edits : List Edit) : Prop :=
  (n.serve s).1 = .ok .null ∧
    ∃ d client, (n.serve s).2.held? uri = some d ∧ d.source = some client ∧ editedAll? text edits = some client

theorem synchronises_iff {s : Server} {n : Notice} {uri text : String} {edits : List Edit} {version : Value}
    {d : Document} (hs : Proper s) (hheld : s.held? uri = some d) (htext : d.source = some text)
    (hn : n.event = .changed uri edits version) :
    Synchronises n s uri text edits ↔ editedAll? text edits = some (servedAll text edits) := by
  obtain ⟨d', hok, hwrites, hsource, -⟩ := serve_changed hs.sound hn hheld htext
  have hheld' : (n.serve s).2.held? uri = some d' := by rw [hwrites.held hs.sound, if_pos rfl]
  constructor
  · rintro ⟨-, d'', client, hd, hclient, hedited⟩
    cases hheld'.symm.trans hd
    rw [hedited, ← hclient, hsource, servedAll]
  · exact fun h => ⟨hok, d', servedAll text edits, hheld', hsource, h⟩

/-- **Incremental synchronisation.** After a start and any history, let a document be open, and let edits of it be valid
for the client. When they are clear, a change with these edits leaves the service with the client's text. They are clear
exactly when every message with the same edits up to one of them, and with any text in that one, does so. Without
foreign breaks in the text and in the edits they are clear. -/
theorem changes_synchronise_iff {s₀ : Server} (hstart : Started s₀) (history : List Notice) {uri text : String}
    {d : Document} (hheld : (after s₀ history).held? uri = some d) (htext : d.source = some text) {edits : List Edit}
    (hvalid : (editedAll? text edits).isSome) :
    let s := after s₀ history
    (ClearAll text edits → ∀ (n : Notice) version, n.event = .changed uri edits version →
      Synchronises n s uri text edits) ∧
    (ClearAll text edits ↔ ∀ k e new, edits[k]? = some e → ∀ (n : Notice) version,
      n.event = .changed uri (reworded edits k e new) version →
        Synchronises n s uri text (reworded edits k e new)) ∧
    (Plain text → (∀ e ∈ edits, Plain e.text) → ClearAll text edits) := by
  intro s
  have hs : Proper s := proper_after hstart.founded.proper history
  refine ⟨?_, ?_, clearAll_of_plain⟩
  · intro hclear n version hn
    obtain ⟨client, hclient⟩ := Option.isSome_iff_exists.mp hvalid
    refine (synchronises_iff hs hheld htext hn).mpr ?_
    rw [hclient, servedAll_of_clear hclient hclear]
  · rw [clearAll_iff hvalid]
    constructor
    · intro h k e new hk n version hn
      exact (synchronises_iff hs hheld htext hn).mpr (h k e new hk)
    · intro h k e new hk
      exact (synchronises_iff hs hheld htext rfl).mp
        (h k e new hk (Notice.changing {} uri (reworded edits k e new) .null) .null rfl)

/-- A text with a form feed in it. An insertion right behind the form feed is clear and leaves both sides with one text.
One character further on it is not clear any more. -/
theorem changes_synchronise_iff_form_feed :
    let s := after (startedAt "file:///ws") [Notice.opening {} "file:///ws/a.py" "a\x0cb" (.int 1)]
    let clear : List Edit := [⟨"X", some (⟨0, 2⟩, ⟨0, 2⟩)⟩]
    let unclear : List Edit := [⟨"X", some (⟨0, 3⟩, ⟨0, 3⟩)⟩]
    Synchronises (Notice.changing {} "file:///ws/a.py" clear (.int 2)) s "file:///ws/a.py" "a\x0cb" clear ∧
      ¬ ∀ k e new, unclear[k]? = some e → ∀ (n : Notice) version,
        n.event = .changed "file:///ws/a.py" (reworded unclear k e new) version →
          Synchronises n s "file:///ws/a.py" "a\x0cb" (reworded unclear k e new) := by
  intro s clear unclear
  have hstart : Started (startedAt "file:///ws") := started_startedAt (by decide +kernel)
  have hsource : (s.held? "file:///ws/a.py").map (·.source) = some (some "a\x0cb") := by decide +kernel
  obtain ⟨d, hheld, htext⟩ := Option.map_eq_some_iff.mp hsource
  have hclear : ClearAll "a\x0cb" clear := by
    refine ⟨fun a b last hrange hlast => ?_, fun _ _ => trivial⟩
    cases hrange
    cases hlast
    decide
  have hunclear : ¬ ClearAll "a\x0cb" unclear := by
    intro h
    have hend : Clear ['a', '\x0c', 'b'] 3 := h.1 ⟨0, 3⟩ ⟨0, 3⟩ 3 rfl rfl
    exact absurd hend (by decide)
  have hvalid : (editedAll? "a\x0cb" clear).isSome := by decide
  have hvalid' : (editedAll? "a\x0cb" unclear).isSome := by decide
  obtain ⟨hsync, -, -⟩ := changes_synchronise_iff hstart _ hheld htext hvalid
  obtain ⟨-, hexact, -⟩ := changes_synchronise_iff hstart _ hheld htext hvalid'
  exact ⟨hsync hclear _ _ rfl, fun h => hunclear (hexact.mpr h)⟩

end Client

end EditorService
