import EditorService.Text.Blank
import EditorService.Text.Digit
import EditorService.Text.WordChar

/-!
# Patterns

A pattern describes texts: single characters, sets of characters, sequences, alternatives, repetitions, and tests that
look at what stands around a place without taking any of it. `ends` gives every place where a match that starts at a
place can end, so that a pattern is the relation between the two and no order of trying has to be fixed.
-/

namespace EditorService.Text

/-- One member of a set of characters. -/
inductive SetItem where
  | one (c : Char)
  | span (first last : Char)
  | digit (negated : Bool)
  | word (negated : Bool)
  | blank (negated : Bool)
  deriving DecidableEq, Repr

/-- **A pattern.** -/
inductive Pattern where
  | empty
  | char (c : Char)
  | any
  | set (negated : Bool) (items : List SetItem)
  | seq (a b : Pattern)
  | alt (a b : Pattern)
  | repeated (p : Pattern) (least : Nat) (most : Option Nat)
  | start
  | stop (beforeBreak : Bool)
  | boundary (negated : Bool)
  | ahead (negated : Bool) (p : Pattern)
  | behind (negated : Bool) (width : Nat) (p : Pattern)
  deriving DecidableEq, Repr

/-- A place in a text: what stands before it, last character first, and what follows. -/
structure Place where
  before : List Char
  rest : List Char
  deriving DecidableEq, Repr

/-- Whether a set item holds a character. -/
def SetItem.holds (c : Char) : SetItem → Bool
  | .one d => c == d
  | .span first last => first ≤ c && c ≤ last
  | .digit negated => isDigit c != negated
  | .word negated => isWordChar c != negated
  | .blank negated => isBlank c != negated

namespace Pattern

/-- The place after one character that passes a test. -/
def step (test : Char → Bool) (p : Place) : List Place :=
  match p.rest with
  | c :: rest => if test c then [⟨c :: p.before, rest⟩] else []
  | [] => []

/-- Whether a word starts or ends at a place. -/
def atBoundary (p : Place) : Bool := p.before.head?.any isWordChar != p.rest.head?.any isWordChar

/-- A place some characters back, when there are so many. -/
def back? : Nat → Place → Option Place
  | 0, p => some p
  | n + 1, p =>
    match p.before with
    | c :: before => back? n ⟨before, c :: p.rest⟩
    | [] => none

/-- Goes on from every place of a list. -/
def fromAll (f : Place → List Place) (places : List Place) : List Place := (places.flatMap f).eraseDups

/-- Repeats a step a fixed number of times. -/
def times (f : Place → List Place) : Nat → Place → List Place
  | 0, p => [p]
  | n + 1, p => fromAll (times f n) (f p)

/-- Repeats a step at most a number of times; every place on the way counts. -/
def upTo (f : Place → List Place) : Nat → Place → List Place
  | 0, p => [p]
  | n + 1, p => (p :: fromAll (upTo f n) ((f p).filter fun q => q.rest.length < p.rest.length)).eraseDups

/-- **Every place where a match can end.** -/
def ends : Pattern → Place → List Place
  | .empty, p => [p]
  | .char c, p => step (· == c) p
  | .any, p => step (· != '\n') p
  | .set negated items, p => step (fun c => items.any (·.holds c) != negated) p
  | .seq a b, p => fromAll b.ends (a.ends p)
  | .alt a b, p => (a.ends p ++ b.ends p).eraseDups
  | .repeated a least most, p =>
    fromAll (upTo a.ends ((most.map (· - least)).getD p.rest.length)) (times a.ends least p)
  | .start, p => if p.before.isEmpty then [p] else []
  | .stop beforeBreak, p => if p.rest.isEmpty || (beforeBreak && p.rest == ['\n']) then [p] else []
  | .boundary negated, p => if atBoundary p != negated then [p] else []
  | .ahead negated a, p => if (a.ends p).isEmpty == negated then [p] else []
  | .behind negated width a, p =>
    let found := match back? width p with
      | some q => (a.ends q).any fun e => e.rest.length == p.rest.length
      | none => false
    if found != negated then [p] else []

/-- **Whether a pattern matches at the front of a text.** -/
def matchesFront (p : Pattern) (s : List Char) : Bool := !(p.ends ⟨[], s⟩).isEmpty

/-- How many characters a pattern takes, when that number is fixed. -/
def width? : Pattern → Option Nat
  | .char _ => some 1
  | .any => some 1
  | .set _ _ => some 1
  | .seq a b => do return (← a.width?) + (← b.width?)
  | .alt a b => do
    let n ← a.width?
    let m ← b.width?
    if n == m then some n else none
  | .repeated a least most => do
    let n ← a.width?
    if most == some least then some (n * least) else none
  | _ => some 0

end Pattern

end EditorService.Text
