import EditorService.Fault
import EditorService.Text.Split
import EditorService.Text.Number

/-!
# Addresses between brackets

A host between brackets is an address of eight groups of hexadecimal digits, with one gap allowed and the last two
groups allowed in four-part form, or an address of a later form, which starts with `v`. Anything else is refused.
-/

namespace EditorService.Uri

open EditorService.Text (split splitFirst splitLast)

/-- One of the four numbers of a four-part address: one to three digits, no leading zero, at most 255. -/
def isOctetText (s : List Char) : Bool :=
  !s.isEmpty && s.length ≤ 3 && s.all Char.isDigit && (s == ['0'] || s.head? != some '0') &&
    Nat.ofDigitChars 10 s 0 ≤ 255

/-- A four-part address. -/
def isFourPart (s : List Char) : Bool :=
  let parts := split '.' s
  parts.length == 4 && parts.all isOctetText

/-- One group of an address of eight: one to four hexadecimal digits. -/
def isGroup (s : List Char) : Bool := !s.isEmpty && s.length ≤ 4 && s.all fun c => (Text.hexValue? c).isSome

/-- The groups of an address, with a four-part end counted as two groups; `none` when that end is none. -/
def groups? (s : List Char) : Option (List (List Char)) :=
  let parts := split ':' s
  match parts.getLast? with
  | some last =>
    if last.contains '.' then
      if isFourPart last then some (parts.dropLast ++ [['0'], ['0']]) else none
    else some parts
  | none => none

/-- Whether groups are those of an address: eight, or fewer around one gap. -/
def areGroups (parts : List (List Char)) : Bool :=
  let n := parts.length
  let inner := (parts.drop 1).dropLast
  let gaps := (inner.filter (·.isEmpty)).length
  let first := parts.head?.getD []
  let last := parts.getLast?.getD []
  if n < 3 || 9 < n || 1 < gaps then false
  else if gaps == 1 then
    (!first.isEmpty || (parts.drop 1).head? == some []) && (!last.isEmpty || inner.getLast? == some []) &&
      (parts.filter fun p => !p.isEmpty).length < 8 && parts.all fun p => p.isEmpty || isGroup p
  else n == 8 && parts.all isGroup

/-- Whether a text is an address of eight groups; a zone after `%` must not be empty. -/
def isEightGroup (s : List Char) : Bool :=
  let (address, zone) := splitFirst '%' s
  let zoneFits := match zone with
    | some z => !z.isEmpty && !z.contains '%'
    | none => true
  zoneFits && !address.contains '/' && match groups? address with
    | some parts => areGroups parts
    | none => false

/-- Whether a text is an address of a later form: `v`, hexadecimal digits, a dot, and something after it. -/
def isFutureAddress : List Char → Bool
  | 'v' :: rest =>
    let version := rest.takeWhile fun c => (Text.hexValue? c).isSome
    match rest.dropWhile fun c => (Text.hexValue? c).isSome with
    | '.' :: address => !version.isEmpty && !address.isEmpty && !address.contains '\n'
    | _ => false
  | _ => false

/-- **Refuses brackets around what is no address.** -/
def checkBracketed (host : List Char) : Except Fault Unit :=
  if host.head? == some 'v' then
    if isFutureAddress host then .ok () else .error (.uri .badFutureHost)
  else if isFourPart host then .error (.uri .fourPartHost)
  else if isEightGroup host then .ok ()
  else .error (.uri (.badHost (String.ofList host)))

end EditorService.Uri
