import EditorService.Value.Access
import EditorService.Value.Display

/-!
# Styles of versions

A version is put together from its pieces in one of six styles. The pieces come as a record, which may have been made
elsewhere: a style looks up what it needs, in a fixed order, and stops at the first piece that is missing.
-/

namespace EditorService.Version

/-- **What is known about a version.** -/
structure Info where
  version : Value
  revision : Value := .null
  dirty : Value := .null
  error : Value := .null
  date : Value := .null
  deriving DecidableEq, Repr

/-- What is known about a version, as a record. -/
def Info.record (i : Info) : Value :=
  .dict [
    ("version", i.version), ("full-revisionid", i.revision), ("dirty", i.dirty), ("error", i.error), ("date", i.date)]

/-- **A style.** -/
inductive Style where
  | pep440
  | pep440Pre
  | pep440Post
  | pep440Old
  | describe
  | describeLong
  deriving DecidableEq, Repr

/-- The style that a word names. No word at all stands for the first style, and so does `default`. -/
def Style.ofValue (v : Value) : Except Fault Style :=
  if !v.truthy then .ok .pep440
  else match v with
    | .str "default" => .ok .pep440
    | .str "pep440" => .ok .pep440
    | .str "pep440-pre" => .ok .pep440Pre
    | .str "pep440-post" => .ok .pep440Post
    | .str "pep440-old" => .ok .pep440Old
    | .str "git-describe" => .ok .describe
    | .str "git-describe-long" => .ok .describeLong
    | v => .error (.version (.unknownStyle v.plain))

/-- **The mark before a local part**: a plus sign, or a dot when the tag has a plus sign already. -/
def localMark (pieces : Value) : Except Fault String := do
  let tag ← pieces.getD "closest-tag" (.str "")
  return if ← tag.holds "+" then "." else "+"

/-- A value with a text added at its end. -/
def extended (v : Value) (text : String) : Except Fault Value := do return .str ((← v.text) ++ text)

/-- A value with a text added at its end, if it is to be. -/
def extendedIf (wanted : Bool) (v : Value) (text : String) : Except Fault Value :=
  if wanted then extended v text else .ok v

/-- The distance as digits. -/
def distanceText (pieces : Value) : Except Fault String := do return toString (← (← pieces.item "distance").number)

/-- The distance and the short hash, with a text between them. -/
def distanceAndHash (pieces : Value) (between : String) : Except Fault String := do
  let distance ← pieces.item "distance"
  let short ← pieces.item "short"
  return toString (← distance.number) ++ between ++ short.plain

/-- Whether a piece counts as given. -/
def isSet (pieces : Value) (key : String) : Except Fault Bool := do return (← pieces.item key).truthy

/-- Whether a checkout is away from its tag: by steps, or by changes of its own. -/
def isAway (pieces : Value) : Except Fault Bool := do
  if ← isSet pieces "distance" then return true else isSet pieces "dirty"

/-- **A version of a checkout with a tag.** -/
def Style.tagged (style : Style) (pieces tag : Value) : Except Fault Value :=
  match style with
  | .pep440 => do
    if ← isAway pieces then
      let mark ← localMark pieces
      let v ← extended tag mark
      let v ← extended v (← distanceAndHash pieces ".g")
      extendedIf (← isSet pieces "dirty") v ".dirty"
    else return tag
  | .pep440Pre => do
    if ← isSet pieces "distance" then extended tag (".post.dev" ++ (← distanceText pieces)) else return tag
  | .pep440Post => do
    if ← isAway pieces then
      let v ← extended tag (".post" ++ (← distanceText pieces))
      let v ← extendedIf (← isSet pieces "dirty") v ".dev0"
      let v ← extended v (← localMark pieces)
      extended v ("g" ++ (← pieces.item "short").plain)
    else return tag
  | .pep440Old => do
    if ← isAway pieces then
      let v ← extended tag (".post" ++ (← distanceText pieces))
      extendedIf (← isSet pieces "dirty") v ".dev0"
    else return tag
  | .describe => do
    let v ← if ← isSet pieces "distance" then extended tag ("-" ++ (← distanceAndHash pieces "-g")) else pure tag
    extendedIf (← isSet pieces "dirty") v "-dirty"
  | .describeLong => do
    let v ← extended tag ("-" ++ (← distanceAndHash pieces "-g"))
    extendedIf (← isSet pieces "dirty") v "-dirty"

/-- **A version of a checkout without a tag.** -/
def Style.untagged (style : Style) (pieces : Value) : Except Fault Value :=
  match style with
  | .pep440 => do
    let v := Value.str ("0+untagged." ++ (← distanceAndHash pieces ".g"))
    extendedIf (← isSet pieces "dirty") v ".dirty"
  | .pep440Pre => do return .str ("0.post.dev" ++ (← distanceText pieces))
  | .pep440Post => do
    let v := Value.str ("0.post" ++ (← distanceText pieces))
    let v ← extendedIf (← isSet pieces "dirty") v ".dev0"
    extended v ("+g" ++ (← pieces.item "short").plain)
  | .pep440Old => do
    let v := Value.str ("0.post" ++ (← distanceText pieces))
    extendedIf (← isSet pieces "dirty") v ".dev0"
  | .describe | .describeLong => do
    let v ← pieces.item "short"
    extendedIf (← isSet pieces "dirty") v "-dirty"

/-- **Puts a version together in a style.** Pieces with an error give no version. -/
def render (pieces style : Value) : Except Fault Value := do
  let error ← pieces.item "error"
  if error.truthy then
    let revision ← pieces.getD "long" .null
    return Info.record { version := .str "unknown", revision, error }
  else
    let style ← Style.ofValue style
    let tag ← pieces.item "closest-tag"
    let version ← if tag.truthy then style.tagged pieces tag else style.untagged pieces
    let revision ← pieces.item "long"
    let dirty ← pieces.item "dirty"
    let date ← pieces.getD "date" .null
    return Info.record { version, revision, dirty, date }

end EditorService.Version
