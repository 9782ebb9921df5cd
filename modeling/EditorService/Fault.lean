import EditorService.Text.Quoted

/-!
# Faults

Everything that can stop a computation is one of the causes below. A cause has a label, the word by which a client
knows this kind of fault, and a message. Some kinds have a label only: their wording is not part of the interface, and
`message?` gives none.

A computation that never ends is a cause as well, `endless`. No client gets to see it: whoever waits for the result
waits for ever.

Causes are data, so a law can say exactly when one arises. The wording stands in this file alone.
-/

namespace EditorService

/-- The kinds of fault that an outside tool may report. -/
inductive ToolFaultKind where
  | notImplemented
  | attribute
  | runtime
  | value
  | loading
  | other
  deriving DecidableEq, Repr

/-- What is wrong with a settings file of sections and options. Lines are counted from one. -/
inductive IniFault where
  | noSectionHeader (file : String) (line : Nat) (text : String)
  | unreadable (file : String) (lines : List (Nat × String))
  | repeatedSection (file : String) (line : Nat) (name : String)
  | repeatedOption (file : String) (line : Nat) (sectionName : String) (option : String)
  | sectionMissing (name : String)
  | optionMissing (option : String) (sectionName : String)
  | badPercent (rest : String)
  | badReference (rest : String)
  | referenceMissing (option : String) (sectionName : String) (raw : String) (reference : String)
  | referenceTooDeep (option : String) (sectionName : String) (raw : String)
  deriving DecidableEq, Repr

/-- What is wrong with a URI. -/
inductive UriFault where
  | unbalancedBrackets
  | badHost (host : String)
  | badFutureHost
  | fourPartHost
  | disguisedDelimiter (authority : String)
  deriving DecidableEq, Repr

/-- Why a version cannot be found or written. -/
inductive VersionFault where
  | notApplicable (reason : String)
  | badRoot (reason : String)
  | refused (reason : String)
  | unknownStyle (name : String)
  deriving DecidableEq, Repr

/-- **A cause that stops a computation.** -/
inductive Fault where
  | keyMissing (key : String)
  | methodMissing
  | checkMissing
  | levelMissing (level : Nat)
  | wrongType
  | memberMissing
  | indexRange
  | indexWidth
  | countWidth
  | popEmpty
  | textIndexRange
  | badInteger (text : String)
  | badBoolean (text : String)
  | optionType (name : String)
  | textMissing
  | pathMissing
  | fileMissing (path : String)
  | isDirectory (path : String)
  | badJson
  | badUtf8
  | badPattern
  | nameUnset
  | noImplementation
  | renameUnsupported
  | notAServer
  | endless
  | ini (cause : IniFault)
  | uri (cause : UriFault)
  | version (cause : VersionFault)
  | tool (kind : ToolFaultKind) (text : String)
  deriving DecidableEq, Repr

/-- The label of a tool's fault. -/
def ToolFaultKind.label : ToolFaultKind → String
  | .notImplemented => "NotImplementedError"
  | .attribute => "AttributeError"
  | .runtime => "RuntimeError"
  | .value => "ValueError"
  | .loading => "ImportError"
  | .other => "Exception"

/-- The kind that a label names; every other label stands for `other`. -/
def ToolFaultKind.ofLabel (label : String) : ToolFaultKind :=
  if label == "NotImplementedError" then .notImplemented
  else if label == "AttributeError" then .attribute
  else if label == "RuntimeError" then .runtime
  else if label == "ValueError" then .value
  else if label == "ImportError" then .loading
  else .other

/-- The label of a fault in a settings file. -/
def IniFault.label : IniFault → String
  | .noSectionHeader .. => "MissingSectionHeaderError"
  | .unreadable .. => "ParsingError"
  | .repeatedSection .. => "DuplicateSectionError"
  | .repeatedOption .. => "DuplicateOptionError"
  | .sectionMissing _ => "NoSectionError"
  | .optionMissing .. => "NoOptionError"
  | .badPercent _ => "InterpolationSyntaxError"
  | .badReference _ => "InterpolationSyntaxError"
  | .referenceMissing .. => "InterpolationMissingOptionError"
  | .referenceTooDeep .. => "InterpolationDepthError"

/-- A line number, in a field two wide. -/
def IniFault.lineText (n : Nat) : String := if n < 10 then " " ++ toString n else toString n

/-- The message of a fault in a settings file. -/
def IniFault.message : IniFault → String
  | .noSectionHeader file line text =>
    "File contains no section headers.\nfile: " ++ Text.quoted file ++ ", line: " ++ toString line ++ "\n" ++
      Text.quoted text
  | .unreadable file lines =>
    "Source contains parsing errors: " ++ Text.quoted file ++
      String.join (lines.map fun l => "\n\t[line " ++ lineText l.1 ++ "]: " ++ Text.quoted l.2)
  | .repeatedSection file line name =>
    "While reading from " ++ Text.quoted file ++ " [line " ++ lineText line ++ "]: section " ++ Text.quoted name ++
      " already exists"
  | .repeatedOption file line sectionName option =>
    "While reading from " ++ Text.quoted file ++ " [line " ++ lineText line ++ "]: option " ++ Text.quoted option ++
      " in section " ++ Text.quoted sectionName ++ " already exists"
  | .sectionMissing name => "No section: " ++ Text.quoted name
  | .optionMissing option sectionName => "No option " ++ Text.quoted option ++ " in section: " ++ Text.quoted sectionName
  | .badPercent rest => "'%' must be followed by '%' or '(', found: " ++ Text.quoted rest
  | .badReference rest => "bad interpolation variable reference " ++ Text.quoted rest
  | .referenceMissing option sectionName raw reference =>
    "Bad value substitution: option " ++ Text.quoted option ++ " in section " ++ Text.quoted sectionName ++
      " contains an interpolation key " ++ Text.quoted reference ++ " which is not a valid option name. Raw value: " ++
      Text.quoted raw
  | .referenceTooDeep option sectionName raw =>
    "Recursion limit exceeded in value substitution: option " ++ Text.quoted option ++ " in section " ++
      Text.quoted sectionName ++ " contains an interpolation key which cannot be substituted in 10 steps. Raw value: " ++
      Text.quoted raw

/-- The message of a fault in a URI. -/
def UriFault.message : UriFault → String
  | .unbalancedBrackets => "Invalid IPv6 URL"
  | .badHost host => Text.quoted host ++ " does not appear to be an IPv4 or IPv6 address"
  | .badFutureHost => "IPvFuture address is invalid"
  | .fourPartHost => "An IPv4 address cannot be in brackets"
  | .disguisedDelimiter authority =>
    "netloc '" ++ authority ++ "' contains invalid characters under NFKC normalization"

/-- The label of a version fault. -/
def VersionFault.label : VersionFault → String
  | .notApplicable _ => "NotThisMethod"
  | .badRoot _ => "VersioneerBadRootError"
  | .refused _ => "AssertionError"
  | .unknownStyle _ => "ValueError"

/-- The message of a version fault. -/
def VersionFault.message : VersionFault → String
  | .notApplicable reason => reason
  | .badRoot reason => reason
  | .refused reason => reason
  | .unknownStyle name => "unknown style '" ++ name ++ "'"

/-- **The label of a fault.** -/
def Fault.label : Fault → String
  | .keyMissing _ => "KeyError"
  | .methodMissing => "KeyError"
  | .checkMissing => "KeyError"
  | .levelMissing _ => "KeyError"
  | .wrongType => "TypeError"
  | .memberMissing => "AttributeError"
  | .indexRange => "IndexError"
  | .indexWidth => "IndexError"
  | .countWidth => "OverflowError"
  | .popEmpty => "IndexError"
  | .textIndexRange => "IndexError"
  | .badInteger _ => "ValueError"
  | .badBoolean _ => "ValueError"
  | .optionType _ => "ValueError"
  | .textMissing => "ValueError"
  | .pathMissing => "ValueError"
  | .fileMissing _ => "FileNotFoundError"
  | .isDirectory _ => "IsADirectoryError"
  | .badJson => "JSONDecodeError"
  | .badUtf8 => "UnicodeDecodeError"
  | .badPattern => "error"
  | .nameUnset => "UnboundLocalError"
  | .noImplementation => "NotImplementedError"
  | .renameUnsupported => "Exception"
  | .notAServer => "ValueError"
  | .endless => ""
  | .ini cause => cause.label
  | .uri _ => "ValueError"
  | .version cause => cause.label
  | .tool kind _ => kind.label

/-- **The message of a fault**, where its wording is part of the interface. -/
def Fault.message? : Fault → Option String
  | .keyMissing key => some (Text.quoted key)
  | .methodMissing => some ""
  | .checkMissing => some ""
  | .levelMissing level => some (toString level)
  | .wrongType => none
  | .memberMissing => none
  | .indexRange => some "list index out of range"
  | .indexWidth => some "cannot fit 'int' into an index-sized integer"
  | .countWidth => none
  | .popEmpty => some "pop from empty list"
  | .textIndexRange => some "string index out of range"
  | .badInteger text => some ("invalid literal for int() with base 10: " ++ Text.quoted text)
  | .badBoolean text => some ("Not a boolean: " ++ text)
  | .optionType name => some ("Unknown option type: <class '" ++ name ++ "'>")
  | .textMissing => some "substring not found"
  | .pathMissing => some "no path specified"
  | .fileMissing path => some ("[Errno 2] No such file or directory: " ++ Text.quoted path)
  | .isDirectory path => some ("[Errno 21] Is a directory: " ++ Text.quoted path)
  | .badJson => none
  | .badUtf8 => none
  | .badPattern => none
  | .nameUnset => none
  | .noImplementation => some ""
  | .renameUnsupported =>
    some "No support for renaming in Python 2/3.5 with Jedi. Consider using the rope_rename plugin instead"
  | .notAServer => some "Handler class must be an instance of PythonLanguageServer"
  | .endless => none
  | .ini cause => some cause.message
  | .uri cause => some cause.message
  | .version cause => some cause.message
  | .tool .attribute _ => none
  | .tool _ text => some text

/-- A computation of two parts gives a result when its first part does, and its second part does with that result. -/
theorem Fault.bind_eq_ok {α β : Type} {first : Except Fault α} {second : α → Except Fault β} {result : β} :
    first >>= second = .ok result ↔ ∃ a, first = .ok a ∧ second a = .ok result := by
  constructor
  · intro h
    match first, h with
    | .ok a, h => exact ⟨a, rfl, h⟩
    | .error _, h => exact nomatch h
  · rintro ⟨a, rfl, h⟩
    exact h

theorem Fault.map_eq_ok {α β : Type} {f : α → β} {outcome : Except Fault α} {y : β} :
    outcome.map f = .ok y ↔ ∃ x, outcome = .ok x ∧ y = f x := by
  cases outcome with
  | ok x =>
    constructor
    · intro h
      exact ⟨x, rfl, (Except.ok.inj h).symm⟩
    · rintro ⟨_, hx, rfl⟩
      cases hx
      rfl
  | error e =>
    constructor
    · intro h
      cases h
    · rintro ⟨_, hx, -⟩
      cases hx

/-- What is written item by item is read item by item. -/
theorem Fault.mapM_read_map {α β γ : Type} {write : α → β} {read : β → Except Fault γ} {shown : α → γ}
    (h : ∀ a, read (write a) = .ok (shown a)) (as : List α) : (as.map write).mapM read = .ok (as.map shown) := by
  induction as with
  | nil => rfl
  | cons a rest ih =>
    rw [List.map_cons, List.mapM_cons, h, ih]
    rfl

theorem Fault.mapM_read_write {α β : Type} {write : α → β} {read : β → Except Fault α} (h : ∀ a, read (write a) = .ok a)
    (as : List α) : (as.map write).mapM read = .ok as :=
  (mapM_read_map h as).trans (congrArg Except.ok (List.map_id as))

theorem Fault.eq_ok_of_toOption {α : Type} {outcome : Except Fault α} {result : α}
    (h : outcome.toOption = some result) : outcome = .ok result := by
  cases outcome with
  | error f => exact nomatch h
  | ok a => exact congrArg Except.ok (Option.some.inj h)

end EditorService
