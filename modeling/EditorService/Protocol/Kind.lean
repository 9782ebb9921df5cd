import EditorService.Table

/-!
# Kinds that the protocol numbers

The protocol between editor and service numbers the kinds of completion items, highlights, diagnostics, texts to
insert, messages, symbols and ways of synchronising. Each enumeration below lists its kinds in the order of their
numbers, and `code` is the number.
-/

namespace EditorService.Protocol

/-- The kinds of completion items, from one. -/
inductive CompletionItemKind where
  | text | method | function | constructor | field | variable | classKind | interface | module | property | unit | value
  | enum | keyword | snippet | color | file | reference | folder | enumMember | constant | struct | event | operator
  | typeParameter
  deriving DecidableEq, Repr

/-- The number of a completion item's kind. -/
def CompletionItemKind.code (k : CompletionItemKind) : Nat := k.ctorIdx + 1

/-- The kinds of highlights, from one. -/
inductive HighlightKind where
  | text | read | write
  deriving DecidableEq, Repr

/-- The number of a highlight's kind. -/
def HighlightKind.code (k : HighlightKind) : Nat := k.ctorIdx + 1

/-- The severities of diagnostics, from one. -/
inductive Severity where
  | error | warning | information | hint
  deriving DecidableEq, Repr

/-- The number of a severity. -/
def Severity.code (s : Severity) : Nat := s.ctorIdx + 1

/-- The formats of a text to insert, from one. -/
inductive InsertTextFormat where
  | plainText | snippet
  deriving DecidableEq, Repr

/-- The number of a text's format. -/
def InsertTextFormat.code (f : InsertTextFormat) : Nat := f.ctorIdx + 1

/-- The kinds of messages shown to a person, from one. -/
inductive MessageKind where
  | error | warning | info | log
  deriving DecidableEq, Repr

/-- The number of a message's kind. -/
def MessageKind.code (k : MessageKind) : Nat := k.ctorIdx + 1

/-- The kinds of symbols, from one. -/
inductive SymbolKind where
  | file | module | scope | package | classKind | method | property | field | constructor | enum | interface
  | function | variable | constant | string | number | boolean | array
  deriving DecidableEq, Repr

/-- The number of a symbol's kind. -/
def SymbolKind.code (k : SymbolKind) : Nat := k.ctorIdx + 1

/-- The ways of keeping a document's text in step, from zero. -/
inductive SyncKind where
  | none | full | incremental
  deriving DecidableEq, Repr

/-- The number of a way of synchronising. -/
def SyncKind.code (k : SyncKind) : Nat := k.ctorIdx

/-- Names with numbers that count up from `first`. -/
def numbered (first : Nat) (names : List String) : Table String Nat :=
  names.zipIdx first

/-- **The names and numbers of an enumeration**, by its name in the protocol. -/
def constants? (enumeration : String) : Option (Table String Nat) :=
  Table.get? [
    ("CompletionItemKind", numbered 1
      ["Text", "Method", "Function", "Constructor", "Field", "Variable", "Class", "Interface", "Module", "Property",
       "Unit", "Value", "Enum", "Keyword", "Snippet", "Color", "File", "Reference", "Folder", "EnumMember", "Constant",
       "Struct", "Event", "Operator", "TypeParameter"]),
    ("DocumentHighlightKind", numbered 1 ["Text", "Read", "Write"]),
    ("DiagnosticSeverity", numbered 1 ["Error", "Warning", "Information", "Hint"]),
    ("InsertTextFormat", numbered 1 ["PlainText", "Snippet"]),
    ("MessageType", numbered 1 ["Error", "Warning", "Info", "Log"]),
    ("SymbolKind", numbered 1
      ["File", "Module", "Namespace", "Package", "Class", "Method", "Property", "Field", "Constructor", "Enum",
       "Interface", "Function", "Variable", "Constant", "String", "Number", "Boolean", "Array"]),
    ("TextDocumentSyncKind", numbered 0 ["NONE", "FULL", "INCREMENTAL"])] enumeration

end EditorService.Protocol
