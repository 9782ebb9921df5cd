import EditorService.Text.LowerCase
import EditorService.Text.Split

/-!
# Methods

A client names a method in its own style, as in `textDocument/didOpen`. The name is brought to one form: slashes become
two underscores, dollar signs fall out, words are set apart by underscores, and capitals become small. Two names of one
form are one method.
-/

namespace EditorService

/-- **The methods of the service.** -/
inductive Method where
  | shutdown | exit | start | started
  | didOpen | didChange | didSave | didClose
  | codeAction | codeLens | completion | definition | documentHighlight | hover | documentSymbol | formatting
  | rename | foldingRange | rangeFormatting | references | signatureHelp
  | didChangeConfiguration | didChangeFolders | didChangeFiles | executeCommand
  deriving DecidableEq, Repr

namespace Method

/-- The methods by the one form of their names. -/
def names : List (String × Method) :=
  [("shutdown", .shutdown),
   ("exit", .exit),
   ("initialize", .start),
   ("initialized", .started),
   ("text_document__did_open", .didOpen),
   ("text_document__did_change", .didChange),
   ("text_document__did_save", .didSave),
   ("text_document__did_close", .didClose),
   ("text_document__code_action", .codeAction),
   ("text_document__code_lens", .codeLens),
   ("text_document__completion", .completion),
   ("text_document__definition", .definition),
   ("text_document__document_highlight", .documentHighlight),
   ("text_document__hover", .hover),
   ("text_document__document_symbol", .documentSymbol),
   ("text_document__formatting", .formatting),
   ("text_document__rename", .rename),
   ("text_document__folding_range", .foldingRange),
   ("text_document__range_formatting", .rangeFormatting),
   ("text_document__references", .references),
   ("text_document__signature_help", .signatureHelp),
   ("workspace__did_change_configuration", .didChangeConfiguration),
   ("workspace__did_change_workspace_folders", .didChangeFolders),
   ("workspace__did_change_watched_files", .didChangeFiles),
   ("workspace__execute_command", .executeCommand)]

/-- Sets words apart that start with a capital and go on in small letters. -/
def separateWords : List Char → List Char
  | c :: u :: l :: rest =>
    if c != '\n' && u.isUpper && l.isLower then
      c :: '_' :: u :: l :: (rest.takeWhile Char.isLower ++ separateWords (rest.dropWhile Char.isLower))
    else c :: separateWords (u :: l :: rest)
  | s => s
termination_by s => s.length
decreasing_by
  · have := (List.dropWhile_sublist (l := rest) Char.isLower).length_le
    simp only [List.length_cons]
    omega
  · simp

/-- Sets a capital apart from a small letter or digit in front of it. -/
def separateCapitals : List Char → List Char
  | a :: b :: rest =>
    if (a.isLower || a.isDigit) && b.isUpper then a :: '_' :: separateCapitals (b :: rest)
    else a :: separateCapitals (b :: rest)
  | s => s

/-- **The one form of a name.** -/
def normalName (name : String) : String :=
  let s := Text.replace ['$'] [] (Text.replace ['/'] ['_', '_'] name.toList)
  String.ofList (Text.lower (separateCapitals (separateWords s)))

/-- **The method of a name.** -/
def ofName? (name : String) : Option Method := names.lookup (normalName name)

end Method

end EditorService
