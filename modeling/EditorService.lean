import EditorService.CommandLine
import EditorService.Config
import EditorService.Config.Create
import EditorService.Debounce
import EditorService.Distribution
import EditorService.Document
import EditorService.Document.Change
import EditorService.Document.Line
import EditorService.Fault
import EditorService.Feature.Completion
import EditorService.Feature.DocText
import EditorService.Feature.Engine
import EditorService.Feature.Folding
import EditorService.Feature.Format
import EditorService.Feature.Hover
import EditorService.Feature.Location
import EditorService.Feature.ParamDoc
import EditorService.Feature.Preload
import EditorService.Feature.Refactoring
import EditorService.Feature.Rename
import EditorService.Feature.Signature
import EditorService.Feature.Snippet
import EditorService.Feature.Symbols
import EditorService.Feature.View
import EditorService.FileTree
import EditorService.FileTree.Search
import EditorService.Folding.Indentation
import EditorService.Folding.Walk
import EditorService.Hook
import EditorService.Host
import EditorService.Ini
import EditorService.Ini.Interpolation
import EditorService.Ini.Reader
import EditorService.Job
import EditorService.Launch
import EditorService.Lint.Complexity
import EditorService.Lint.Diagnostic
import EditorService.Lint.Documentation
import EditorService.Lint.Flake8
import EditorService.Lint.Names
import EditorService.Lint.OutputLine
import EditorService.Lint.Process
import EditorService.Lint.Pylint
import EditorService.Lint.Style
import EditorService.Liveness
import EditorService.Main
import EditorService.Message
import EditorService.Path
import EditorService.Plugin
import EditorService.Plugin.Answer
import EditorService.Plugin.Recorded
import EditorService.Proofs.BlankLines
import EditorService.Proofs.ClientLines
import EditorService.Proofs.ClientSettings
import EditorService.Proofs.Clock
import EditorService.Proofs.CursorWords
import EditorService.Proofs.Debouncing
import EditorService.Proofs.DiagnosticLines
import EditorService.Proofs.Diagnostics
import EditorService.Proofs.Digits
import EditorService.Proofs.DocumentSteps
import EditorService.Proofs.DocumentSymbols
import EditorService.Proofs.Environments
import EditorService.Proofs.Escapes
import EditorService.Proofs.FeatureJobs
import EditorService.Proofs.FileLayers
import EditorService.Proofs.FilePaths
import EditorService.Proofs.FileReports
import EditorService.Proofs.FileUris
import EditorService.Proofs.FolderChoice
import EditorService.Proofs.FolderEvents
import EditorService.Proofs.FolderRouting
import EditorService.Proofs.FoldingRanges
import EditorService.Proofs.Homes
import EditorService.Proofs.Jobs
import EditorService.Proofs.JsonNotation
import EditorService.Proofs.Layout
import EditorService.Proofs.LentChecks
import EditorService.Proofs.LinterOutput
import EditorService.Proofs.Linting
import EditorService.Proofs.Locations
import EditorService.Proofs.MergedFolds
import EditorService.Proofs.Merging
import EditorService.Proofs.ModuleNames
import EditorService.Proofs.Notices
import EditorService.Proofs.NullSettings
import EditorService.Proofs.OpenDocuments
import EditorService.Proofs.OptionPlaces
import EditorService.Proofs.Outline
import EditorService.Proofs.OutputLines
import EditorService.Proofs.PathPlaces
import EditorService.Proofs.PluginEnablement
import EditorService.Proofs.Precedence
import EditorService.Proofs.PreorderWalk
import EditorService.Proofs.ReportEntries
import EditorService.Proofs.RevisionNames
import EditorService.Proofs.RootFolder
import EditorService.Proofs.Routines
import EditorService.Proofs.SettingsCoherence
import EditorService.Proofs.SettingsFiles
import EditorService.Proofs.SettingsMemory
import EditorService.Proofs.Splice
import EditorService.Proofs.Steps
import EditorService.Proofs.Synchronisation
import EditorService.Proofs.Turns
import EditorService.Proofs.UpwardSearch
import EditorService.Proofs.VersionFiles
import EditorService.Proofs.WholeEdits
import EditorService.Protocol.Kind
import EditorService.Protocol.Range
import EditorService.Server.Endpoint
import EditorService.Server.Folders
import EditorService.Server.Frame
import EditorService.Server.Handle
import EditorService.Server.Method
import EditorService.Server.Shown
import EditorService.Server.Start
import EditorService.Server.State
import EditorService.Server.Timers
import EditorService.Settings.Cache
import EditorService.Settings.Merge
import EditorService.Settings.Option
import EditorService.Settings.Source
import EditorService.SignedIndex
import EditorService.Table
import EditorService.Text.Blank
import EditorService.Text.Digit
import EditorService.Text.Lines
import EditorService.Text.LowerCase
import EditorService.Text.Number
import EditorService.Text.Pattern
import EditorService.Text.Pattern.Parser
import EditorService.Text.Printable
import EditorService.Text.Quoted
import EditorService.Text.Split
import EditorService.Text.Template
import EditorService.Text.Utf8
import EditorService.Text.WordChar
import EditorService.Tool.Answer
import EditorService.Tool.Definition
import EditorService.Tool.Recorded
import EditorService.Tool.Tree
import EditorService.Uri
import EditorService.Uri.FilePath
import EditorService.Uri.Host
import EditorService.Value
import EditorService.Value.Access
import EditorService.Value.Display
import EditorService.Value.Json
import EditorService.Value.Read
import EditorService.Version.Build
import EditorService.Version.Command
import EditorService.Version.Console
import EditorService.Version.Describe
import EditorService.Version.File
import EditorService.Version.Find
import EditorService.Version.Install
import EditorService.Version.Keywords
import EditorService.Version.Module
import EditorService.Version.ParentDirectory
import EditorService.Version.Pieces
import EditorService.Version.Project
import EditorService.Version.Style
import EditorService.Workspace
import EditorService.Workspace.Folder
