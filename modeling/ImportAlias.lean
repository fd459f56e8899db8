import ImportAlias.Text.Basic
import ImportAlias.Path.Platform
import ImportAlias.Path.Normal
import ImportAlias.Path.Drive
import ImportAlias.Path.Anchor
import ImportAlias.Path.Relative
import ImportAlias.Specifier
import ImportAlias.OrderedMap
import ImportAlias.Pattern.Basic
import ImportAlias.Pattern.Notation
import ImportAlias.Template
import ImportAlias.Mapping
import ImportAlias.Options
import ImportAlias.Text.Blank
import ImportAlias.Text.Ranges
import ImportAlias.Text.Printable
import ImportAlias.Text.Alphanumeric
import ImportAlias.Regex.CharSet
import ImportAlias.Regex.Basic
import ImportAlias.Regex.Machine
import ImportAlias.Regex.Normal
import ImportAlias.Regex.Flags
import ImportAlias.Regex.Escape
import ImportAlias.Regex.Bracket
import ImportAlias.Regex.Reader
import ImportAlias.Text.Quoted
import ImportAlias.Event
import ImportAlias.Resolver.Strategy
import ImportAlias.Resolver.Stage
import ImportAlias.Resolver.Basic
import ImportAlias.Plugin
import ImportAlias.Jsonc.Comments
import ImportAlias.Jsonc.TrailingCommas
import ImportAlias.Decimal.Binary64
import ImportAlias.Decimal.Shortest
import ImportAlias.Json.Fault
import ImportAlias.Json.Literal
import ImportAlias.Json.Skip
import ImportAlias.Json.Container
import ImportAlias.Config.Reader
import ImportAlias.Text.Utf8
import ImportAlias.Config.Error
import ImportAlias.Host.Basic
import ImportAlias.Host.FileTree
import ImportAlias.Config.Discovery
import ImportAlias.Json.Value
import ImportAlias.Version
import ImportAlias.Settings
import ImportAlias.Command.Arguments
import ImportAlias.Text.Bytes
import ImportAlias.Log.Basic
import ImportAlias.Log.Directive
import ImportAlias.Log.Reader
import ImportAlias.Log.Filter
import ImportAlias.Log.Line
import ImportAlias.Command.Report
import ImportAlias.Command.Perform
import ImportAlias.Command.Run
import ImportAlias.Main
import ImportAlias.Proofs.Stage.Recall
import ImportAlias.Proofs.Resolver.Build
import ImportAlias.Proofs.Resolver.History
import ImportAlias.Proofs.Resolver.Reference
import ImportAlias.Proofs.Path.Fold
import ImportAlias.Proofs.Path.NormalForm
import ImportAlias.Proofs.Path.Absolute
import ImportAlias.Proofs.Path.DriveForm
import ImportAlias.Proofs.Resolver.Absolute
import ImportAlias.Proofs.Resolver.NormalForm
import ImportAlias.Proofs.Plugin.Calls
import ImportAlias.Proofs.Command.FrontEnds
import ImportAlias.Proofs.Json.Grammar
import ImportAlias.Proofs.Json.Skip
import ImportAlias.Proofs.Json.Unambiguous
import ImportAlias.Proofs.Json.Strings
import ImportAlias.Proofs.Json.Typed
import ImportAlias.Proofs.Json.Tokens
import ImportAlias.Proofs.Config.Meaning
import ImportAlias.Proofs.Jsonc.Layout
import ImportAlias.Proofs.Jsonc.Comments
import ImportAlias.Proofs.Jsonc.TrailingCommas
import ImportAlias.Proofs.Config.Layout
import ImportAlias.Proofs.Resolver.FirstStage
import ImportAlias.Proofs.Resolver.Trace
import ImportAlias.Proofs.Command.Resolutions
import ImportAlias.Proofs.Host.Location
import ImportAlias.Proofs.Path.Ascent
import ImportAlias.Proofs.Config.Nearest
import ImportAlias.Proofs.Host.Canonical
import ImportAlias.Proofs.Command.Project
import ImportAlias.Proofs.Path.Conventions
import ImportAlias.Proofs.Resolver.Conventions
import ImportAlias.Proofs.Pattern.Captures
import ImportAlias.Proofs.Pattern.Expression
import ImportAlias.Proofs.Command.AllOrNothing
import ImportAlias.Proofs.Path.Climb
import ImportAlias.Proofs.Path.DriveRoot
import ImportAlias.Proofs.Template.Fill
import ImportAlias.Proofs.Template.Marks
import ImportAlias.Proofs.Template.Wildcards
import ImportAlias.Proofs.Template.Anchoring
import ImportAlias.Proofs.Resolver.FirstTemplate
import ImportAlias.Proofs.Path.Walk
import ImportAlias.Proofs.Path.Uncovered
import ImportAlias.Proofs.Path.Shown
import ImportAlias.Proofs.Path.Follow
import ImportAlias.Proofs.Path.Joining
import ImportAlias.Proofs.Resolver.TwoSteps
import ImportAlias.Proofs.Path.RoundTrip
import ImportAlias.Proofs.Path.Cut
import ImportAlias.Proofs.Json.Pairing
import ImportAlias.Proofs.Config.Declared
import ImportAlias.Proofs.Resolver.Explanation
import ImportAlias.Proofs.Resolver.Refusal
import ImportAlias.Proofs.Jsonc.Lines
import ImportAlias.Proofs.Json.Faults
import ImportAlias.Proofs.Config.Faults
import ImportAlias.Proofs.Path.Beginnings
import ImportAlias.Proofs.Host.Passage
import ImportAlias.Proofs.Config.Spelling
import ImportAlias.Proofs.Jsonc.Strings
import ImportAlias.Proofs.Log.Verbosity
import ImportAlias.Proofs.Command.Verbosity
