import DocAnnotator.Annotate
import DocAnnotator.Cli.Arguments
import DocAnnotator.Cli.Run
import DocAnnotator.Comment.Layout
import DocAnnotator.Comment.Lines
import DocAnnotator.Config.Resolve
import DocAnnotator.Config.Settings
import DocAnnotator.Describe.Prompt
import DocAnnotator.Describe.Response
import DocAnnotator.Describe.Service
import DocAnnotator.Error
import DocAnnotator.Files.Annotate
import DocAnnotator.Files.Path
import DocAnnotator.Files.Store
import DocAnnotator.Files.Workspace
import DocAnnotator.Grammar.Binding
import DocAnnotator.Grammar.ClassBody
import DocAnnotator.Grammar.Cursor
import DocAnnotator.Grammar.Element
import DocAnnotator.Grammar.Expression
import DocAnnotator.Grammar.Rule
import DocAnnotator.Grammar.Script
import DocAnnotator.Grammar.Statement
import DocAnnotator.Grammar.Token
import DocAnnotator.Grammar.Types
import DocAnnotator.Infer.Engine
import DocAnnotator.Infer.Expression
import DocAnnotator.Infer.Returns
import DocAnnotator.Json.Basic
import DocAnnotator.Json.Encoding
import DocAnnotator.Json.Merge
import DocAnnotator.Json.Nearest
import DocAnnotator.Json.Read
import DocAnnotator.Json.Write
import DocAnnotator.Main
import DocAnnotator.Plugin.Hook
import DocAnnotator.Plugin.Pattern
import DocAnnotator.Proofs.Annotate
import DocAnnotator.Proofs.Cli.ExitCode
import DocAnnotator.Proofs.Comment.Layout
import DocAnnotator.Proofs.Comment.Outline
import DocAnnotator.Proofs.Config.Normal
import DocAnnotator.Proofs.Config.Service
import DocAnnotator.Proofs.Config.Timeout
import DocAnnotator.Proofs.Conservation
import DocAnnotator.Proofs.Credentials
import DocAnnotator.Proofs.Describe.Session
import DocAnnotator.Proofs.Files.Interleaving
import DocAnnotator.Proofs.Files.Job
import DocAnnotator.Proofs.Files.Store
import DocAnnotator.Proofs.Idempotence
import DocAnnotator.Proofs.Json.Nearest
import DocAnnotator.Proofs.Json.Read
import DocAnnotator.Proofs.Noninterference
import DocAnnotator.Proofs.Requests
import DocAnnotator.Proofs.RoundTrip
import DocAnnotator.Proofs.Script.Block
import DocAnnotator.Proofs.Script.FirstBlock
import DocAnnotator.Proofs.Script.Merge
import DocAnnotator.Proofs.Script.Reassemble
import DocAnnotator.Proofs.Script.Slice
import DocAnnotator.Proofs.Script.Splice
import DocAnnotator.Proofs.Target.Collect
import DocAnnotator.Proofs.Target.Complete
import DocAnnotator.Proofs.Target.Documented
import DocAnnotator.Proofs.Target.Moved
import DocAnnotator.Proofs.Target.Walk
import DocAnnotator.Proofs.Template
import DocAnnotator.Proofs.Text.Blank
import DocAnnotator.Proofs.Text.Utf8
import DocAnnotator.Proofs.Text.Valid
import DocAnnotator.Proofs.Totality
import DocAnnotator.Proofs.Tree.Commented
import DocAnnotator.Proofs.Tree.Places
import DocAnnotator.Script.Block
import DocAnnotator.Script.Identifier
import DocAnnotator.Script.Splice
import DocAnnotator.Target.Basic
import DocAnnotator.Target.Collect
import DocAnnotator.Target.DocComment
import DocAnnotator.Target.Signature
import DocAnnotator.Template
import DocAnnotator.Text.Basic
import DocAnnotator.Text.Blank
import DocAnnotator.Text.CaseTable
import DocAnnotator.Text.LowerTable
import DocAnnotator.Text.Quoted
import DocAnnotator.Text.Raw
import DocAnnotator.Text.UnprintableTable
import DocAnnotator.Text.Utf8
import DocAnnotator.Text.Word
import DocAnnotator.Text.WordTable
import DocAnnotator.Tree.Node
import DocAnnotator.Tree.Place
import DocAnnotator.TypeUnion
import DocAnnotator.Warning
import DocAnnotator.Proofs.Target.Gap
import DocAnnotator.Proofs.TypeUnion
import DocAnnotator.Proofs.Infer.Leaves
import DocAnnotator.Proofs.Infer.Returns
import DocAnnotator.Proofs.Infer.Engine
import DocAnnotator.Proofs.Infer.Promise
import DocAnnotator.Proofs.TypeUnion.Join
import DocAnnotator.Proofs.Infer.Literal
import DocAnnotator.Proofs.Template.SinglePass
import DocAnnotator.Proofs.Describe.Fallback
import DocAnnotator.Proofs.Json.Memory
import DocAnnotator.Proofs.Json.Merge
import DocAnnotator.Proofs.Json.Keys
import DocAnnotator.Proofs.Config.Precedence
import DocAnnotator.Proofs.Infer.Names
import DocAnnotator.Proofs.Comment.LineEnds
import DocAnnotator.Proofs.Script.Front
import DocAnnotator.Proofs.Columns
import DocAnnotator.Proofs.Describe.Clean
import DocAnnotator.Proofs.Infer.OwnReturns
import DocAnnotator.Proofs.Plugin.Hook
import DocAnnotator.Proofs.Tree.Relocated
import DocAnnotator.Proofs.Target.Standing
import DocAnnotator.Proofs.Target.LoopBody
