import ScriptServer.Text.Utf8
import ScriptServer.Text.Basic
import ScriptServer.Number.Binary64
import ScriptServer.Number.Decimal
import ScriptServer.Number.Literal
import ScriptServer.Json.Tree
import ScriptServer.Json.Writer
import ScriptServer.Json.Reader
import ScriptServer.Dictionary
import ScriptServer.Config.Environment
import ScriptServer.Config.Settings
import ScriptServer.Config.Manifest
import ScriptServer.Config.Dotenv
import ScriptServer.Config.Flags
import ScriptServer.Toml.Table
import ScriptServer.Toml.Reader
import ScriptServer.Log.Level
import ScriptServer.Log.Panic
import ScriptServer.Log.RequestId
import ScriptServer.Log.Access
import ScriptServer.Host.Path
import ScriptServer.Host.Files
import ScriptServer.Http.Header
import ScriptServer.Http.Percent
import ScriptServer.Http.Request
import ScriptServer.Http.Reader
import ScriptServer.Http.Response
import ScriptServer.Http.Address
import ScriptServer.Script.Builtin
import ScriptServer.Script.Code
import ScriptServer.Script.Value
import ScriptServer.Script.Display
import ScriptServer.Script.Interchange
import ScriptServer.Script.Synthesis
import ScriptServer.Host.World
import ScriptServer.Script.Machine
import ScriptServer.Script.Library
import ScriptServer.Script.Notation
import ScriptServer.Script.Source
import ScriptServer.Script.Fault
import ScriptServer.Script.Eval
import ScriptServer.Regex.CharSet
import ScriptServer.Regex.Parser
import ScriptServer.Regex.Unicode.Folding
import ScriptServer.Regex.Unicode.Property
import ScriptServer.Regex.Unicode.Script
import ScriptServer.Regex.Unicode.Category
import ScriptServer.Regex.Property
import ScriptServer.Regex.Basic
import ScriptServer.Regex.Fold
import ScriptServer.Route.Pattern
import ScriptServer.Route.Registry
import ScriptServer.Route.Table
import ScriptServer.Server.Fault
import ScriptServer.Server.EntryScript
import ScriptServer.Server.Replica
import ScriptServer.Server.Slots
import ScriptServer.Server.Pool
import ScriptServer.Server.Static
import ScriptServer.Server.Dispatch
import ScriptServer.Server.Connection
import ScriptServer.Server.Listener
import ScriptServer.Server.Startup
import ScriptServer.CommandLine
import ScriptServer.Main
import ScriptServer.Proofs.Dictionary
import ScriptServer.Proofs.Text.Utf8
import ScriptServer.Proofs.Text.Digits
import ScriptServer.Proofs.Text.Ascii
import ScriptServer.Proofs.Text.Split
import ScriptServer.Proofs.Text.Case
import ScriptServer.Proofs.Http.Spelling
import ScriptServer.Proofs.Text.Blank
import ScriptServer.Proofs.Config.Overriding
import ScriptServer.Proofs.Config.Unfinished
import ScriptServer.Proofs.Config.Arguments
import ScriptServer.Proofs.Config.Assignments
import ScriptServer.Proofs.Config.VariableName
import ScriptServer.Proofs.Log.RequestId
import ScriptServer.Proofs.Log.Counter
import ScriptServer.Proofs.Number.Rounding
import ScriptServer.Proofs.Number.Value
import ScriptServer.Proofs.Number.Shortest
import ScriptServer.Proofs.Number.Significant
import ScriptServer.Proofs.Number.Integral
import ScriptServer.Proofs.Number.Literal
import ScriptServer.Proofs.Json.Grammar
import ScriptServer.Proofs.Json.Cursor
import ScriptServer.Proofs.Json.Numeral
import ScriptServer.Proofs.Json.Quoted
import ScriptServer.Proofs.Json.Lists
import ScriptServer.Proofs.Json.Language
import ScriptServer.Proofs.Json.Walking
import ScriptServer.Proofs.Json.Scanning
import ScriptServer.Proofs.Json.Positions
import ScriptServer.Proofs.Json.RoundTrip
import ScriptServer.Proofs.Json.Printed
import ScriptServer.Proofs.Json.Nesting
import ScriptServer.Proofs.Json.Normal
import ScriptServer.Proofs.Log.Structured
import ScriptServer.Proofs.Script.Coupling
import ScriptServer.Proofs.Script.Synthesis
import ScriptServer.Proofs.Script.Order
import ScriptServer.Proofs.Script.Display
import ScriptServer.Proofs.Script.Lockstep
import ScriptServer.Proofs.Script.Shapes
import ScriptServer.Proofs.Script.Unfolding
import ScriptServer.Proofs.Script.Sharing
import ScriptServer.Proofs.Script.Encoding
import ScriptServer.Proofs.Script.Naming
import ScriptServer.Proofs.Script.Building
import ScriptServer.Proofs.Script.Restoring
import ScriptServer.Proofs.Script.Portable
import ScriptServer.Proofs.Http.Lines
import ScriptServer.Proofs.Http.Pieces
import ScriptServer.Proofs.Http.Framing
import ScriptServer.Proofs.Http.Percent
import ScriptServer.Proofs.Http.Escapes
import ScriptServer.Proofs.Log.Plain
import ScriptServer.Proofs.Http.Fields
import ScriptServer.Proofs.Http.Writing
import ScriptServer.Proofs.Host.Below
import ScriptServer.Proofs.Route.Matching
import ScriptServer.Proofs.Server.Router
import ScriptServer.Proofs.Route.Registration
import ScriptServer.Proofs.Route.Numbering
import ScriptServer.Proofs.Route.Precedence
import ScriptServer.Proofs.Route.Rest
import ScriptServer.Proofs.Route.Fallback
import ScriptServer.Proofs.Route.Filling
import ScriptServer.Proofs.Route.Refusal
import ScriptServer.Proofs.Server.Files
import ScriptServer.Proofs.Server.Refusal
import ScriptServer.Proofs.Server.Frame
import ScriptServer.Proofs.Server.Deadline
import ScriptServer.Proofs.Server.Replay
import ScriptServer.Proofs.Server.Isolation
import ScriptServer.Proofs.Server.Traffic
import ScriptServer.Proofs.Server.Accounting
import ScriptServer.Proofs.Server.Waking
import ScriptServer.Proofs.Server.Refilling
import ScriptServer.Proofs.Server.Publishing
import ScriptServer.Proofs.Server.Directory
import ScriptServer.Proofs.Server.Replies
import ScriptServer.Proofs.Server.Outcomes
import ScriptServer.Proofs.Server.Reception
