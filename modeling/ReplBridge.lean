import ReplBridge.Analysis.Command
import ReplBridge.Analysis.Launch
import ReplBridge.Analysis.Report
import ReplBridge.Analysis.Response
import ReplBridge.Bridge.Dialog
import ReplBridge.Bridge.Script
import ReplBridge.Bridge.Serving
import ReplBridge.Config.Environment
import ReplBridge.Config.Fault
import ReplBridge.Config.Profile
import ReplBridge.Config.Reader
import ReplBridge.Config.Settings
import ReplBridge.Config.Writer
import ReplBridge.Console.Command
import ReplBridge.Console.Run
import ReplBridge.Disk
import ReplBridge.Document.Path
import ReplBridge.Document.Store
import ReplBridge.Document.Uri
import ReplBridge.Editor.Body
import ReplBridge.Editor.Intake
import ReplBridge.Editor.Message
import ReplBridge.Editor.Question
import ReplBridge.Editor.Server
import ReplBridge.Editor.Wire
import ReplBridge.Health.Address
import ReplBridge.Health.Monitor
import ReplBridge.Json.Basic
import ReplBridge.Json.Number
import ReplBridge.Json.Printer
import ReplBridge.Json.Read
import ReplBridge.Json.Reader
import ReplBridge.Log.Level
import ReplBridge.Log.Record
import ReplBridge.Log.Value
import ReplBridge.Main
import ReplBridge.Packed.Bits
import ReplBridge.Packed.Checksum
import ReplBridge.Packed.Fault
import ReplBridge.Packed.Frame
import ReplBridge.Packed.Huffman
import ReplBridge.Packed.Literals
import ReplBridge.Packed.Sequences
import ReplBridge.Packed.States
import ReplBridge.Packed.Stored
import ReplBridge.Program.Command
import ReplBridge.Program.Doctor
import ReplBridge.Program.Executable
import ReplBridge.Program.Flag
import ReplBridge.Program.Run
import ReplBridge.Proofs.Document.Store
import ReplBridge.Proofs.Health.Monitor
import ReplBridge.Proofs.Repl.Framer
import ReplBridge.Proofs.Repl.Session.Abandon
import ReplBridge.Proofs.Repl.Session.Acts
import ReplBridge.Proofs.Repl.Session.Alignment
import ReplBridge.Proofs.Repl.Session.Change
import ReplBridge.Proofs.Repl.Session.Completion
import ReplBridge.Proofs.Repl.Session.GivenUp
import ReplBridge.Proofs.Repl.Session.LastCommand
import ReplBridge.Proofs.Repl.Session.Ledger
import ReplBridge.Proofs.Repl.Session.Order
import ReplBridge.Proofs.Repl.Session.Play
import ReplBridge.Proofs.Repl.Session.Release
import ReplBridge.Proofs.Repl.Session.Run
import ReplBridge.Proofs.Repl.Session.Settle
import ReplBridge.Proofs.Repl.Session.Taken
import ReplBridge.Proofs.Repl.Session.Timeout
import ReplBridge.Proofs.Repl.Session.Timers
import ReplBridge.Proofs.Repl.Session.Transcript
import ReplBridge.Proofs.Repl.Session.Unseen
import ReplBridge.Proofs.Repl.Session.UnseenRun
import ReplBridge.Proofs.Repl.Session.Veil
import ReplBridge.Proofs.Repl.Session.Watch
import ReplBridge.Proofs.Terminal.Ready
import ReplBridge.Proofs.Terminal.Sanitizer
import ReplBridge.Proofs.Terminal.Sequence
import ReplBridge.Proofs.Terminal.Stream
import ReplBridge.Proofs.Text.Split
import ReplBridge.Proofs.Text.Join
import ReplBridge.Protocol.Answer
import ReplBridge.Protocol.Diagnostic
import ReplBridge.Protocol.Location
import ReplBridge.Repl.Ending
import ReplBridge.Repl.Failure
import ReplBridge.Repl.Frame
import ReplBridge.Repl.Framer
import ReplBridge.Repl.Identity
import ReplBridge.Repl.Phase
import ReplBridge.Repl.Session.Basic
import ReplBridge.Repl.Session.Event
import ReplBridge.Repl.Session.Move
import ReplBridge.Repl.Session.View
import ReplBridge.Terminal.Escape
import ReplBridge.Terminal.Sanitizer
import ReplBridge.Text.Base64
import ReplBridge.Text.Blank
import ReplBridge.Text.Bytes
import ReplBridge.Text.Decimal
import ReplBridge.Text.Double
import ReplBridge.Text.Duration
import ReplBridge.Text.Host
import ReplBridge.Text.Interval
import ReplBridge.Text.Letter
import ReplBridge.Text.Lines
import ReplBridge.Text.Natural
import ReplBridge.Text.Printable
import ReplBridge.Text.Quoted
import ReplBridge.Text.Table
import ReplBridge.Text.Utf8
import ReplBridge.Time.Stamp
import ReplBridge.Transcript.Codec
import ReplBridge.Transcript.Entry
import ReplBridge.Transcript.Print
import ReplBridge.Transcript.Reader
import ReplBridge.Transcript.Writer
import ReplBridge.Yaml.Cursor
import ReplBridge.Yaml.Decode
import ReplBridge.Yaml.Node
import ReplBridge.Yaml.Scalar
import ReplBridge.Yaml.Source
import ReplBridge.Yaml.Style
import ReplBridge.Yaml.Token
import ReplBridge.Yaml.Value
import ReplBridge.Yaml.Writer
import ReplBridge.Proofs.Analysis.Command
import ReplBridge.Proofs.Repl.Session.Exit
import ReplBridge.Proofs.Repl.Session.Attended
import ReplBridge.Proofs.Repl.Session.Close
import ReplBridge.Proofs.Repl.Session.Forsaken
import ReplBridge.Proofs.Repl.Session.Stderr
import ReplBridge.Proofs.Editor.Shutdown
import ReplBridge.Proofs.Editor.Order
import ReplBridge.Proofs.Bridge.Serving
import ReplBridge.Proofs.Editor.Connection
import ReplBridge.Proofs.Transcript.RoundTrip
import ReplBridge.Proofs.Text.Blank
import ReplBridge.Proofs.Json.Grammar
import ReplBridge.Proofs.Repl.Frame
import ReplBridge.Proofs.Analysis.Report
import ReplBridge.Proofs.Json.Markup
import ReplBridge.Proofs.Json.Meaning
import ReplBridge.Proofs.Repl.Rendering
import ReplBridge.Proofs.Document.Merge
import ReplBridge.Proofs.Document.Path
import ReplBridge.Proofs.Document.Uri
import ReplBridge.Proofs.Editor.Failure
import ReplBridge.Proofs.Editor.Spelling
import ReplBridge.Proofs.Analysis.Shapes
import ReplBridge.Proofs.Text.Words
import ReplBridge.Proofs.Console.Line
import ReplBridge.Proofs.Console.Run
import ReplBridge.Proofs.Config.Names
import ReplBridge.Proofs.Config.Seconds
import ReplBridge.Proofs.Terminal.Whole
