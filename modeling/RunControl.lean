import RunControl.Address
import RunControl.Arming
import RunControl.Breakpoint
import RunControl.CommandLine.Commands
import RunControl.CommandLine.Console
import RunControl.CommandLine.Form
import RunControl.CommandLine.Grammar
import RunControl.CommandLine.Invocation
import RunControl.CommandLine.Reading
import RunControl.CommandLine.Usage
import RunControl.Config
import RunControl.Cpu
import RunControl.Decimal.Nearest
import RunControl.Decimal.Shortest
import RunControl.Engine.Basic
import RunControl.Engine.Playlist
import RunControl.Engine.Scripted
import RunControl.Error
import RunControl.Files.Path
import RunControl.Files.Tree
import RunControl.Host
import RunControl.Json.Decoder
import RunControl.Json.Fault
import RunControl.Json.Node
import RunControl.Json.Number
import RunControl.Json.Reader
import RunControl.Json.Writer
import RunControl.Labels
import RunControl.Listing
import RunControl.Main
import RunControl.Proofs.Batch
import RunControl.Proofs.BatchSize
import RunControl.Proofs.Bracketing
import RunControl.Proofs.BreakpointSet
import RunControl.Proofs.Commit
import RunControl.Proofs.Consumption
import RunControl.Proofs.Conversation
import RunControl.Proofs.Decoding
import RunControl.Proofs.Disabled
import RunControl.Proofs.Drive
import RunControl.Proofs.Edits
import RunControl.Proofs.EngineUse
import RunControl.Proofs.Files.KeptApart
import RunControl.Proofs.Files.Places
import RunControl.Proofs.Files.Spelling
import RunControl.Proofs.Files.Trees
import RunControl.Proofs.Growth
import RunControl.Proofs.History
import RunControl.Proofs.Json.Codec
import RunControl.Proofs.Json.Extent
import RunControl.Proofs.Json.Growing
import RunControl.Proofs.Json.Nesting
import RunControl.Proofs.Json.Numeral
import RunControl.Proofs.Json.Printed
import RunControl.Proofs.Json.ReadBack
import RunControl.Proofs.Json.Rearranging
import RunControl.Proofs.Json.Records
import RunControl.Proofs.Json.Reordered
import RunControl.Proofs.Json.Settled
import RunControl.Proofs.Json.Stability
import RunControl.Proofs.ListFaults
import RunControl.Proofs.Meaning
import RunControl.Proofs.MemberOrder
import RunControl.Proofs.Names.AddressSyntax
import RunControl.Proofs.Names.ByteOrder
import RunControl.Proofs.Names.Labelling
import RunControl.Proofs.Names.Loaders
import RunControl.Proofs.Names.Numerals
import RunControl.Proofs.Names.SymbolTables
import RunControl.Proofs.NoOverrun
import RunControl.Proofs.Outcome
import RunControl.Proofs.Pausing
import RunControl.Proofs.Persistence
import RunControl.Proofs.Progress
import RunControl.Proofs.Refusal
import RunControl.Proofs.Reloading
import RunControl.Proofs.Restoring
import RunControl.Proofs.Resuming
import RunControl.Proofs.RoundTrip
import RunControl.Proofs.RunCommand
import RunControl.Proofs.RunInputs
import RunControl.Proofs.Sound
import RunControl.Proofs.Splitting
import RunControl.Proofs.Stepping
import RunControl.Proofs.StopRequests
import RunControl.Proofs.Target
import RunControl.Proofs.Tick
import RunControl.Proofs.TickChain
import RunControl.Proofs.TickCount
import RunControl.Proofs.Walk
import RunControl.Request
import RunControl.Scheduler
import RunControl.Session
import RunControl.Storage.Basic
import RunControl.Storage.Files
import RunControl.Store
import RunControl.Symbols
import RunControl.Table
import RunControl.Text.Blank
import RunControl.Text.Hidden
import RunControl.Text.Quoted
import RunControl.Text.Utf8
import RunControl.Throughput
import RunControl.TickRequests
import RunControl.Toml.Quoted
import RunControl.Toml.Reader
import RunControl.Toml.Scalar
import RunControl.Toml.Value
