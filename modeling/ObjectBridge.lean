import ObjectBridge.Client.Holding
import ObjectBridge.Client.Objects
import ObjectBridge.Client.Requests
import ObjectBridge.Client.State
import ObjectBridge.Config
import ObjectBridge.Decimal.Binary64
import ObjectBridge.Decimal.Layout
import ObjectBridge.Decimal.Reading
import ObjectBridge.Decimal.Shortest
import ObjectBridge.Dial
import ObjectBridge.Fault
import ObjectBridge.Json
import ObjectBridge.Main
import ObjectBridge.Message.Basic
import ObjectBridge.Message.Calls
import ObjectBridge.Message.Filling
import ObjectBridge.Message.Layout
import ObjectBridge.Message.Reading
import ObjectBridge.Message.Writes
import ObjectBridge.Probe.Arguments
import ObjectBridge.Probe.Help
import ObjectBridge.Probe.Run
import ObjectBridge.Proofs.Client.Alike
import ObjectBridge.Proofs.Client.Asking
import ObjectBridge.Proofs.Client.Assignment
import ObjectBridge.Proofs.Client.Balance
import ObjectBridge.Proofs.Client.Caches
import ObjectBridge.Proofs.Client.Calling
import ObjectBridge.Proofs.Client.Changes
import ObjectBridge.Proofs.Client.Dropping
import ObjectBridge.Proofs.Client.Echo
import ObjectBridge.Proofs.Client.Fetching
import ObjectBridge.Proofs.Client.Gate
import ObjectBridge.Proofs.Client.Holding
import ObjectBridge.Proofs.Client.LifeCycle
import ObjectBridge.Proofs.Client.Listing
import ObjectBridge.Proofs.Client.Lockstep
import ObjectBridge.Proofs.Client.Lookup
import ObjectBridge.Proofs.Client.Moves
import ObjectBridge.Proofs.Client.Objects
import ObjectBridge.Proofs.Client.OnWire
import ObjectBridge.Proofs.Client.Plain
import ObjectBridge.Proofs.Client.ProxyTable
import ObjectBridge.Proofs.Client.Reach
import ObjectBridge.Proofs.Client.Rejection
import ObjectBridge.Proofs.Client.Replies
import ObjectBridge.Proofs.Client.Requests
import ObjectBridge.Proofs.Client.Terms
import ObjectBridge.Proofs.Decimal.Numerals
import ObjectBridge.Proofs.Dialling
import ObjectBridge.Proofs.Environment
import ObjectBridge.Proofs.Message.Chunking
import ObjectBridge.Proofs.Message.Conservation
import ObjectBridge.Proofs.Message.Counts
import ObjectBridge.Proofs.Message.Ending
import ObjectBridge.Proofs.Message.Filling
import ObjectBridge.Proofs.Message.Flushing
import ObjectBridge.Proofs.Message.Parts
import ObjectBridge.Proofs.Message.ReadAhead
import ObjectBridge.Proofs.Message.Robustness
import ObjectBridge.Proofs.Message.RoundTrip
import ObjectBridge.Proofs.Message.Spelling
import ObjectBridge.Proofs.Message.Streaming
import ObjectBridge.Proofs.Message.Truncation
import ObjectBridge.Proofs.Probe.Calls
import ObjectBridge.Proofs.Probe.Words
import ObjectBridge.Proofs.Registry.Accessors
import ObjectBridge.Proofs.Registry.Faults
import ObjectBridge.Proofs.Registry.Naming
import ObjectBridge.Proofs.Registry.Normal
import ObjectBridge.Proofs.Registry.Precedence
import ObjectBridge.Proofs.Registry.Tagged
import ObjectBridge.Proofs.Script.AfterRelease
import ObjectBridge.Proofs.Script.Changes
import ObjectBridge.Proofs.Script.Echo
import ObjectBridge.Proofs.Script.Gate
import ObjectBridge.Proofs.Script.LifeCycle
import ObjectBridge.Proofs.Script.LocalFaults
import ObjectBridge.Proofs.Script.LocalState
import ObjectBridge.Proofs.Script.Lockstep
import ObjectBridge.Proofs.Script.Moves
import ObjectBridge.Proofs.Script.OneProxy
import ObjectBridge.Proofs.Script.Rejection
import ObjectBridge.Proofs.Script.Resolution
import ObjectBridge.Proofs.Script.Templates
import ObjectBridge.Proofs.Script.Unreachable
import ObjectBridge.Proofs.Steps
import ObjectBridge.Proofs.Table.Access
import ObjectBridge.Proofs.Table.Assembly
import ObjectBridge.Proofs.Table.Building
import ObjectBridge.Proofs.Template.Dispatch
import ObjectBridge.Proofs.Template.Names
import ObjectBridge.Proofs.Text.ByteOrder
import ObjectBridge.Proofs.Wire.Delivery
import ObjectBridge.Proofs.Wire.Elementwise
import ObjectBridge.Proofs.Wire.FieldReading
import ObjectBridge.Proofs.Wire.History
import ObjectBridge.Proofs.Wire.Obstacles
import ObjectBridge.Proofs.Wire.ReadAhead
import ObjectBridge.Proofs.Wire.Retrying
import ObjectBridge.Proofs.Wire.Sinks
import ObjectBridge.Proofs.Wire.Spelling
import ObjectBridge.Proofs.Wire.Stream
import ObjectBridge.Proofs.Wire.Supply
import ObjectBridge.Proofs.Wire.Taking
import ObjectBridge.Registry
import ObjectBridge.Script.Run
import ObjectBridge.Script.Step
import ObjectBridge.Table.Matrix
import ObjectBridge.Table.Vector
import ObjectBridge.Template
import ObjectBridge.Text.Blank
import ObjectBridge.Text.Printable
import ObjectBridge.Text.Quoted
import ObjectBridge.Text.Suffix
import ObjectBridge.Text.Utf8
import ObjectBridge.Value.Basic
import ObjectBridge.Value.Document
import ObjectBridge.Wire.Channel
import ObjectBridge.Wire.Reader
import ObjectBridge.Wire.Sink
import ObjectBridge.Wire.Source
import ObjectBridge.Wire.Tag
import ObjectBridge.Wire.Word
import ObjectBridge.Wire.Writer
import ObjectBridge.WireInfo
