import StateAtlas.Choice
import StateAtlas.Code.Argument
import StateAtlas.Code.Attribute
import StateAtlas.Code.Call
import StateAtlas.Code.Delivery
import StateAtlas.Code.Execute
import StateAtlas.Code.Iteration
import StateAtlas.Code.Object
import StateAtlas.Code.Operation
import StateAtlas.Code.Process
import StateAtlas.Code.Program
import StateAtlas.Code.Source
import StateAtlas.Code.Subscript
import StateAtlas.Code.Variable
import StateAtlas.CommandLine.Arguments
import StateAtlas.CommandLine.Help
import StateAtlas.CommandLine.Option
import StateAtlas.CommandLine.Run
import StateAtlas.CommandLine.Word
import StateAtlas.Config.Basic
import StateAtlas.Config.Document
import StateAtlas.Config.File
import StateAtlas.Data.Bindings
import StateAtlas.Data.Datum
import StateAtlas.Data.Nth
import StateAtlas.Fault
import StateAtlas.File.Path
import StateAtlas.File.Store
import StateAtlas.Fingerprint.Freeze
import StateAtlas.Fingerprint.Frozen
import StateAtlas.Label.Color
import StateAtlas.Label.Journal
import StateAtlas.Label.Legend
import StateAtlas.Label.Registry
import StateAtlas.Label.Tally
import StateAtlas.Label.Writer
import StateAtlas.Log
import StateAtlas.Main
import StateAtlas.Number.Binary
import StateAtlas.Number.Decimal
import StateAtlas.Number.Real
import StateAtlas.Number.Shortest
import StateAtlas.Program.Arithmetic
import StateAtlas.Program.Attribute
import StateAtlas.Program.Compare
import StateAtlas.Program.Instruction
import StateAtlas.Program.Literal
import StateAtlas.Program.Print
import StateAtlas.Program.Scene
import StateAtlas.Program.Type
import StateAtlas.Program.Value
import StateAtlas.Provider.Basic
import StateAtlas.Provider.Field
import StateAtlas.Provider.Function
import StateAtlas.Provider.Kind
import StateAtlas.Provider.Scripted
import StateAtlas.Provider.Signature
import StateAtlas.Provider.Variable
import StateAtlas.Run
import StateAtlas.Script.Command
import StateAtlas.Script.Program
import StateAtlas.Search.Listener
import StateAtlas.Search.Program
import StateAtlas.Search.Recorder
import StateAtlas.Search.Run
import StateAtlas.Search.State
import StateAtlas.Search.Tenure
import StateAtlas.Search.View
import StateAtlas.Text.Base64
import StateAtlas.Text.Blank
import StateAtlas.Text.CharClass
import StateAtlas.Text.Digit
import StateAtlas.Text.Identifier
import StateAtlas.Text.Printable
import StateAtlas.Text.Quoted
import StateAtlas.Text.Split
import StateAtlas.Text.Wildcard
import StateAtlas.Text.Word
import StateAtlas.Yaml.Content
import StateAtlas.Yaml.Cursor
import StateAtlas.Yaml.Layout
import StateAtlas.Yaml.Node
import StateAtlas.Yaml.Property
import StateAtlas.Yaml.Scalar
import StateAtlas.Yaml.Tag
import StateAtlas.Yaml.Timestamp
import StateAtlas.Yaml.Token
import StateAtlas.Proofs.Program.Execution
import StateAtlas.Proofs.Search.Log
import StateAtlas.Proofs.Search.Operation
import StateAtlas.Proofs.Code.Request
import StateAtlas.Proofs.Program.Branching
import StateAtlas.Proofs.Program.Coins
import StateAtlas.Proofs.Search.Anchor
import StateAtlas.Proofs.Search.Completeness
import StateAtlas.Proofs.Search.Expansion
import StateAtlas.Proofs.Search.Invisibility
import StateAtlas.Proofs.Label.Graph
import StateAtlas.Proofs.Label.Retention
import StateAtlas.Proofs.Search.Limit
import StateAtlas.Proofs.Code.Matching
import StateAtlas.Proofs.Search.Depth
import StateAtlas.Proofs.Search.Track
import StateAtlas.Proofs.Label.Lab
import StateAtlas.Proofs.Label.Formats
import StateAtlas.Proofs.Label.Cutting
import StateAtlas.Proofs.Search.Termination
import StateAtlas.Proofs.Search.Surfacing
import StateAtlas.Proofs.Search.Stopping
import StateAtlas.Proofs.Label.Growth
import StateAtlas.Proofs.Label.Arrangement
import StateAtlas.Proofs.Label.Renaming
import StateAtlas.Proofs.Label.Change
import StateAtlas.Proofs.Config.Setup
import StateAtlas.Proofs.Search.Finiteness
import StateAtlas.Proofs.Fingerprint.Discrimination
import StateAtlas.Proofs.File.Access
import StateAtlas.Proofs.File.Naming
import StateAtlas.Proofs.Label.Filing
import StateAtlas.Proofs.CommandLine.Status
import StateAtlas.Proofs.Fingerprint.Dictionary
import StateAtlas.Proofs.Provider.Acceptance
import StateAtlas.Proofs.Provider.Scope
import StateAtlas.Proofs.Label.Numbering
import StateAtlas.Proofs.Config.Spelling
import StateAtlas.Proofs.Config.Nesting
