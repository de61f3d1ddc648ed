import ScriptAudit.Association
import ScriptAudit.Audit.Check
import ScriptAudit.Audit.Graph
import ScriptAudit.Audit.Issue
import ScriptAudit.Audit.Listing
import ScriptAudit.Cheat.Catalogue
import ScriptAudit.Cheat.Engine
import ScriptAudit.Command.Basic
import ScriptAudit.Command.Bundled.Actors
import ScriptAudit.Command.Bundled.Memory
import ScriptAudit.Command.Bundled.Platform
import ScriptAudit.Command.Bundled.Screen
import ScriptAudit.Command.Bundled.Shape
import ScriptAudit.Command.Bundled.Variables
import ScriptAudit.Command.Bundled.World
import ScriptAudit.Command.Default
import ScriptAudit.Command.Param
import ScriptAudit.Command.Schema
import ScriptAudit.Command.Table
import ScriptAudit.CommandLine.Lookup
import ScriptAudit.CommandLine.Options
import ScriptAudit.CommandLine.Session
import ScriptAudit.Decimal.Binary64
import ScriptAudit.Decimal.Layout
import ScriptAudit.Decimal.Nearest
import ScriptAudit.Decimal.Shortest
import ScriptAudit.Event
import ScriptAudit.Files.Error
import ScriptAudit.Files.Path
import ScriptAudit.Files.Tree
import ScriptAudit.Json.Basic
import ScriptAudit.Json.Reader
import ScriptAudit.Language
import ScriptAudit.Main
import ScriptAudit.Proofs.Audit.Exploration
import ScriptAudit.Proofs.Audit.Growth
import ScriptAudit.Proofs.Audit.Inversion
import ScriptAudit.Proofs.Audit.Limit
import ScriptAudit.Proofs.Audit.Listing
import ScriptAudit.Proofs.Audit.Lockstep
import ScriptAudit.Proofs.Audit.Program
import ScriptAudit.Proofs.Audit.Queue
import ScriptAudit.Proofs.Audit.Rounds
import ScriptAudit.Proofs.Audit.Shape
import ScriptAudit.Proofs.Audit.Verdict
import ScriptAudit.Proofs.Cheat.Frame
import ScriptAudit.Proofs.Cheat.History
import ScriptAudit.Proofs.Command.Entries
import ScriptAudit.Proofs.Command.Indexes
import ScriptAudit.Proofs.Command.Opcodes
import ScriptAudit.Proofs.Command.Spellings
import ScriptAudit.Proofs.CommandLine.Gathering
import ScriptAudit.Proofs.CommandLine.Listings
import ScriptAudit.Proofs.CommandLine.Progress
import ScriptAudit.Proofs.CommandLine.Reading
import ScriptAudit.Proofs.CommandLine.Totals
import ScriptAudit.Proofs.Files.Below
import ScriptAudit.Proofs.Files.Location
import ScriptAudit.Proofs.Files.Outline
import ScriptAudit.Proofs.Files.Traversal
import ScriptAudit.Proofs.Files.Writing
import ScriptAudit.Proofs.Language.Composition
import ScriptAudit.Proofs.Language.NormalForm
import ScriptAudit.Proofs.Resource.Directory
import ScriptAudit.Proofs.Resource.Languages
import ScriptAudit.Proofs.Resource.Store
import ScriptAudit.Proofs.Script.Branching
import ScriptAudit.Proofs.Script.Grammar
import ScriptAudit.Proofs.Script.Locality
import ScriptAudit.Proofs.Script.Operands
import ScriptAudit.Proofs.Script.Range
import ScriptAudit.Proofs.Script.Recognition
import ScriptAudit.Proofs.Script.References
import ScriptAudit.Proofs.Script.Rendering
import ScriptAudit.Proofs.Script.Truncation
import ScriptAudit.Proofs.Text.Lines
import ScriptAudit.Proofs.Text.Numeral
import ScriptAudit.Proofs.Text.Utf8
import ScriptAudit.Resource.Basic
import ScriptAudit.Resource.Loader
import ScriptAudit.Script.Cursor
import ScriptAudit.Script.Encoding
import ScriptAudit.Script.Fault
import ScriptAudit.Script.Instruction
import ScriptAudit.Script.Operand
import ScriptAudit.Script.Reader
import ScriptAudit.Text.Blank
import ScriptAudit.Text.Bytes
import ScriptAudit.Text.Capital
import ScriptAudit.Text.CodePoint
import ScriptAudit.Text.Digit
import ScriptAudit.Text.Lines
import ScriptAudit.Text.Numeral
import ScriptAudit.Text.Printable
import ScriptAudit.Text.Quoted
import ScriptAudit.Text.Utf8
