import ObserverPattern.Conventions
import ObserverPattern.Decoder.Basic
import ObserverPattern.Decoder.Decode
import ObserverPattern.Decoder.Pass
import ObserverPattern.Fault
import ObserverPattern.Files
import ObserverPattern.Json.Basic
import ObserverPattern.Json.Parser
import ObserverPattern.Json.Printer
import ObserverPattern.Json.Reading
import ObserverPattern.Json.Token
import ObserverPattern.Main
import ObserverPattern.Participants
import ObserverPattern.Program.Basic
import ObserverPattern.Program.ClassSet
import ObserverPattern.Program.Declaration
import ObserverPattern.Program.Encoding
import ObserverPattern.Program.Hierarchy
import ObserverPattern.Program.Registry
import ObserverPattern.Program.Source
import ObserverPattern.Proofs.Decoder.Commuting
import ObserverPattern.Proofs.Decoder.ConcreteCode
import ObserverPattern.Proofs.Decoder.Fields
import ObserverPattern.Proofs.Decoder.HandleFacts
import ObserverPattern.Proofs.Decoder.Inside
import ObserverPattern.Proofs.Decoder.LastRole
import ObserverPattern.Proofs.Decoder.Locals
import ObserverPattern.Proofs.Decoder.Loops
import ObserverPattern.Proofs.Decoder.Naming
import ObserverPattern.Proofs.Decoder.NormalForm
import ObserverPattern.Proofs.Decoder.OwnNames
import ObserverPattern.Proofs.Decoder.Phases
import ObserverPattern.Proofs.Decoder.Places
import ObserverPattern.Proofs.Decoder.Reach
import ObserverPattern.Proofs.Decoder.Rebuilding
import ObserverPattern.Proofs.Decoder.Retyping
import ObserverPattern.Proofs.Decoder.Reuse
import ObserverPattern.Proofs.Decoder.Rules
import ObserverPattern.Proofs.Decoder.Skeleton
import ObserverPattern.Proofs.Decoder.Temporaries
import ObserverPattern.Proofs.Decoder.TypeRules
import ObserverPattern.Proofs.Decoder.Types
import ObserverPattern.Proofs.Json.Scanning
import ObserverPattern.Proofs.Json.Typed
import ObserverPattern.Proofs.Json.Writing
import ObserverPattern.Proofs.Participants
import ObserverPattern.Proofs.Program.Encoding
import ObserverPattern.Proofs.Program.InRange
import ObserverPattern.Proofs.Program.Inside
import ObserverPattern.Proofs.Program.Reach
import ObserverPattern.Proofs.Program.Skeleton
import ObserverPattern.Proofs.Program.Subject
import ObserverPattern.Proofs.Program.Supertypes
import ObserverPattern.Proofs.Run
import ObserverPattern.Proofs.Structure.Capture
import ObserverPattern.Proofs.Structure.Footprint
import ObserverPattern.Proofs.Structure.Frame
import ObserverPattern.Proofs.Structure.GenericNames
import ObserverPattern.Proofs.Structure.HandleTypes
import ObserverPattern.Proofs.Structure.Inside
import ObserverPattern.Proofs.Structure.Reach
import ObserverPattern.Proofs.Structure.UpdateCalls
import ObserverPattern.Proofs.Success
import ObserverPattern.Proofs.Syntax.Encoding
import ObserverPattern.Proofs.Syntax.Leaving
import ObserverPattern.Proofs.Syntax.Locals
import ObserverPattern.Proofs.Syntax.Parts
import ObserverPattern.Proofs.Syntax.Reach
import ObserverPattern.Proofs.Syntax.Reading
import ObserverPattern.Proofs.Syntax.Scopes
import ObserverPattern.Proofs.Syntax.SourceReader
import ObserverPattern.Proofs.Syntax.Types
import ObserverPattern.Proofs.Text.Cuts
import ObserverPattern.Proofs.Text.Gaps
import ObserverPattern.Proofs.Text.Lower
import ObserverPattern.Proofs.Text.Rewording
import ObserverPattern.Proofs.Text.Words
import ObserverPattern.Proofs.Trace.Bindings
import ObserverPattern.Proofs.Trace.Bytes
import ObserverPattern.Proofs.Trace.Comparisons
import ObserverPattern.Proofs.Trace.Losses
import ObserverPattern.Proofs.Trace.MemberKeys
import ObserverPattern.Proofs.Trace.Moves
import ObserverPattern.Proofs.Trace.Reading
import ObserverPattern.Proofs.Trace.Receivers
import ObserverPattern.Proofs.Trace.Rejected
import ObserverPattern.Proofs.Walk.Changes
import ObserverPattern.Proofs.Walk.Counting
import ObserverPattern.Proofs.Walk.Lockstep
import ObserverPattern.Proofs.Walk.Nesting
import ObserverPattern.Proofs.Walk.Order
import ObserverPattern.Proofs.Walk.Postorder
import ObserverPattern.Proofs.Walk.Reach
import ObserverPattern.Proofs.Walk.Trees
import ObserverPattern.Proofs.Walk.Visit
import ObserverPattern.Role
import ObserverPattern.Run
import ObserverPattern.Structure.Collection
import ObserverPattern.Structure.HandleBody
import ObserverPattern.Syntax.Encoding
import ObserverPattern.Syntax.Expr
import ObserverPattern.Syntax.Source
import ObserverPattern.Syntax.Stmt
import ObserverPattern.Table
import ObserverPattern.Text.Blank
import ObserverPattern.Text.Case
import ObserverPattern.Text.Digit
import ObserverPattern.Text.Lines
import ObserverPattern.Text.Ranges
import ObserverPattern.Text.Reference
import ObserverPattern.Text.Replace
import ObserverPattern.Text.Substring
import ObserverPattern.Text.WholeWord
import ObserverPattern.Text.Word
import ObserverPattern.Trace.Basic
import ObserverPattern.Trace.Fact
import ObserverPattern.Trace.Line
import ObserverPattern.Trace.MemberKey
import ObserverPattern.Trace.Payload
import ObserverPattern.Walk.Pass
import ObserverPattern.Walk.Position
import ObserverPattern.Walk.Tally
import ObserverPattern.Walk.Traverse
