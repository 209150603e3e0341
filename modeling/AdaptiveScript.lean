import AdaptiveScript.Location
import AdaptiveScript.Operator.Basic
import AdaptiveScript.Decimal.FloatText
import AdaptiveScript.Text.Quoted
import AdaptiveScript.Value.Hash
import AdaptiveScript.Heap
import AdaptiveScript.Error
import AdaptiveScript.Specialization
import AdaptiveScript.Operator.Strategies
import AdaptiveScript.Slot
import AdaptiveScript.CallStack
import AdaptiveScript.Raise
import AdaptiveScript.Output
import AdaptiveScript.Mode
import AdaptiveScript.Builtin.Registry
import AdaptiveScript.Program.Builder
import AdaptiveScript.Linked.Link
import AdaptiveScript.Machine.Session
import AdaptiveScript.Proofs.Specialization.Dispatch
import AdaptiveScript.Proofs.Specialization.History
import AdaptiveScript.Proofs.Specialization.ClosedForm
import AdaptiveScript.Proofs.Operator.Rule
import AdaptiveScript.Proofs.Operator.Repetition
import AdaptiveScript.Proofs.Operator.Failure
import AdaptiveScript.Proofs.Slot.History
import AdaptiveScript.Proofs.Slot.Kinds
import AdaptiveScript.Proofs.Value.Widening
import AdaptiveScript.Proofs.Value.Layout
import AdaptiveScript.Proofs.Value.Encoding
import AdaptiveScript.Proofs.Value.PrefixFree
import AdaptiveScript.Proofs.Link.WellFormed
import AdaptiveScript.Proofs.Linked.Places
import AdaptiveScript.Proofs.Linked.References
import AdaptiveScript.Proofs.Machine.Simulation
import AdaptiveScript.Proofs.Machine.Refinement
import AdaptiveScript.Proofs.Machine.CallPath
import AdaptiveScript.Proofs.Machine.Balance
import AdaptiveScript.Proofs.Machine.Overflow
import AdaptiveScript.Proofs.Machine.DepthLimit
import AdaptiveScript.Proofs.Machine.Tables
import AdaptiveScript.Proofs.Machine.Generalization
import AdaptiveScript.Proofs.Machine.Termination
import AdaptiveScript.Proofs.Heap.Closed
import AdaptiveScript.Proofs.Heap.Raised
import AdaptiveScript.Proofs.Heap.Traceback
import AdaptiveScript.Proofs.Machine.Surfaced
import AdaptiveScript.Proofs.Program.Shape
import AdaptiveScript.Proofs.Linked.Erasure
import AdaptiveScript.Proofs.Program.Numbering
import AdaptiveScript.Proofs.Linked.Built
import AdaptiveScript.Proofs.Linked.Classes
import AdaptiveScript.Proofs.Linked.Renaming
import AdaptiveScript.Proofs.Machine.Path
import AdaptiveScript.Proofs.Machine.Printing
import AdaptiveScript.Proofs.Machine.Persistence
import AdaptiveScript.Proofs.Machine.ObjectClasses
import AdaptiveScript.Proofs.Machine.DefinitionOrder
import AdaptiveScript.Proofs.Builtin.Merge
import AdaptiveScript.Proofs.Builtin.Numerals
import AdaptiveScript.Proofs.Machine.MoreBuiltins
import AdaptiveScript.Proofs.Machine.NonRecursive
import AdaptiveScript.Proofs.Machine.OneClass
