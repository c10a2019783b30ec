import ActivationOrder.Main
import ActivationOrder.Source.Scripted
import ActivationOrder.Proofs.Precedence
import ActivationOrder.Proofs.Reading
import ActivationOrder.Proofs.DepthFirst
import ActivationOrder.Proofs.Settled
import ActivationOrder.Proofs.Constraints
import ActivationOrder.Proofs.Priority
import ActivationOrder.Proofs.Demands
import ActivationOrder.Proofs.Alike
import ActivationOrder.Batch.Dialogue
import ActivationOrder.Proofs.Caching
import ActivationOrder.Proofs.FileNames
import ActivationOrder.Proofs.Indexing
import ActivationOrder.Proofs.Strings
import ActivationOrder.Proofs.Numerals
import ActivationOrder.Proofs.Statements
import ActivationOrder.Proofs.Documents
import ActivationOrder.Proofs.IndexText
import ActivationOrder.Source.Recorded
import ActivationOrder.Proofs.Replaying
import ActivationOrder.Proofs.Mirrors
import ActivationOrder.Proofs.Remembering
import ActivationOrder.Proofs.Checking
import ActivationOrder.Proofs.Verdicts
import ActivationOrder.Proofs.Ways
import ActivationOrder.Proofs.TemporaryNames
import ActivationOrder.Proofs.Replacing
import ActivationOrder.Batch.Search
import ActivationOrder.Proofs.ByteOrder
import ActivationOrder.Proofs.Reads
import ActivationOrder.Proofs.Failures
import ActivationOrder.Proofs.References
import ActivationOrder.Proofs.Untouched
import ActivationOrder.Proofs.Extending
import ActivationOrder.Proofs.Dialogues
import ActivationOrder.Proofs.FirstAnswers
import ActivationOrder.Proofs.DistinctKeys
import ActivationOrder.Proofs.Fields
import ActivationOrder.Proofs.Dispatch
import ActivationOrder.Proofs.Acceptance
import ActivationOrder.Proofs.Iterations
import ActivationOrder.Proofs.Discovery
import ActivationOrder.Proofs.UnitLists
import ActivationOrder.Proofs.Layers
