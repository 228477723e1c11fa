import IntentGate.Behavior.Builder
import IntentGate.Behavior.Masking
import IntentGate.Inference.Assembly
import IntentGate.Inference.Batch
import IntentGate.Inference.Combined
import IntentGate.Inference.Rules
import IntentGate.Inference.Similar
import IntentGate.Policy.Criterion
import IntentGate.Policy.Engine
import IntentGate.Policy.File
import IntentGate.Proofs.Throttle.Counter
import IntentGate.Proofs.Double.Natural
import IntentGate.Proofs.Policy.Composition
import IntentGate.Proofs.Behavior.Counting
import IntentGate.Proofs.Behavior.Coherence
import IntentGate.Proofs.Behavior.Separation
import IntentGate.Proofs.Behavior.CanonicalText
import IntentGate.Proofs.Inference.Remembering
import IntentGate.Proofs.Inference.Selection
import IntentGate.Proofs.Policy.Meaning
import IntentGate.Proofs.Policy.Deciding
import IntentGate.Proofs.Inference.Nesting
import IntentGate.Proofs.Inference.OwnVector
import IntentGate.Proofs.Inference.Faults
import IntentGate.Proofs.Double.Order
import IntentGate.Proofs.Behavior.Concealment
import IntentGate.Proofs.Inference.Ensuring
import IntentGate.Proofs.Inference.Range
import IntentGate.Proofs.Inference.Origin
import IntentGate.Proofs.Json.Numbers
import IntentGate.Proofs.Json.RoundTrip
import IntentGate.Proofs.Inference.Slot
import IntentGate.Proofs.Behavior.Snapshot
import IntentGate.Proofs.Throttle.Allowance
import IntentGate.Proofs.Throttle.Interleaving
import IntentGate.Proofs.Expiring.LastWrite
import IntentGate.Proofs.Inference.Asking
import IntentGate.Proofs.Throttle.OneWindow
import IntentGate.Proofs.Inference.Batches
import IntentGate.Proofs.Inference.Decoding
import IntentGate.Proofs.Inference.Windows
import IntentGate.Proofs.Inference.StageCalls
import IntentGate.Proofs.Policy.Retention
import IntentGate.Proofs.Policy.Operators
import IntentGate.Proofs.Confidence.Grading
import IntentGate.Proofs.Confidence.Strictness
import IntentGate.Proofs.Similarity.Recency
import IntentGate.Proofs.Inference.Consulting
import IntentGate.Proofs.Similarity.HalfLife
import IntentGate.Proofs.Similarity.Weighing
import IntentGate.Proofs.Similarity.PairwiseCosine
import IntentGate.Proofs.Settings.Loading
import IntentGate.Proofs.Behavior.Building
import IntentGate.Proofs.Behavior.Redaction
import IntentGate.Proofs.Policy.StoredRecords
import IntentGate.Proofs.Policy.Containment
import IntentGate.Proofs.Throttle.Sweeping
import IntentGate.Proofs.Expiring.Sizes
