import LifecycleFlow.Condition
import LifecycleFlow.Flow.Encoding
import LifecycleFlow.Graph.Selection
import LifecycleFlow.Json.Reader
import LifecycleFlow.Main
import LifecycleFlow.Proofs.Arena
import LifecycleFlow.Proofs.Outcome
import LifecycleFlow.Proofs.Wiring
import LifecycleFlow.Proofs.Reachability
import LifecycleFlow.Proofs.Renaming
import LifecycleFlow.Proofs.Chaining
import LifecycleFlow.Proofs.Assembly
import LifecycleFlow.Proofs.Runs
import LifecycleFlow.Proofs.Continuation
import LifecycleFlow.Proofs.Decision
import LifecycleFlow.Proofs.Layout
import LifecycleFlow.Proofs.Building
import LifecycleFlow.Proofs.Joining
import LifecycleFlow.Proofs.Branches
import LifecycleFlow.Proofs.Placement
import LifecycleFlow.Proofs.Acceptance
import LifecycleFlow.Proofs.Compilation
import LifecycleFlow.Proofs.Session
import LifecycleFlow.Proofs.Routing
import LifecycleFlow.Proofs.Rendering
import LifecycleFlow.Proofs.Completeness
import LifecycleFlow.Proofs.Correspondence
import LifecycleFlow.Proofs.DocumentRenaming
import LifecycleFlow.Proofs.History
import LifecycleFlow.Proofs.Resolution
import LifecycleFlow.Proofs.Lexemes
import LifecycleFlow.Proofs.Unambiguity
import LifecycleFlow.Proofs.Preorder
import LifecycleFlow.Proofs.SimultaneousRenaming
import LifecycleFlow.Proofs.Reordering
import LifecycleFlow.Proofs.FreeFormValues
import LifecycleFlow.Proofs.RecordFields
import LifecycleFlow.Proofs.DecodedValues
import LifecycleFlow.Proofs.Recoding
import LifecycleFlow.Proofs.Selection
import LifecycleFlow.Proofs.LooseEnds
import LifecycleFlow.Proofs.WorkflowFront
import LifecycleFlow.Proofs.Templates
import LifecycleFlow.Proofs.References
import LifecycleFlow.Proofs.Exits
import LifecycleFlow.Proofs.ValueMaps
import LifecycleFlow.Proofs.YamlValues
import LifecycleFlow.Proofs.ShorterTexts
import LifecycleFlow.Proofs.NullFields
import LifecycleFlow.Proofs.ExplicitNulls
import LifecycleFlow.Proofs.ComposedPrefixes
import LifecycleFlow.Proofs.Rounding
import LifecycleFlow.Proofs.NumberComparisons
