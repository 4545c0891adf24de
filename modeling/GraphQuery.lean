import GraphQuery.Fault.Details
import GraphQuery.Main
import GraphQuery.Proofs.CommandLine.Compile
import GraphQuery.Proofs.CommandLine.Record
import GraphQuery.Proofs.Config.Layers
import GraphQuery.Proofs.Config.Password
import GraphQuery.Proofs.Cypher.Division
import GraphQuery.Proofs.Cypher.RoundTrip
import GraphQuery.Proofs.Invariant.Names
import GraphQuery.Proofs.Metrics.Percentile
import GraphQuery.Proofs.Normal.Canonical
import GraphQuery.Proofs.Normal.Copied
import GraphQuery.Proofs.Normal.Depth
import GraphQuery.Proofs.Normal.Literal
import GraphQuery.Proofs.Normal.Meaning
import GraphQuery.Proofs.Normal.Placement
import GraphQuery.Proofs.Normal.Rebuilt
import GraphQuery.Proofs.Plan.History
import GraphQuery.Proofs.Plan.Threshold
import GraphQuery.Proofs.Query.Digest
import GraphQuery.Proofs.Query.Fault
import GraphQuery.Proofs.Query.Literal
import GraphQuery.Proofs.Query.Templates
import GraphQuery.Proofs.Resilience.Cache
import GraphQuery.Proofs.Resilience.Callers
import GraphQuery.Proofs.Resilience.Calls
import GraphQuery.Proofs.Resilience.Repetition
import GraphQuery.Proofs.Resilience.Retry
import GraphQuery.Proofs.Resilience.TimedMap
import GraphQuery.Proofs.Service.Accounting
import GraphQuery.Proofs.Service.Decoding
import GraphQuery.Proofs.Syntax.Completion
import GraphQuery.Proofs.Syntax.Data
import GraphQuery.Proofs.Syntax.Identity
import GraphQuery.Proofs.Syntax.RoundTrip
import GraphQuery.Proofs.Value.Plain
import GraphQuery.Proofs.Value.Tagged
import GraphQuery.Query.Templates
import GraphQuery.Service.Run
import GraphQuery.Syntax.Call
