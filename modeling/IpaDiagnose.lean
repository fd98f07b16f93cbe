import IpaDiagnose.Lib.Result
import IpaDiagnose.Lib.Unicode
import IpaDiagnose.Lib.Regex
import IpaDiagnose.Lib.PyStr
import IpaDiagnose.Lib.Binary64
import IpaDiagnose.Lib.PyValue
import IpaDiagnose.Lib.Ranked
import IpaDiagnose.Lib.Journal
import IpaDiagnose.TextSafe
import IpaDiagnose.Resolution.Types
import IpaDiagnose.Resolution.Checks
import IpaDiagnose.Resolution.Knowledge
import IpaDiagnose.Resolution.Catalogue
import IpaDiagnose.Planner.Model
import IpaDiagnose.Planner.Validate
import IpaDiagnose.Planner.Run
import IpaDiagnose.Planner.Validated
import IpaDiagnose.Planner.Visits
import IpaDiagnose.Planner.History
import IpaDiagnose.Planner.Refused
import IpaDiagnose.Planner.References
import IpaDiagnose.Planner.Total
import IpaDiagnose.Planner.Safety
import IpaDiagnose.Planner.Enumerated
import IpaDiagnose.Evidence.Model
import IpaDiagnose.Evidence.HealthcheckCatalog
import IpaDiagnose.Engine.Model
import IpaDiagnose.Engine.Registry
import IpaDiagnose.Engine.Unexplained
import IpaDiagnose.Engine.Correlate
import IpaDiagnose.Engine.Coverage
import IpaDiagnose.Engine.Causality
import IpaDiagnose.Engine.Absorption
import IpaDiagnose.Planner.Interference
import IpaDiagnose.Resolution.Engine
import IpaDiagnose.Resolution.Criteria
import IpaDiagnose.Resolution.Gates
import IpaDiagnose.Resolution.NotOffered
import IpaDiagnose.Resolution.Shown
import IpaDiagnose.Resolution.SafeFix
import IpaDiagnose.Replication.Status
import IpaDiagnose.Replication.Causal
import IpaDiagnose.Replication.Plan
import IpaDiagnose.Replication.Builder
import IpaDiagnose.Replication.Diagnose
import IpaDiagnose.Lib.Cut
import IpaDiagnose.Replication.Topology
import IpaDiagnose.Replication.LowLink
import IpaDiagnose.Replication.Rounds
import IpaDiagnose.Replication.Articulation
import IpaDiagnose.Replication.Roles
import IpaDiagnose.Replication.Steps
import IpaDiagnose.Replication.Effects
import IpaDiagnose.Replication.Cascade
import IpaDiagnose.Replication.Collected
import IpaDiagnose.Replication.Masking
import IpaDiagnose.Replication.Reverse
import IpaDiagnose.Replication.Causes
import IpaDiagnose.Replication.Explained
import IpaDiagnose.Replication.Reports
import IpaDiagnose.Replication.Consistency
import IpaDiagnose.Lib.RegexWords
import IpaDiagnose.Sanitized
import IpaDiagnose.Lib.Assoc
import IpaDiagnose.Verify.Saved
import IpaDiagnose.Verify.Compare
import IpaDiagnose.Verify.Known
import IpaDiagnose.Verify.Resolved
import IpaDiagnose.Verify.Carry
import IpaDiagnose.Verify.Kept
import IpaDiagnose.Resolution.SafeValues
import IpaDiagnose.Resolution.StartService
import IpaDiagnose.Lib.Timestamp
import IpaDiagnose.Replication.State
import IpaDiagnose.Replication.Verify
import IpaDiagnose.Replication.Confirmed
import IpaDiagnose.Resolution.Steady
import IpaDiagnose.Replication.Order
import IpaDiagnose.Replication.Window
import IpaDiagnose.Replication.Loads
import IpaDiagnose.Replication.Survives
import IpaDiagnose.Access.Relations
import IpaDiagnose.Access.Paths
import IpaDiagnose.Access.Explain
import IpaDiagnose.Access.Semantics
import IpaDiagnose.Access.Api
import IpaDiagnose.Access.Evaluate
import IpaDiagnose.Access.Decision
import IpaDiagnose.Lib.Lines
import IpaDiagnose.Lib.Bytes
import IpaDiagnose.Replication.Ldif
import IpaDiagnose.Replication.LdifWhole
import IpaDiagnose.Replication.Reads
import IpaDiagnose.Bundle.Archive
import IpaDiagnose.Bundle.Sanitize
import IpaDiagnose.Bundle.Discovery
import IpaDiagnose.Bundle.Written
import IpaDiagnose.Bundle.Scanned
import IpaDiagnose.Bundle.Sums
import IpaDiagnose.Collectors.Agreements
import IpaDiagnose.Collectors.StatusReaders
import IpaDiagnose.Collectors.Ruv
import IpaDiagnose.Collectors.StaleRuv
import IpaDiagnose.Evidence.Healthcheck
import IpaDiagnose.Evidence.Degrades
import IpaDiagnose.Bundle.Prefilter
import IpaDiagnose.Bundle.Build
import IpaDiagnose.Lib.Spans
import IpaDiagnose.Bundle.Redact
import IpaDiagnose.Engine.FileModes
import IpaDiagnose.Engine.FilePermissions
import IpaDiagnose.Environment.Facts
import IpaDiagnose.Environment.Runs
import IpaDiagnose.Resolution.ThreeValued
import IpaDiagnose.Privacy.Prompt
import IpaDiagnose.Engine.CertificateExpired
import IpaDiagnose.Client.Dnsq
import IpaDiagnose.Client.PamComplete
import IpaDiagnose.Client.PamStack
import IpaDiagnose.Replication.Green
import IpaDiagnose.Replication.WholeReads
import IpaDiagnose.Access.Chains
import IpaDiagnose.Access.Nested
import IpaDiagnose.Lib.Pieces
import IpaDiagnose.Lib.RegexEnd
import IpaDiagnose.Bundle.Pseudonyms
import IpaDiagnose.Bundle.Cuts
import IpaDiagnose.Bundle.Chunked
import IpaDiagnose.Bundle.Numbered
import IpaDiagnose.Access.Indexed
import IpaDiagnose.Client.Question
import IpaDiagnose.Resolution.Learned
import IpaDiagnose.Resolution.Contained
import IpaDiagnose.Resolution.Unambiguous
