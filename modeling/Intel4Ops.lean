import Intel4Ops.Access.Administrators
import Intel4Ops.Actions.Dependencies
import Intel4Ops.Actions.EventLog
import Intel4Ops.AgentJobs.Leases
import Intel4Ops.CaseMapping.Ambiguity
import Intel4Ops.CaseStages.Exclusivity
import Intel4Ops.Causal.Chains
import Intel4Ops.Causal.Graph
import Intel4Ops.Causal.Temporal
import Intel4Ops.CrossDomain.RevenueGap
import Intel4Ops.Decisions.Executions
import Intel4Ops.Economics.Cascade
import Intel4Ops.Economics.Portfolio
import Intel4Ops.Entities.Attribution
import Intel4Ops.Entities.Relationships
import Intel4Ops.Findings.Republication
import Intel4Ops.Findings.Supersession
import Intel4Ops.Forecasting.Gaps
import Intel4Ops.Forecasting.Leakage
import Intel4Ops.Forecasting.Quadratics
import Intel4Ops.Forecasting.Seasons
import Intel4Ops.GroundTruth.Partition
import Intel4Ops.GroundTruth.Shapes
import Intel4Ops.IndustryPacks.Retirement
import Intel4Ops.Ingestion.Bookkeeping
import Intel4Ops.JobToCash.Leakage
import Intel4Ops.Knowledge.Agreement
import Intel4Ops.Knowledge.Resolution
import Intel4Ops.KnowledgeGraph.Runs
import Intel4Ops.Maintenance.Exactness
import Intel4Ops.Mapping.Ambiguity
import Intel4Ops.Mapping.Confidence
import Intel4Ops.Mapping.ExactlyOnce
import Intel4Ops.Mapping.Missing
import Intel4Ops.OperationalMemory.Suggestions
import Intel4Ops.Process.Confidence
import Intel4Ops.Process.Cycles
import Intel4Ops.Process.Edges
import Intel4Ops.RawLineage.LegalHold
import Intel4Ops.RawLineage.Traversal
import Intel4Ops.Readiness.Alternatives
import Intel4Ops.RecoveryLedger.Replay
import Intel4Ops.RecoveryLedger.Reversals
import Intel4Ops.Reliability.Preview
import Intel4Ops.Revenue.Resolution
import Intel4Ops.Reviews.Authority
import Intel4Ops.Semantic.Corroboration
import Intel4Ops.Signatures.Engine
import Intel4Ops.Solver.Sequencing
import Intel4Ops.Statistical.Changes
import Intel4Ops.Statistical.Flags
import Intel4Ops.Trust.Rules
import Intel4Ops.ValidationProgram.Decisions
