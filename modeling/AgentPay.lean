import AgentPay.Analyzer.Analysis
import AgentPay.Analyzer.Llm
import AgentPay.Analyzer.Rules
import AgentPay.Analyzer.Similarity
import AgentPay.Analyzer.Window
import AgentPay.Bot.Handlers
import AgentPay.ControlPlane.Delegations
import AgentPay.ControlPlane.Telegram
import AgentPay.Gateway.Answers
import AgentPay.Gateway.Approvals
import AgentPay.Gateway.Asking
import AgentPay.Gateway.Audit
import AgentPay.Gateway.AuditLog
import AgentPay.Gateway.Canonical
import AgentPay.Gateway.Checkpoint
import AgentPay.Gateway.Config
import AgentPay.Gateway.Conformance
import AgentPay.Gateway.Context
import AgentPay.Gateway.Custody
import AgentPay.Gateway.Effects
import AgentPay.Gateway.Events
import AgentPay.Gateway.Evidence
import AgentPay.Gateway.Grounds
import AgentPay.Gateway.Identity
import AgentPay.Gateway.Keys
import AgentPay.Gateway.Ledger
import AgentPay.Gateway.Locks
import AgentPay.Gateway.Models
import AgentPay.Gateway.Money
import AgentPay.Gateway.Payments
import AgentPay.Gateway.Pdp
import AgentPay.Gateway.PdpClient
import AgentPay.Gateway.Provenance
import AgentPay.Gateway.Records
import AgentPay.Gateway.Replays
import AgentPay.Gateway.Routes
import AgentPay.Gateway.Schemas
import AgentPay.Gateway.Scores
import AgentPay.Gateway.Session
import AgentPay.Gateway.Solo
import AgentPay.Gateway.Store
import AgentPay.Gateway.Stores
import AgentPay.Gateway.Testimony
import AgentPay.Gateway.World
import AgentPay.Library.Causes
import AgentPay.Library.Decimal
import AgentPay.Library.DecimalInput
import AgentPay.Library.DecimalOrder
import AgentPay.Library.HashChain
import AgentPay.Library.Interleaving
import AgentPay.Library.Joining
import AgentPay.Library.Json
import AgentPay.Library.JsonReading
import AgentPay.Library.Keeping
import AgentPay.Library.LastWrite
import AgentPay.Library.Lease
import AgentPay.Library.Normalization
import AgentPay.Library.Occurrence
import AgentPay.Library.Partner
import AgentPay.Library.Program
import AgentPay.Library.PyText
import AgentPay.Library.PyValue
import AgentPay.Library.Rego
import AgentPay.Library.SlidingWindow
import AgentPay.Library.StableSort
import AgentPay.Library.SumWhere
import AgentPay.Library.Watching
import AgentPay.Policies.Decision
import AgentPay.Policies.Deletion
import AgentPay.Policies.Input
import AgentPay.Policies.Rules
import AgentPay.Properties.Agreement
import AgentPay.Properties.ApprovalOwner
import AgentPay.Properties.ApprovalSpent
import AgentPay.Properties.ApprovalWaiver
import AgentPay.Properties.AuditAppends
import AgentPay.Properties.Authority
import AgentPay.Properties.BotApprovals
import AgentPay.Properties.Breaker
import AgentPay.Properties.Budgets
import AgentPay.Properties.CartAuthorized
import AgentPay.Properties.Charging
import AgentPay.Properties.Credentials
import AgentPay.Properties.Danger
import AgentPay.Properties.DataBlock
import AgentPay.Properties.Dilution
import AgentPay.Properties.ExactWindow
import AgentPay.Properties.FailClosed
import AgentPay.Properties.Fingerprints
import AgentPay.Properties.HonestCheckpoints
import AgentPay.Properties.IntentClusters
import AgentPay.Properties.Invisible
import AgentPay.Properties.LinkCodes
import AgentPay.Properties.LockSafety
import AgentPay.Properties.MerchantTrust
import AgentPay.Properties.MissingEvidence
import AgentPay.Properties.OneAnswer
import AgentPay.Properties.PipelineView
import AgentPay.Properties.PolicyDecision
import AgentPay.Properties.PolicyReplies
import AgentPay.Properties.RateWindow
import AgentPay.Properties.Reasons
import AgentPay.Properties.Reconciliation
import AgentPay.Properties.RelayAccounts
import AgentPay.Properties.RelayJoining
import AgentPay.Properties.ResumedRuns
import AgentPay.Properties.Revocations
import AgentPay.Properties.Scenario
import AgentPay.Properties.SealedHistory
import AgentPay.Properties.Settlement
import AgentPay.Properties.Severity
import AgentPay.Properties.SharedKeys
import AgentPay.Properties.Slots
import AgentPay.Properties.StandIn
import AgentPay.Properties.StateMachine
import AgentPay.Properties.Statements
import AgentPay.Properties.Submission
import AgentPay.Properties.TamperEvidence
import AgentPay.Properties.TokenUse
import AgentPay.Provider.Charges
import AgentPay.Provider.Network
import AgentPay.Relay.Hub
import AgentPay.Simulator.Runs
import AgentPay.Web.Pipeline
