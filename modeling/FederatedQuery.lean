import FederatedQuery.CapabilitiesFinder
import FederatedQuery.Capability
import FederatedQuery.Catalog
import FederatedQuery.Config
import FederatedQuery.Cost.Cardinality
import FederatedQuery.Cost.Oracle
import FederatedQuery.Cost.Table
import FederatedQuery.DataType
import FederatedQuery.Decimal.Binary64
import FederatedQuery.Decimal.Reader
import FederatedQuery.Decimal.Shortest
import FederatedQuery.Decimal.Style
import FederatedQuery.Error
import FederatedQuery.Json.Basic
import FederatedQuery.Json.Decode
import FederatedQuery.Json.Number
import FederatedQuery.Json.Parser
import FederatedQuery.Json.Printer
import FederatedQuery.Json.StringBody
import FederatedQuery.Language.Codec
import FederatedQuery.Language.Display
import FederatedQuery.Language.Equality
import FederatedQuery.Language.Nesting
import FederatedQuery.Language.Object
import FederatedQuery.Language.Syntax
import FederatedQuery.Language.Typing
import FederatedQuery.Language.Vocabulary
import FederatedQuery.Metadata
import FederatedQuery.OrderedMap
import FederatedQuery.Plan.Basic
import FederatedQuery.Plan.Explain
import FederatedQuery.Plan.Node
import FederatedQuery.Plan.Outline
import FederatedQuery.Plan.Search
import FederatedQuery.Plan.Structure
import FederatedQuery.Plan.Surgery
import FederatedQuery.Plan.Vocabulary
import FederatedQuery.Planning.Analysis
import FederatedQuery.Planning.ChooseDependent
import FederatedQuery.Planning.CleanCriteria
import FederatedQuery.Planning.Optimizer
import FederatedQuery.Planning.PushSelect
import FederatedQuery.Planning.RuleStack
import FederatedQuery.Planning.Script
import FederatedQuery.Planning.Session
import FederatedQuery.Proofs.Capabilities.Declarations
import FederatedQuery.Proofs.Capabilities.FunctionNames
import FederatedQuery.Proofs.Config
import FederatedQuery.Proofs.Cost.Local
import FederatedQuery.Proofs.Cost.Order
import FederatedQuery.Proofs.Cost.Unknown
import FederatedQuery.Proofs.Json.Decode
import FederatedQuery.Proofs.Json.Edits
import FederatedQuery.Proofs.Json.Numbers
import FederatedQuery.Proofs.Json.Text
import FederatedQuery.Proofs.Language.Codec
import FederatedQuery.Proofs.Language.EarlyExit
import FederatedQuery.Proofs.Language.Equality
import FederatedQuery.Proofs.Language.Surface
import FederatedQuery.Proofs.Language.Walk
import FederatedQuery.Proofs.Meaning.Bags
import FederatedQuery.Proofs.Meaning.Rows
import FederatedQuery.Proofs.Plan.Accepted
import FederatedQuery.Proofs.Plan.Codec
import FederatedQuery.Proofs.Plan.Context
import FederatedQuery.Proofs.Plan.Edits
import FederatedQuery.Proofs.Plan.Exchange
import FederatedQuery.Proofs.Plan.Explain
import FederatedQuery.Proofs.Plan.Keeps
import FederatedQuery.Proofs.Plan.Linked
import FederatedQuery.Proofs.Plan.Removal
import FederatedQuery.Proofs.Plan.Search
import FederatedQuery.Proofs.Plan.StructuralCheck
import FederatedQuery.Proofs.Plan.Surgery
import FederatedQuery.Proofs.Plan.Touches
import FederatedQuery.Proofs.Plan.Traversal
import FederatedQuery.Proofs.Plan.Tree
import FederatedQuery.Proofs.Plan.Unpriced
import FederatedQuery.Proofs.Planning.AccessPatterns
import FederatedQuery.Proofs.Planning.Candidates
import FederatedQuery.Proofs.Planning.Conversions
import FederatedQuery.Proofs.Planning.DependentSide
import FederatedQuery.Proofs.Planning.Diagnostics
import FederatedQuery.Proofs.Planning.Executions
import FederatedQuery.Proofs.Planning.Feeds
import FederatedQuery.Proofs.Planning.FilterChains
import FederatedQuery.Proofs.Planning.FilterDelegation
import FederatedQuery.Proofs.Planning.FilterMoves
import FederatedQuery.Proofs.Planning.JoinTracking
import FederatedQuery.Proofs.Planning.Leftover
import FederatedQuery.Proofs.Planning.Moves
import FederatedQuery.Proofs.Planning.OptimizerRuns
import FederatedQuery.Proofs.Planning.Outcomes
import FederatedQuery.Proofs.Planning.RedundantFilters
import FederatedQuery.Proofs.Planning.Reports
import FederatedQuery.Proofs.Planning.Rerun
import FederatedQuery.Proofs.Planning.Rewriting
import FederatedQuery.Proofs.Planning.RunFailures
import FederatedQuery.Proofs.Planning.Session
import FederatedQuery.Proofs.Planning.Settling
import FederatedQuery.Proofs.Planning.ShapeKept
import FederatedQuery.Proofs.Planning.SourceNames
import FederatedQuery.Proofs.Planning.Trace
import FederatedQuery.Proofs.Planning.ValueSources
import FederatedQuery.Proofs.Pushdown.Acceptance
import FederatedQuery.Proofs.Pushdown.Conjuncts
import FederatedQuery.Proofs.Pushdown.Connectors
import FederatedQuery.Proofs.Pushdown.Failures
import FederatedQuery.Proofs.Pushdown.Grouping
import FederatedQuery.Proofs.Pushdown.Growth
import FederatedQuery.Proofs.Pushdown.Requirements
import FederatedQuery.Proofs.Pushdown.Searchability
import FederatedQuery.Proofs.Pushdown.Subqueries
import FederatedQuery.Proofs.Pushdown.Validation
import FederatedQuery.Proofs.RoundTrip
import FederatedQuery.Proofs.Text.LowerCase
import FederatedQuery.Proofs.Text.TreeDiagram
import FederatedQuery.Pushdown.Federation
import FederatedQuery.Pushdown.LocalRule
import FederatedQuery.Pushdown.Rejection
import FederatedQuery.Pushdown.Validation
import FederatedQuery.Scenario
import FederatedQuery.SourceCapabilities
import FederatedQuery.Symbol
import FederatedQuery.Text.CaseTable
import FederatedQuery.Text.Lines
import FederatedQuery.Text.LowerCase
import FederatedQuery.Text.TreeDiagram
import FederatedQuery.Translator
import FederatedQuery.Value
