import WideColumn.Text.Quoted
import WideColumn.Text.Case
import WideColumn.Text.Blank
import WideColumn.Text.Digit
import WideColumn.Text.Word
import WideColumn.Number.Decimal
import WideColumn.Scalar.Calendar
import WideColumn.Scalar.Uuid
import WideColumn.Value.Display
import WideColumn.Callback
import WideColumn.ColumnType
import WideColumn.IndexTarget
import WideColumn.Inquiry
import WideColumn.CustomIndex
import WideColumn.Refusal.Basic
import WideColumn.Coercion
import WideColumn.Schema.Table
import WideColumn.Schema.Definition
import WideColumn.Schema.Validation
import WideColumn.Query.Relation
import WideColumn.Statement.Basic
import WideColumn.Operation.Compile
import WideColumn.Schema.Diff
import WideColumn.Schema.Introspection
import WideColumn.Migration.Run
import WideColumn.Journal.Basic
import WideColumn.Refusal.Form
import WideColumn.Model.Call
import WideColumn.Proofs.Keyed
import WideColumn.Proofs.Shape
import WideColumn.Proofs.Query
import WideColumn.Proofs.Outcome
import WideColumn.Proofs.Draft
import WideColumn.Proofs.Sending
import WideColumn.Proofs.Run
import WideColumn.Proofs.Confirmation
import WideColumn.Proofs.Naming
import WideColumn.Proofs.Registration
import WideColumn.Proofs.Differences
import WideColumn.Proofs.Simulation
import WideColumn.Proofs.WorkingCopy
import WideColumn.Proofs.Creation
import WideColumn.Proofs.Targets
import WideColumn.Proofs.Alteration
import WideColumn.Proofs.Reconciliation
import WideColumn.Proofs.Applicability
import WideColumn.Proofs.Case
import WideColumn.Proofs.Spelling
import WideColumn.Proofs.Canonical
import WideColumn.Proofs.Agreement
import WideColumn.Proofs.Supply
import WideColumn.Proofs.Retyping
import WideColumn.Proofs.Completion
import WideColumn.Proofs.Dropping
import WideColumn.Proofs.Creatable
import WideColumn.Proofs.Ending
import WideColumn.Proofs.Invariant
import WideColumn.Proofs.Convergence
import WideColumn.Proofs.Tally
import WideColumn.Proofs.Kept
import WideColumn.Proofs.Frame
import WideColumn.Proofs.Sorting
import WideColumn.Proofs.Json
import WideColumn.Proofs.Payload
import WideColumn.Proofs.Exactness
import WideColumn.Proofs.Placeholder
import WideColumn.Proofs.Inert
import WideColumn.Proofs.Alignment
import WideColumn.Proofs.Report
import WideColumn.Proofs.Vetting
import WideColumn.Proofs.Grammar
import WideColumn.Proofs.Skeleton
import WideColumn.Proofs.TwoRuns
import WideColumn.Proofs.Independence
import WideColumn.Proofs.Idempotence
import WideColumn.Proofs.SameType
import WideColumn.Proofs.Rearrangement
import WideColumn.Proofs.Description
import WideColumn.Proofs.Introspection
import WideColumn.Proofs.Soundness
import WideColumn.Proofs.Accountable
import WideColumn.Proofs.Functions
import WideColumn.Proofs.Stillness
import WideColumn.Proofs.Sent
import WideColumn.Proofs.Calls
import WideColumn.Proofs.History
import WideColumn.Proofs.Readiness
import WideColumn.Proofs.Addressing
import WideColumn.Proofs.Clauses
import WideColumn.Proofs.Protocol
import WideColumn.Proofs.Delta
import WideColumn.Proofs.Verdict
import WideColumn.Proofs.Revision
import WideColumn.Proofs.Directive
import WideColumn.Proofs.Leaves
import WideColumn.Proofs.Rules
import WideColumn.Proofs.SystemQueries
import WideColumn.Proofs.IndexNames
import WideColumn.Proofs.SystemRows
import WideColumn.Proofs.Rereading
import WideColumn.Proofs.IndexIdentity
import WideColumn.Proofs.SelectList
import WideColumn.Proofs.TableNames
import WideColumn.Proofs.Literal
import WideColumn.Proofs.Quoting
import WideColumn.Proofs.TypeTexts
import WideColumn.Proofs.Uniformity
import WideColumn.Proofs.Composition
import WideColumn.Proofs.Records
