import TallyRules.Aggregation
import TallyRules.Condition
import TallyRules.Config
import TallyRules.Config.Json
import TallyRules.Generation
import TallyRules.Json.Basic
import TallyRules.Json.Decode
import TallyRules.Json.Fault
import TallyRules.Json.Numeral
import TallyRules.Json.Reading
import TallyRules.Json.Write
import TallyRules.Log
import TallyRules.Metric
import TallyRules.Number.Binary64
import TallyRules.Number.Layout
import TallyRules.Number.Shortest
import TallyRules.Operator
import TallyRules.Proofs.Condition.Truth
import TallyRules.Proofs.Config.Overlay
import TallyRules.Proofs.Except
import TallyRules.Proofs.Generation.Accepted
import TallyRules.Proofs.Generation.Outcome
import TallyRules.Proofs.Generation.Policy
import TallyRules.Proofs.Generation.Warned
import TallyRules.Proofs.Json.Kept
import TallyRules.Proofs.Json.Kinds
import TallyRules.Proofs.Json.Number
import TallyRules.Proofs.Json.Written
import TallyRules.Proofs.List
import TallyRules.Proofs.Number.Integer
import TallyRules.Proofs.Number.Numeral
import TallyRules.Proofs.Number.Range
import TallyRules.Proofs.Number.Rounding
import TallyRules.Proofs.Number.Shortest
import TallyRules.Proofs.Resolution.Groups
import TallyRules.Proofs.Resolution.Meaning
import TallyRules.Proofs.Resolution.Redundant
import TallyRules.Proofs.Resolution.Reordering
import TallyRules.Proofs.Resolution.Tests
import TallyRules.Proofs.Row.Map
import TallyRules.Proofs.Row.Presentation
import TallyRules.Proofs.RuleLine.Closing
import TallyRules.Proofs.RuleLine.Comparison
import TallyRules.Proofs.RuleLine.Contents
import TallyRules.Proofs.RuleLine.Grammar
import TallyRules.Proofs.RuleLine.Negation
import TallyRules.Proofs.RuleLine.Parts
import TallyRules.Proofs.RuleLine.Quoted
import TallyRules.Proofs.RuleLine.Reading
import TallyRules.Proofs.RuleLine.Rows
import TallyRules.Proofs.RuleLine.Viable
import TallyRules.Proofs.RuleLine.Word
import TallyRules.Proofs.RuleLine.Written
import TallyRules.Proofs.RuleSet.Degenerate
import TallyRules.Proofs.RuleSet.History
import TallyRules.Proofs.Script.Evaluation
import TallyRules.Proofs.Script.Execution
import TallyRules.Proofs.Script.Faults
import TallyRules.Proofs.Script.Grammar
import TallyRules.Proofs.Script.Guards
import TallyRules.Proofs.Script.Printed
import TallyRules.Proofs.Script.Program
import TallyRules.Proofs.Script.Quotation
import TallyRules.Proofs.Script.Reading
import TallyRules.Proofs.Script.Recovery
import TallyRules.Proofs.Script.Rendering
import TallyRules.Proofs.Script.Result
import TallyRules.Proofs.Script.Statement
import TallyRules.Proofs.Script.Token
import TallyRules.Proofs.Script.Totals
import TallyRules.Proofs.Sheet.Accounting
import TallyRules.Proofs.Sheet.Columns
import TallyRules.Proofs.Sheet.Lines
import TallyRules.Proofs.Sheet.Rejected
import TallyRules.Proofs.Text.Blank
import TallyRules.Proofs.Text.Case
import TallyRules.Proofs.Text.Lines
import TallyRules.Proofs.Validation.Batch
import TallyRules.Proofs.Validation.Blank
import TallyRules.Proofs.Validation.Checked
import TallyRules.Proofs.Validation.NormalForm
import TallyRules.Proofs.Validation.Presentation
import TallyRules.Proofs.Validation.Rows
import TallyRules.Proofs.Validation.Values
import TallyRules.Proofs.Validation.WellFormed
import TallyRules.Rejection
import TallyRules.Resolution
import TallyRules.Row
import TallyRules.Row.Json
import TallyRules.Rule
import TallyRules.RuleLine.Basic
import TallyRules.RuleLine.Rows
import TallyRules.RuleLine.Scan
import TallyRules.Script.Expr
import TallyRules.Script.Phases
import TallyRules.Script.Quote
import TallyRules.Script.Rendering
import TallyRules.Script.Stmt
import TallyRules.Sheet
import TallyRules.Text.AsciiCase
import TallyRules.Text.Blank
import TallyRules.Text.ByteLength
import TallyRules.Text.Escaped
import TallyRules.Text.Lines
import TallyRules.Text.RangeTable
import TallyRules.Text.WordChar
import TallyRules.Validation
import TallyRules.Value
import TallyRules.Value.Json
