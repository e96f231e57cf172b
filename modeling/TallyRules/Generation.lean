import TallyRules.Script.Phases
import TallyRules.Sheet

/-! # From sheets to scripts

The rows of a sheet are checked, the rules in them resolved, and the conditions
written as scripts. Rejected rows are reported beside the scripts of the
others, or prevent all scripts under the strict policy.
-/

namespace TallyRules

structure Generation where
  aggregation : Aggregation
  rules : RuleSet
  rowErrors : List RowError
  lineErrors : List LineError
  warnings : List Warning
  deriving DecidableEq

def Generation.isClean (generation : Generation) : Bool :=
  generation.rowErrors.isEmpty && generation.lineErrors.isEmpty

inductive GenerationError
  | script (error : ScriptError)
  | rejectedRows (errors : List RowError)
  | rejectedLines (errors : List LineError)
  deriving DecidableEq

def GenerationError.message : GenerationError → String
  | script error => error.message
  | rejectedRows errors =>
    toString errors.length ++ " rule rows failed validation; first: " ++
      (errors.head?.map RowError.message).getD ""
  | rejectedLines errors =>
    toString errors.length ++ " rule lines could not be read; first: " ++
      (errors.head?.map LineError.text).getD ""

namespace Config

/-- Generates the scripts of some rules, to be reported with what was rejected. -/
def generate (config : Config) (rules : RuleSet) (rowErrors : List RowError)
    (lineErrors : List LineError) : Logged (Except GenerationError Generation) := do
  let resolved ← rules.resolve
  match ← config.script.emit resolved with
  | .error error => return .error (.script error)
  | .ok aggregation =>
    Logged.log (.generated rules.size (rowErrors.length + lineErrors.length)
      resolved.warnings.length)
    return .ok ⟨aggregation, rules, rowErrors, lineErrors, resolved.warnings⟩

/-- Generates the scripts of a sheet of rows. -/
def generateFromRows (config : Config) (rows : List Row) :
    Logged (Except GenerationError Generation) := do
  let validation ← validate config.columns rows
  if config.policy = .strict ∧ validation.errors ≠ [] then
    return .error (.rejectedRows validation.errors)
  config.generate validation.rules validation.errors []

/-- Generates the scripts of a sheet of rule lines. -/
def generateFromLines (config : Config) (sheet : List SheetRow) :
    Logged (Except GenerationError Generation) := do
  let lineRows ← LineRows.readSheet config.columns sheet
  let validation ← validate config.columns lineRows.toRows
  let rejected := lineRows.rejected validation.errors
  if config.policy = .strict ∧ rejected ≠ [] then
    return .error (.rejectedLines rejected)
  config.generate validation.rules [] rejected

end Config

end TallyRules
