import TallyRules.Text.AsciiCase
import TallyRules.Text.Blank

/-! # Metrics

Documents are counted for two metrics. A label names a metric if the name
occurs in it.
-/

namespace TallyRules

inductive Metric
  | numerator
  | denominator
  deriving DecidableEq, Repr

namespace Metric

/-- Both metrics, in the order of every output. -/
def all : List Metric := [numerator, denominator]

def name : Metric → String
  | numerator => "numerator"
  | denominator => "denominator"

/-- The metric whose name occurs in a label. -/
def ofLabel? (label : String) : Option Metric :=
  let cs := (Text.lower (Text.trim label)).toList
  if Text.occursIn "numerator".toList cs then some numerator
  else if Text.occursIn "denominator".toList cs then some denominator
  else none

end Metric

end TallyRules
