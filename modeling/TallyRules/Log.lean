import TallyRules.Condition
import TallyRules.Rejection

/-! # The log

What happens on the way from a sheet to its scripts is told as a list of
events, each of a level of importance. A logged result carries the events that
led to it, the earliest first.
-/

namespace TallyRules

inductive Level
  | trace
  | debug
  | warn
  deriving DecidableEq

def Level.name : Level → String
  | trace => "TRACE"
  | debug => "DEBUG"
  | warn => "WARN"

inductive Event
  | rejectedRow (error : RowError)
  /-- All rows were looked at. -/
  | checkedRows (rules rejected : Nat)
  | unreadableLine (error : LineError)
  /-- A row of a sheet has a label that names no metric. -/
  | skippedLabel (label : String)
  | noRules (metric : Metric)
  /-- An unfilter cancelled so many filters. -/
  | cancelledFilters (field : String) (count : Nat)
  /-- No constraint on a field is left. -/
  | unconstrainedField (field : String)
  | resolved (metric : Metric) (condition : Condition)
  | rendered (condition : Condition) (script : String)
  | renderedMetric (metric : Metric) (script : String)
  | generated (rules rejected warnings : Nat)

namespace Event

def level : Event → Level
  | rejectedRow _ => .warn
  | checkedRows .. => .debug
  | unreadableLine _ => .warn
  | skippedLabel _ => .debug
  | noRules _ => .warn
  | cancelledFilters .. => .trace
  | unconstrainedField _ => .trace
  | resolved .. => .debug
  | rendered .. => .trace
  | renderedMetric .. => .debug
  | generated .. => .debug

def message : Event → String
  | rejectedRow error =>
    "rejected rule row " ++ toString error.row ++ ": " ++ error.violation.message
  | checkedRows rules rejected =>
    "parsed " ++ toString rules ++ " rules, rejected " ++ toString rejected ++ " rows"
  | unreadableLine error =>
    "unreadable " ++ error.metric.name ++ " rule on line " ++ toString error.line ++ ": " ++
      error.message
  | skippedLabel label => "skipping sheet row labelled '" ++ label ++ "'"
  | noRules metric => metric.name ++ " has no rules; it will count every document"
  | cancelledFilters field count =>
    "unfilter on '" ++ field ++ "' cancelled " ++ toString count ++ " filter(s)"
  | unconstrainedField field => "field '" ++ field ++ "' has no active constraint"
  | resolved metric condition => metric.name ++ " predicate: " ++ condition.text
  | rendered condition script => condition.text ++ " => " ++ script
  | renderedMetric metric script => "rendered " ++ metric.name ++ " condition: " ++ script
  | generated rules rejected warnings =>
    "generated script from " ++ toString rules ++ " rules (" ++ toString rejected ++
      " rejected, " ++ toString warnings ++ " warnings)"

def text (event : Event) : String :=
  event.level.name ++ " " ++ event.message

end Event

/-- A result with the events that led to it. -/
structure Logged (α : Type) where
  value : α
  events : List Event

namespace Logged

variable {α β : Type}

instance : Monad Logged where
  pure a := ⟨a, []⟩
  bind x f := ⟨(f x.value).value, x.events ++ (f x.value).events⟩

def log (event : Event) : Logged Unit :=
  ⟨(), [event]⟩

def logAll (events : List Event) : Logged Unit :=
  ⟨(), events⟩

@[simp]
theorem value_pure (a : α) : (pure a : Logged α).value = a := rfl

@[simp]
theorem events_pure (a : α) : (pure a : Logged α).events = [] := rfl

@[simp]
theorem value_bind (x : Logged α) (f : α → Logged β) :
    (x >>= f).value = (f x.value).value := rfl

@[simp]
theorem events_bind (x : Logged α) (f : α → Logged β) :
    (x >>= f).events = x.events ++ (f x.value).events := rfl

theorem bind_congr {γ : Type} {x : Logged α} {y : Logged β} {f : α → Logged γ} {g : β → Logged γ}
    (he : x.events = y.events) (h : f x.value = g y.value) : x >>= f = y >>= g := by
  change Logged.mk (f x.value).value (x.events ++ (f x.value).events) =
    Logged.mk (g y.value).value (y.events ++ (g y.value).events)
  rw [he, h]

@[simp]
theorem events_log (event : Event) : (log event).events = [event] := rfl

@[simp]
theorem events_logAll (events : List Event) : (logAll events).events = events := rfl

end Logged

end TallyRules
