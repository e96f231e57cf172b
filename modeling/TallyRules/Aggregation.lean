import TallyRules.Json.Write
import TallyRules.Script.Phases

/-! # Aggregations as JSON

The scripts of an aggregation are part of a search request. Requests are
written with the members of every object in order of their names.
-/

namespace TallyRules.Aggregation

/-- The four scripts, in the order in which they run. -/
def toJson (a : Aggregation) : Json :=
  .object [("init_script", .string a.init), ("map_script", .string a.map),
    ("combine_script", .string a.combine), ("reduce_script", .string a.reduce)]

def definition (a : Aggregation) : Json :=
  (Json.object [("scripted_metric", a.toJson)]).sorted

/-- A search request that asks for this aggregation only, under a name, among the documents that
a query selects. -/
def searchBody (a : Aggregation) (name : String) (query : Option Json) : Json :=
  (Json.object ([("size", .number (.integer 0)), ("aggs", .object [(name, a.definition)])] ++
    (query.map ("query", ·)).toList)).sorted

end TallyRules.Aggregation
