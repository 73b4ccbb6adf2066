import TiProxy.Model.GoMap
import TiProxy.Model.Metrics.Sample

/-! # The Prometheus-backed metrics reader

`DefaultMetricsReader` keeps the registered expressions and the result of each. A tick of its
`Start` loop calls `readMetrics`, which copies the expressions under the lock, queries each copy
without it, and returns the results of the queries that succeeded; the loop then stores that map
in place of `queryResults` under the lock, unless it is empty. `AddQueryExpr` and
`RemoveQueryExpr` may run between the copy and the store. A `readMetrics` that fails before the
copy, on a cancelled context or with no Prometheus address, changes no field the model keeps.
-/

namespace TiProxy.Metrics

/-- A Go `map[uint64]V`. -/
abbrev IdMap (V : Type) := AList (fun _ : UInt64 => V)

/-- Modelled from the spec: `QueryExpr`, declared outside src/; the tick only hands it to
`queryMetric`, whose outcome is an input of the model. -/
structure QueryExpr where
  promQL : String
deriving DecidableEq, Repr

/-- The fields of `DefaultMetricsReader` its methods read and write, and the copy `readMetrics`
took of the expressions while a tick is between its copy and its store. -/
structure DefaultMetricsReader where
  queryExprs : IdMap QueryExpr := ∅
  queryResults : IdMap QueryResult := ∅
  lastID : UInt64 := 0
  copyedMap : Option (IdMap QueryExpr) := none

namespace DefaultMetricsReader

/-- `AddQueryExpr`: register the expression under the next ID, and return the ID. -/
def addQueryExpr (dmr : DefaultMetricsReader) (queryExpr : QueryExpr) :
    DefaultMetricsReader × UInt64 :=
  let lastID := dmr.lastID + 1
  ({ dmr with lastID, queryExprs := dmr.queryExprs.insert lastID queryExpr }, lastID)

/-- `RemoveQueryExpr`. -/
def removeQueryExpr (dmr : DefaultMetricsReader) (id : UInt64) : DefaultMetricsReader :=
  { dmr with queryExprs := dmr.queryExprs.erase id }

/-- `GetQueryResult`: return an empty `QueryResult` if it's not found. -/
def getQueryResult (dmr : DefaultMetricsReader) (id : UInt64) : QueryResult :=
  (dmr.queryResults.lookup id).getD {}

/-- The map `readMetrics` returns after its copy: `queryMetric id` is what the query of the
copied expression `id` returned, and `clock id` the `monotime.Now()` read when it is stored. -/
def readMetrics (copyedMap : IdMap QueryExpr) (queryMetric : UInt64 → QueryResult)
    (clock : UInt64 → Nat) : IdMap QueryResult :=
  copyedMap.entries.foldl (fun results entry =>
    let qr := queryMetric entry.1
    -- Only update the result when it succeeds.
    if qr.err = none then results.insert entry.1 { qr with updateTime := clock entry.1 }
    else results) ∅

/-- The store of a tick whose `readMetrics` returned without error. -/
def storeResults (dmr : DefaultMetricsReader) (results : IdMap QueryResult) :
    DefaultMetricsReader :=
  if results.entries.length > 0 then { dmr with queryResults := results } else dmr

/-- One event of a reader: a call of `AddQueryExpr` or `RemoveQueryExpr`, or one of the two
locked sections of a tick of `Start`. -/
inductive Event where
  | addQueryExpr (queryExpr : QueryExpr)
  | removeQueryExpr (id : UInt64)
  /-- `readMetrics` copies the expressions. -/
  | copy
  /-- The queries of the copied expressions returned `queryMetric`, and the tick stores the
  results. -/
  | store (queryMetric : UInt64 → QueryResult) (clock : UInt64 → Nat)

/-- One event; `none` when a tick section comes out of turn, which the one loop of `Start`
never does. -/
def step (dmr : DefaultMetricsReader) : Event → Option DefaultMetricsReader
  | .addQueryExpr queryExpr => some (dmr.addQueryExpr queryExpr).1
  | .removeQueryExpr id => some (dmr.removeQueryExpr id)
  | .copy =>
    match dmr.copyedMap with
    | none => some { dmr with copyedMap := some dmr.queryExprs }
    | some _ => none
  | .store queryMetric clock =>
    match dmr.copyedMap with
    | some copyedMap =>
      some (storeResults { dmr with copyedMap := none } (readMetrics copyedMap queryMetric clock))
    | none => none

/-- A run of events; `none` when one comes out of turn. -/
def run (dmr : DefaultMetricsReader) : List Event → Option DefaultMetricsReader
  | [] => some dmr
  | event :: rest => (dmr.step event).bind fun next => next.run rest

end DefaultMetricsReader

end TiProxy.Metrics
