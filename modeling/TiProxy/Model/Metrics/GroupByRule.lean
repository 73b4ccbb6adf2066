import TiProxy.Model.Metrics.Results

/-! # The older copy's `groupMetricsByRule`

`backend_reader.go` holds a second, older copy of the reader. Its worker calls
`groupMetricsByRule` and merges what it returns. In one locked section, `groupMetricsByRule`
appends the scrape to the history as `metric2History` does and returns a value for each rule whose
step-2 history it has just extended: the step-2 value it computed, as a vector, or the whole step-2
history, as a matrix. The newer copy splits this into `metric2History` and `history2Value`.
-/

namespace TiProxy.Metrics

namespace BackendReader

/-- One iteration of `groupMetricsByRule`'s loop over `queryRules`, on the history and the
results so far. -/
def groupMetricsByRuleStep (mfs : MetricFamilies) (backend : String) (now : Time)
    (acc : History × StrMap Value) (ruleKey : String) (rule : QueryRule) :
    History × StrMap Value :=
  let (history, results) := acc
  -- If the metric doesn't exist, skip it.
  if !metricExists mfs rule then acc else
  -- step 1: get the latest pair (at a timepoint) and add it to step1History
  let sampleValue := rule.metric2Value mfs
  if sampleValue.isNaN then acc else
  let ruleHistory := (history.lookup ruleKey).getD ∅
  let history := history.insert ruleKey ruleHistory
  let beHistory := (ruleHistory.lookup backend).getD {}
  let step1History := beHistory.step1History ++ [⟨now, sampleValue⟩]
  -- step 2: get the latest pair by the history and add it to step2History
  let sampleValue := rule.range2Value step1History
  if sampleValue.isNaN then (history, results) else
  let beHistory : BackendHistory :=
    { step1History, step2History := beHistory.step2History ++ [⟨now, sampleValue⟩] }
  let history := history.insert ruleKey (ruleHistory.insert backend beHistory)
  -- step 3: return the result
  match rule.resultType with
  | .vector =>
    (history, results.insert ruleKey (.vector [⟨instanceLabels backend, sampleValue, now⟩]))
  | .matrix =>
    (history, results.insert ruleKey (.matrix [⟨instanceLabels backend, beHistory.step2History⟩]))
  -- unsupported value type
  | _ => (history, results)

/-- `groupMetricsByRule` on the scrape `mfs` of `backend`, read at time `now`: the reader with the
extended history, and the results of the rules. -/
def groupMetricsByRule (br : BackendReader) (mfs : MetricFamilies) (backend : String)
    (now : Time) : BackendReader × StrMap Value :=
  let acc := br.queryRules.entries.foldl (fun acc entry =>
    groupMetricsByRuleStep mfs backend now acc entry.1 entry.2) (br.history, ∅)
  ({ br with history := acc.1 }, acc.2)

end BackendReader

end TiProxy.Metrics
