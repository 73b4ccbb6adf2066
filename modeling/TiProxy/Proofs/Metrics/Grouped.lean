import TiProxy.Model.Metrics.GroupByRule

/-! # The older `groupMetricsByRule` against `metric2History` and `history2Value`

The older copy extends the history exactly as `metric2History` does, and the value it returns for
a rule is the one `history2Value` computes afterwards, but only for the rules whose step-2 history
the scrape extended. For a rule whose metrics the scrape lacks, or whose value is NaN, the older
copy returns nothing, while `history2Value` still returns the last step-2 value the history holds
(`lookup_history2Value`), which the newer worker then merges with the current time.
-/

namespace TiProxy.Metrics

namespace BackendReader

section Grouped

variable {mfs : MetricFamilies} {backend : String} {now : Time}

/-- An iteration of the older loop does to the history what one of `metric2History` does. -/
theorem groupMetricsByRuleStep_fst (acc : History × StrMap Value) (ruleKey : String)
    (rule : QueryRule) : (groupMetricsByRuleStep mfs backend now acc ruleKey rule).1 =
      metric2HistoryRule mfs backend now acc.1 ruleKey rule := by
  obtain ⟨history, results⟩ := acc
  unfold groupMetricsByRuleStep metric2HistoryRule appendSamples
  cases found : metricExists mfs rule <;> cases nan : (rule.metric2Value mfs).isNaN <;>
    simp only [found, nan, Bool.not_true, Bool.not_false, Bool.true_or, Bool.false_or,
      Bool.false_eq_true, ↓reduceIte]
  split_ifs
  · rfl
  · split <;> exact AList.insert_insert _

/-- The value the older copy returns for a rule, from the rule's map before the scrape: the
newer `stepValue` of the backend history the scrape extended, if it extended it. -/
def groupedValue (mfs : MetricFamilies) (backend : String) (now : Time) (rule : QueryRule)
    (ruleHistory : Option RuleHistory) : Option Value :=
  (appendSamples mfs now rule (((ruleHistory.getD ∅).lookup backend).getD {})).bind
    fun beHistory => stepValue rule.resultType backend beHistory.step2History

/-- An iteration touches the history and the results only at its own rule key. -/
theorem groupMetricsByRuleStep_lookup_ne (acc : History × StrMap Value) {ruleKey other : String}
    (rule : QueryRule) (distinct : other ≠ ruleKey) :
    (groupMetricsByRuleStep mfs backend now acc ruleKey rule).1.lookup other = acc.1.lookup other ∧
      (groupMetricsByRuleStep mfs backend now acc ruleKey rule).2.lookup other =
        acc.2.lookup other := by
  obtain ⟨history, results⟩ := acc
  unfold groupMetricsByRuleStep
  dsimp only
  split_ifs
  · exact ⟨rfl, rfl⟩
  · exact ⟨rfl, rfl⟩
  · exact ⟨AList.lookup_insert_ne distinct, rfl⟩
  · split <;> simp only [AList.lookup_insert_ne distinct, and_self]

/-- What an iteration leaves at its own rule key. -/
theorem groupMetricsByRuleStep_lookup_self (acc : History × StrMap Value) (ruleKey : String)
    (rule : QueryRule) :
    (groupMetricsByRuleStep mfs backend now acc ruleKey rule).1.lookup ruleKey =
        metric2HistoryCell mfs backend now rule (acc.1.lookup ruleKey) ∧
      (groupMetricsByRuleStep mfs backend now acc ruleKey rule).2.lookup ruleKey =
        (groupedValue mfs backend now rule (acc.1.lookup ruleKey)).or (acc.2.lookup ruleKey) := by
  obtain ⟨history, results⟩ := acc
  unfold groupMetricsByRuleStep metric2HistoryCell groupedValue appendSamples
  cases found : metricExists mfs rule <;> cases nan : (rule.metric2Value mfs).isNaN <;>
    simp only [found, nan, Bool.not_true, Bool.not_false, Bool.true_or, Bool.false_or,
      Bool.false_eq_true, ↓reduceIte, Option.none_bind, Option.none_or, and_self]
  split_ifs
  · simp [AList.lookup_insert]
  · split <;> rename_i resultType <;> simp [AList.lookup_insert, stepValue, resultType]

theorem foldl_groupMetricsByRuleStep_fst :
    ∀ (entries : List (Σ _ : String, QueryRule)) (acc : History × StrMap Value),
      (entries.foldl (fun acc entry => groupMetricsByRuleStep mfs backend now acc entry.1 entry.2)
        acc).1 = entries.foldl (fun history entry =>
          metric2HistoryRule mfs backend now history entry.1 entry.2) acc.1
  | [], _ => rfl
  | entry :: entries, acc => by
    rw [List.foldl_cons, List.foldl_cons, foldl_groupMetricsByRuleStep_fst entries,
      groupMetricsByRuleStep_fst]

/-- The older copy leaves the reader as `metric2History` does. -/
theorem groupMetricsByRule_fst (br : BackendReader) :
    (br.groupMetricsByRule mfs backend now).1 = br.metric2History mfs backend now := by
  unfold groupMetricsByRule metric2History
  dsimp only
  rw [foldl_groupMetricsByRuleStep_fst]

/-- The result the older copy returns for each rule. -/
theorem lookup_groupMetricsByRule (br : BackendReader) (ruleKey : String) :
    (br.groupMetricsByRule mfs backend now).2.lookup ruleKey =
      (br.queryRules.lookup ruleKey).bind fun rule =>
        groupedValue mfs backend now rule (br.history.lookup ruleKey) := by
  have cells := foldl_cell (fun acc entry => groupMetricsByRuleStep mfs backend now acc entry.1 entry.2)
    (fun acc key => (acc.1.lookup key, acc.2.lookup key))
    (fun _ rule cell => (metric2HistoryCell mfs backend now rule cell.1,
      (groupedValue mfs backend now rule cell.1).or cell.2))
    (fun acc entry _ distinct => Prod.ext (groupMetricsByRuleStep_lookup_ne acc entry.2 distinct).1
      (groupMetricsByRuleStep_lookup_ne acc entry.2 distinct).2)
    (fun acc entry => Prod.ext (groupMetricsByRuleStep_lookup_self acc entry.1 entry.2).1
      (groupMetricsByRuleStep_lookup_self acc entry.1 entry.2).2)
    br.queryRules (br.history, ∅) ruleKey
  refine (congrArg Prod.snd cells).trans ?_
  cases br.queryRules.lookup ruleKey <;> simp [AList.lookup_empty]

end Grouped

/-- The older `groupMetricsByRule` extends the history as `metric2History` does, and returns for
a rule the value the newer `history2Value` computes after `metric2History` exactly when the scrape
appended a sample to the rule's step-2 history of the backend, and nothing otherwise. -/
theorem groupMetricsByRule_eq_history2Value (br : BackendReader) (mfs : MetricFamilies)
    (backend : String) (now : Time) :
    (br.groupMetricsByRule mfs backend now).1 = br.metric2History mfs backend now ∧
      ∀ ruleKey, (br.groupMetricsByRule mfs backend now).2.lookup ruleKey =
        ((br.queryRules.lookup ruleKey).bind fun rule =>
          appendSamples mfs now rule (br.history.get ruleKey backend)).bind fun _ =>
            ((br.metric2History mfs backend now).history2Value backend).lookup ruleKey := by
  refine ⟨groupMetricsByRule_fst br, fun ruleKey => ?_⟩
  have rules : (br.metric2History mfs backend now).queryRules = br.queryRules := rfl
  rw [lookup_groupMetricsByRule, lookup_history2Value, rules]
  cases found : br.queryRules.lookup ruleKey with
  | none => rfl
  | some rule =>
    have same : (((br.history.lookup ruleKey).getD ∅).lookup backend).getD {} =
        br.history.get ruleKey backend := by
      rw [lookup_getD_empty]
      rfl
    simp only [Option.some_bind, groupedValue, same]
    cases appended : appendSamples mfs now rule (br.history.get ruleKey backend) with
    | none => rfl
    | some beHistory =>
      -- the scrape extended the backend's history, which `history2Value` then reads
      have extended : (br.metric2History mfs backend now).history.get ruleKey backend =
          beHistory := by
        show ((br.metric2History mfs backend now).history.find? ruleKey backend).getD {} = _
        rw [find?_metric2History, if_pos rfl, found, Option.some_bind, appended]
        rfl
      rw [Option.some_bind, Option.some_bind, extended]

end BackendReader

end TiProxy.Metrics
