import TiProxy.Model.Metrics.History
import Mathlib.Data.List.Sort
import Mathlib.Data.List.DropRight

/-! # What one scrape and one purge do to the sample lists

`purgeHistory` keeps the suffix of a list from its first sample that has not expired. Applying
it again changes nothing, and on a list sorted by timestamp the suffix is exactly the samples
that have not expired, since a sample after a fresh one is fresh. `metric2History` appends the
step-1 sample and the step-2 sample of a rule together or not at all: when the step-2 value is
NaN the iteration `continue`s before it writes the backend history back, so the step-1 sample
computed for it is dropped with it.
-/

namespace TiProxy.Metrics

section Purge

variable (retention now : Int)

/-- The contract of `purgeHistory` in words: the suffix from the first sample whose timestamp
(milliseconds) plus the retention is after `now`, or nothing when no sample is. -/
def freshSuffix (history : List SamplePair) : List SamplePair :=
  match history.findIdx? fun pair => pair.timestamp * 1000000 + retention > now with
  | some idx => history.drop idx
  | none => []

theorem purgeHistory_eq_freshSuffix (history : List SamplePair) :
    purgeHistory history retention now = freshSuffix retention now history := by
  induction history with
  | nil => rfl
  | cons pair rest ih =>
    unfold purgeHistory freshSuffix at *
    by_cases fresh : pair.timestamp * 1000000 + retention > now
    · simp [List.dropWhile_cons, fresh]
    · simp only [List.dropWhile_cons, fresh, decide_False, Bool.not_false, ↓reduceIte, ih,
        List.findIdx?_cons, List.findIdx?_succ]
      cases rest.findIdx? fun pair => pair.timestamp * 1000000 + retention > now <;> rfl

/-- On a list sorted by timestamp, every sample after a fresh one is fresh, so the suffix
`purgeHistory` keeps is the fresh samples. -/
theorem purgeHistory_of_sorted {history : List SamplePair}
    (sorted : history.Sorted fun first second => first.timestamp ≤ second.timestamp) :
    purgeHistory history retention now =
      history.filter fun pair => pair.timestamp * 1000000 + retention > now := by
  induction history with
  | nil => rfl
  | cons pair rest ih =>
    obtain ⟨later, sortedRest⟩ := List.sorted_cons.mp sorted
    unfold purgeHistory at *
    by_cases fresh : pair.timestamp * 1000000 + retention > now
    · have allFresh :
          ∀ other ∈ rest, decide (other.timestamp * 1000000 + retention > now) := by
        intro other member
        have le : pair.timestamp ≤ other.timestamp := later other member
        simp only [decide_eq_true_eq]
        exact lt_of_lt_of_le fresh
          (Int.add_le_add_right (Int.mul_le_mul_of_nonneg_right le (by decide)) retention)
      simp [List.dropWhile_cons, fresh, List.filter_eq_self.mpr allFresh]
    · simp [List.dropWhile_cons, fresh, ih sortedRest]

/-- `purgeHistory` keeps the suffix from the first fresh sample; a second purge with the same
retention and time changes nothing; and on a list sorted by timestamp it keeps exactly the fresh
samples, in order. -/
theorem purgeHistory_fresh_suffix (history : List SamplePair) :
    purgeHistory history retention now = freshSuffix retention now history ∧
      purgeHistory (purgeHistory history retention now) retention now =
        purgeHistory history retention now ∧
      (history.Sorted (fun first second => first.timestamp ≤ second.timestamp) →
        purgeHistory history retention now =
          history.filter fun pair => pair.timestamp * 1000000 + retention > now) :=
  ⟨purgeHistory_eq_freshSuffix retention now history, List.dropWhile_idempotent _ _,
    purgeHistory_of_sorted retention now⟩

end Purge

/-- Two samples a second apart, purged at a time when only the later one is fresh. -/
theorem purgeHistory_fresh_suffix_two_samples :
    [(⟨0, ⟨0⟩⟩ : SamplePair), ⟨1000, ⟨0⟩⟩].Sorted
        (fun first second => first.timestamp ≤ second.timestamp) ∧
      purgeHistory [⟨0, ⟨0⟩⟩, ⟨1000, ⟨0⟩⟩] 500000000 1000000000 =
        [⟨0, ⟨0⟩⟩, ⟨1000, ⟨0⟩⟩].filter
          fun (pair : SamplePair) => pair.timestamp * 1000000 + 500000000 > 1000000000 :=
  have sorted : [(⟨0, ⟨0⟩⟩ : SamplePair), ⟨1000, ⟨0⟩⟩].Sorted
      (fun first second => first.timestamp ≤ second.timestamp) := by
    simp [List.Sorted]
  ⟨sorted, (purgeHistory_fresh_suffix 500000000 1000000000 _).2.2 sorted⟩

section Metric2History

variable {rule : QueryRule}

/-- A step-2 reducer that, like a rate, has no value for fewer than two samples. -/
def RateLike (rule : QueryRule) : Prop :=
  ∀ pairs : List SamplePair, pairs.length < 2 → (rule.range2Value pairs).isNaN = true

/-- Without a history for a backend, a rate-like rule gets no sample of it from one scrape: the
step-2 value of the one step-1 sample is NaN, and the step-1 sample is dropped with it. -/
theorem metric2History_rateLike_absent {br : BackendReader} {ruleKey backend : String}
    (registered : br.queryRules.lookup ruleKey = some rule) (rateLike : RateLike rule)
    (absent : br.history.find? ruleKey backend = none) (mfs : MetricFamilies) (scraped : String)
    (now : Time) :
    (br.metric2History mfs scraped now).history.find? ruleKey backend = none := by
  rw [BackendReader.find?_metric2History]
  split
  · rename_i same
    subst same
    have dropped : appendSamples mfs now rule (br.history.get ruleKey backend) = none := by
      simp only [appendSamples, History.get, absent, Option.getD_none, List.nil_append]
      split
      · rfl
      · rw [if_pos (rateLike _ (by simp))]
    simp [registered, dropped, absent]
  · exact absent

/-- Scrapes of any backends, each with its families and its clock reading. -/
def scrapeAll (br : BackendReader) (scrapes : List (MetricFamilies × String × Time)) :
    BackendReader :=
  scrapes.foldl (fun br scrape => br.metric2History scrape.1 scrape.2.1 scrape.2.2) br

/-- A rate-like rule never gets a sample of a backend it has no history for: whatever the
families, backends and times of the scrapes, the entry stays absent, so the rule never has a
step-1 or a step-2 sample of that backend. -/
theorem scrapeAll_rateLike_absent {br : BackendReader} {ruleKey backend : String}
    (registered : br.queryRules.lookup ruleKey = some rule) (rateLike : RateLike rule)
    (absent : br.history.find? ruleKey backend = none)
    (scrapes : List (MetricFamilies × String × Time)) :
    (scrapeAll br scrapes).history.find? ruleKey backend = none := by
  induction scrapes generalizing br with
  | nil => exact absent
  | cons scrape rest ih =>
    exact ih registered
      (metric2History_rateLike_absent registered rateLike absent scrape.1 scrape.2.1 scrape.2.2)

/-- `1.0` as a float64 bit pattern. -/
def sampleOne : SampleValue := ⟨0x3FF0000000000000⟩

/-- The quiet NaN `math.NaN()` returns. -/
def sampleNaN : SampleValue := ⟨0x7FF8000000000001⟩

theorem sampleOne_isNaN : sampleOne.isNaN = false := by decide

theorem sampleNaN_isNaN : sampleNaN.isNaN = true := by decide

/-- A rule on one family whose step-2 value is a rate: NaN below two samples. -/
def rateRule : QueryRule where
  names := ["A"]
  retention := 60000000000
  metric2Value := fun _ => sampleOne
  range2Value := fun pairs => if pairs.length < 2 then sampleNaN else sampleOne
  resultType := .vector

theorem rateRule_rateLike : RateLike rateRule := fun pairs short => by
  simp [rateRule, short, sampleNaN_isNaN]

/-- Two scrapes of backend `b`, a second apart, each with the family `A`. -/
def twoScrapes : List (MetricFamilies × String × Time) :=
  [((∅ : MetricFamilies).insert "A" ⟨[]⟩, "b", 0),
    ((∅ : MetricFamilies).insert "A" ⟨[]⟩, "b", 1000)]

/-- A new reader with the rate rule under `k`, scraped twice: each scrape finds the rule's
family and a step-1 value that is not NaN, yet `b` ends with no history for `k`, where the
spec's step 4 appends `(0, 1.0)` and then `(1000, 1.0)` to its step-1 history and `(1000, 1.0)`
to its step-2 history. -/
theorem rateRule_two_scrapes_no_history :
    metricExists ((∅ : MetricFamilies).insert "A" ⟨[]⟩) rateRule = true ∧
      (rateRule.metric2Value ((∅ : MetricFamilies).insert "A" ⟨[]⟩)).isNaN = false ∧
      (scrapeAll { queryRules := (∅ : StrMap QueryRule).insert "k" rateRule }
        twoScrapes).history.find? "k" "b" = none :=
  ⟨by decide, sampleOne_isNaN, scrapeAll_rateLike_absent (by rfl) rateRule_rateLike (by rfl) _⟩

end Metric2History

end TiProxy.Metrics
