import TiProxy.Model.Metrics.History
import Mathlib.Order.WithBot
import Mathlib.Algebra.Order.Ring.Int

/-! # The order of follower pulls

A follower merges the payload of every owner in the order Go's map iteration visits them. Per
list, `mergeHistory` keeps the one with the later last sample and the local one on a tie, so it
is the latest-wins choice of `lastTimestamp`. That choice commutes unless two payloads carry
different lists with the same last timestamp, and it is idempotent; so are the history merges.
-/

namespace TiProxy.Metrics

/-- Two lists `mergeHistory` cannot order: both non-empty and different, with equal last
timestamps, so the one merged first stays. -/
def Tied (left right : List SamplePair) : Prop :=
  left ≠ right ∧ ∃ last other, left.getLast? = some last ∧ right.getLast? = some other ∧
    last.timestamp = other.timestamp

/-- No entry of two payloads carries tied lists. -/
def NoTies (first second : History) : Prop :=
  ∀ ruleKey backend left right, first.find? ruleKey backend = some left →
    second.find? ruleKey backend = some right →
      ¬Tied left.step1History right.step1History ∧ ¬Tied left.step2History right.step2History

theorem NoTies.symm {first second : History} (untied : NoTies first second) :
    NoTies second first := by
  intro ruleKey backend left right inSecond inFirst
  obtain ⟨step1, step2⟩ := untied ruleKey backend right left inFirst inSecond
  exact ⟨fun ⟨distinct, last, other, l, r, same⟩ => step1 ⟨distinct.symm, other, last, r, l, same.symm⟩,
    fun ⟨distinct, last, other, l, r, same⟩ => step2 ⟨distinct.symm, other, last, r, l, same.symm⟩⟩

/-- The last timestamp of a list, below every timestamp when the list is empty. -/
def lastTimestamp (history : List SamplePair) : WithBot Time :=
  history.getLast?.map (·.timestamp)

private theorem latest_comm {α β : Type} [LinearOrder β] (key : α → β) (c x y : α)
    (untied : key x = key y → x = y) :
    (if key (if key c < key x then x else c) < key y then y
      else if key c < key x then x else c) =
    (if key (if key c < key y then y else c) < key x then x
      else if key c < key y then y else c) := by
  rcases lt_trichotomy (key x) (key y) with lt | eq | gt
  · by_cases hcx : key c < key x
    · simp [hcx, lt_trans hcx lt, lt, not_lt.mpr lt.le]
    · by_cases hcy : key c < key y
      · simp [hcx, hcy, not_lt.mpr lt.le]
      · simp [hcx, hcy]
  · rw [untied eq]
  · by_cases hcy : key c < key y
    · simp [hcy, lt_trans hcy gt, gt, not_lt.mpr gt.le]
    · by_cases hcx : key c < key x
      · simp [hcx, hcy, not_lt.mpr gt.le]
      · simp [hcx, hcy]

private theorem latest_idem {α β : Type} [LinearOrder β] (key : α → β) (c x : α) :
    (if key (if key c < key x then x else c) < key x then x
      else if key c < key x then x else c) = if key c < key x then x else c := by
  by_cases hcx : key c < key x <;> simp [hcx]

theorem mergeSteps_eq_latest (current incoming : List SamplePair) :
    mergeSteps current incoming =
      if lastTimestamp current < lastTimestamp incoming then incoming else current := by
  unfold mergeSteps lastTimestamp
  rcases hc : current.getLast? with _ | c <;> rcases hi : incoming.getLast? with _ | i <;>
    simp only [Option.map_none', Option.map_some']
  · simp [List.getLast?_eq_none_iff.mp hc, List.getLast?_eq_none_iff.mp hi]
  · simp [WithBot.none_eq_bot, WithBot.some_eq_coe]
  · simp [WithBot.none_eq_bot, WithBot.some_eq_coe]
  · simp [WithBot.some_eq_coe]

private theorem eq_of_lastTimestamp_eq {first second : List SamplePair}
    (untied : ¬Tied first second) (same : lastTimestamp first = lastTimestamp second) :
    first = second := by
  unfold lastTimestamp at same
  rcases h1 : first.getLast? with _ | a <;> rcases h2 : second.getLast? with _ | b <;>
    simp only [h1, h2, Option.map_none', Option.map_some', reduceCtorEq, Option.some.injEq] at same
  · rw [List.getLast?_eq_none_iff.mp h1, List.getLast?_eq_none_iff.mp h2]
  · by_contra distinct
    exact untied ⟨distinct, a, b, h1, h2, Option.some.inj same⟩

/-- The latest-wins choice is the same in both orders unless the two lists are tied. -/
theorem mergeSteps_comm (current first second : List SamplePair) (untied : ¬Tied first second) :
    mergeSteps (mergeSteps current first) second = mergeSteps (mergeSteps current second) first := by
  simp only [mergeSteps_eq_latest]
  exact latest_comm lastTimestamp current first second (eq_of_lastTimestamp_eq untied)

theorem mergeSteps_idem (current incoming : List SamplePair) :
    mergeSteps (mergeSteps current incoming) incoming = mergeSteps current incoming := by
  simp only [mergeSteps_eq_latest]
  exact latest_idem lastTimestamp current incoming

@[simp] theorem mergeSteps_nil (incoming : List SamplePair) : mergeSteps [] incoming = incoming := by
  simp [mergeSteps]

theorem mergeEntry_comm (current first second : Option BackendHistory)
    (untied : ∀ left right, first = some left → second = some right →
      ¬Tied left.step1History right.step1History ∧ ¬Tied left.step2History right.step2History) :
    mergeEntry (mergeEntry current first) second = mergeEntry (mergeEntry current second) first := by
  rcases first with _ | left <;> rcases second with _ | right
  · rfl
  · simp
  · simp
  · obtain ⟨step1, step2⟩ := untied left right rfl rfl
    have swap1 := mergeSteps_comm [] _ _ step1
    have swap2 := mergeSteps_comm [] _ _ step2
    rcases current with _ | current <;> simp only [mergeEntry, mergeSteps_nil] at * <;>
      simp [swap1, swap2, mergeSteps_comm _ _ _ step1, mergeSteps_comm _ _ _ step2]

theorem mergeEntry_idem (current incoming : Option BackendHistory) :
    mergeEntry (mergeEntry current incoming) incoming = mergeEntry current incoming := by
  rcases incoming with _ | incoming
  · simp
  · have self (history : List SamplePair) : mergeSteps history history = history := by
      simpa using mergeSteps_idem [] history
    rcases current with _ | current <;> simp [mergeEntry, mergeSteps_idem, self]

namespace BackendReader

theorem mem_mergeHistory (br : BackendReader) (newHistory : History) (ruleKey : String) :
    ruleKey ∈ (br.mergeHistory newHistory).history ↔ ruleKey ∈ br.history ∨ ruleKey ∈ newHistory := by
  simp only [← AList.lookup_isSome, lookup_mergeHistory]
  cases newHistory.lookup ruleKey <;> cases br.history.lookup ruleKey <;> simp

theorem mergeHistory_comm (br : BackendReader) (first second : History)
    (untied : NoTies first second) :
    ((br.mergeHistory first).mergeHistory second).history.Equiv
      ((br.mergeHistory second).mergeHistory first).history :=
  ⟨fun ruleKey => by simp only [mem_mergeHistory]; tauto,
    fun ruleKey backend => by
      simp only [find?_mergeHistory]
      exact mergeEntry_comm _ _ _ (untied ruleKey backend)⟩

theorem mergeHistory_idem (br : BackendReader) (newHistory : History) :
    ((br.mergeHistory newHistory).mergeHistory newHistory).history.Equiv
      (br.mergeHistory newHistory).history :=
  ⟨fun ruleKey => by simp only [mem_mergeHistory]; tauto,
    fun ruleKey backend => by simp only [find?_mergeHistory, mergeEntry_idem]⟩

/-- Merging two owners' payloads gives the same history in either order, unless they carry tied
lists; merging one payload twice gives the history of merging it once. -/
theorem mergeHistory_order_independent (br : BackendReader) (first second : History)
    (untied : NoTies first second) :
    ((br.mergeHistory first).mergeHistory second).history.Equiv
        ((br.mergeHistory second).mergeHistory first).history ∧
      ((br.mergeHistory first).mergeHistory first).history.Equiv
        (br.mergeHistory first).history :=
  ⟨mergeHistory_comm br first second untied, mergeHistory_idem br first⟩

/-- One rule, one backend, one pair in each history, at time `timestamp`. -/
def singleSample (timestamp : Time) : History :=
  (∅ : History).insert "cpu" ((∅ : RuleHistory).insert "10.0.1.1:10080"
    ⟨[⟨timestamp, ⟨0⟩⟩], [⟨timestamp, ⟨0⟩⟩]⟩)

theorem mergeHistory_order_independent_two_owners :
    NoTies (singleSample 1000) (singleSample 2000) ∧
      (((({} : BackendReader).mergeHistory (singleSample 1000)).mergeHistory
          (singleSample 2000)).history.Equiv
        ((({} : BackendReader).mergeHistory (singleSample 2000)).mergeHistory
          (singleSample 1000)).history ∧
      ((({} : BackendReader).mergeHistory (singleSample 1000)).mergeHistory
          (singleSample 1000)).history.Equiv
        (({} : BackendReader).mergeHistory (singleSample 1000)).history) := by
  have untied : NoTies (singleSample 1000) (singleSample 2000) := by
    intro ruleKey backend left right inFirst inSecond
    by_cases rule : ruleKey = "cpu"
    · by_cases address : backend = "10.0.1.1:10080"
      · subst rule address
        simp only [singleSample, History.find?, AList.lookup_insert, Option.some_bind,
          Option.some.injEq] at inFirst inSecond
        subst inFirst inSecond
        simp [Tied]
      · subst rule
        simp only [singleSample, History.find?, AList.lookup_insert, Option.some_bind,
          AList.lookup_insert_ne address, AList.lookup_empty, reduceCtorEq] at inFirst
    · simp only [singleSample, History.find?, AList.lookup_insert_ne rule, AList.lookup_empty,
        Option.none_bind, reduceCtorEq] at inFirst
  exact ⟨untied, mergeHistory_order_independent {} _ _ untied⟩

end BackendReader

end TiProxy.Metrics
