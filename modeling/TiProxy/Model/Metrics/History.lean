import TiProxy.Model.GoMap
import TiProxy.Model.Metrics.Sample

/-! # The two-step history of the backend reader

`metric2History` appends one scrape to the histories of one backend, `purgeHistory` drops
expired samples and empty entries, `mergeHistory` takes a peer's history entry by entry, and
`marshalHistory` selects the entries of the scraped backends for the peers. Each loop of these
methods touches only the key it visits, so each gets a lemma saying what it leaves in one
cell `history[ruleKey][backend]`; later proofs use those lemmas and never unfold the loops.
-/

namespace TiProxy.Metrics

/-- `purgeHistory`: the loop finds the first sample whose timestamp plus the retention is after
`now` (nanoseconds), and the copy keeps the suffix from there; no fresh sample leaves nothing. -/
def purgeHistory (history : List SamplePair) (retention now : Int) : List SamplePair :=
  history.dropWhile fun pair => !(pair.timestamp * 1000000 + retention > now)

/-- The choice of `mergeHistory` for one of the two lists: the peer's list replaces the local
one when the local one is empty or the peer's last sample is later. -/
def mergeSteps (current incoming : List SamplePair) : List SamplePair :=
  match current.getLast?, incoming.getLast? with
  | none, _ => incoming
  | some last, some newLast => if newLast.timestamp > last.timestamp then incoming else current
  | some _, none => current

/-- What `mergeHistory` leaves in one cell, from the local and the peer's entries. -/
def mergeEntry : Option BackendHistory → Option BackendHistory → Option BackendHistory
  | none, incoming => incoming
  | some current, none => some current
  | some current, some incoming =>
    some ⟨mergeSteps current.step1History incoming.step1History,
      mergeSteps current.step2History incoming.step2History⟩

/-- The `metricExists` check: every name of the rule is a family of the scrape. -/
def metricExists (mfs : MetricFamilies) (rule : QueryRule) : Bool :=
  rule.names.all fun name => decide (name ∈ mfs)

/-- Steps 1 and 2 of `metric2History` on one backend history: `none` when the iteration
`continue`s before `ruleHistory[backend] = beHistory`. -/
def appendSamples (mfs : MetricFamilies) (now : Time) (rule : QueryRule)
    (beHistory : BackendHistory) : Option BackendHistory :=
  let sampleValue := rule.metric2Value mfs
  if !metricExists mfs rule || sampleValue.isNaN then none else
  let step1History := beHistory.step1History ++ [⟨now, sampleValue⟩]
  let step2Value := rule.range2Value step1History
  if step2Value.isNaN then none
  else some { step1History, step2History := beHistory.step2History ++ [⟨now, step2Value⟩] }

/-- Two Go maps of histories are equal: the same rule keys and the same backend entries,
whatever order the association lists keep them in. -/
def History.Equiv (history other : History) : Prop :=
  (∀ ruleKey, ruleKey ∈ history ↔ ruleKey ∈ other) ∧
    ∀ ruleKey backend, history.find? ruleKey backend = other.find? ruleKey backend

theorem History.Equiv.refl (history : History) : history.Equiv history :=
  ⟨fun _ => Iff.rfl, fun _ _ => rfl⟩

theorem History.Equiv.symm {history other : History} (same : history.Equiv other) :
    other.Equiv history :=
  ⟨fun ruleKey => (same.1 ruleKey).symm, fun ruleKey backend => (same.2 ruleKey backend).symm⟩

theorem History.Equiv.trans {first second third : History} (left : first.Equiv second)
    (right : second.Equiv third) : first.Equiv third :=
  ⟨fun ruleKey => (left.1 ruleKey).trans (right.1 ruleKey),
    fun ruleKey backend => (left.2 ruleKey backend).trans (right.2 ruleKey backend)⟩

namespace BackendReader

/-- One iteration of `metric2History`'s loop over `queryRules`. A rule whose metrics exist and
whose step-1 value is not NaN gets a rule map even when its step-2 value is NaN. -/
def metric2HistoryRule (mfs : MetricFamilies) (backend : String) (now : Time) (history : History)
    (ruleKey : String) (rule : QueryRule) : History :=
  if !metricExists mfs rule || (rule.metric2Value mfs).isNaN then history else
  let ruleHistory := (history.lookup ruleKey).getD ∅
  match appendSamples mfs now rule ((ruleHistory.lookup backend).getD {}) with
  | some beHistory => history.insert ruleKey (ruleHistory.insert backend beHistory)
  | none => history.insert ruleKey ruleHistory

/-- `metric2History`: append the scrape `mfs` of `backend`, read at time `now`, to the history of
every rule. -/
def metric2History (br : BackendReader) (mfs : MetricFamilies) (backend : String) (now : Time) :
    BackendReader :=
  { br with history := br.queryRules.entries.foldl (fun history entry =>
      metric2HistoryRule mfs backend now history entry.1 entry.2) br.history }

/-- The rule map `metric2HistoryRule` leaves under its own key, from the one before. -/
def metric2HistoryCell (mfs : MetricFamilies) (backend : String) (now : Time) (rule : QueryRule)
    (ruleHistory : Option RuleHistory) : Option RuleHistory :=
  if !metricExists mfs rule || (rule.metric2Value mfs).isNaN then ruleHistory else
  let ruleHistory := ruleHistory.getD ∅
  some (match appendSamples mfs now rule ((ruleHistory.lookup backend).getD {}) with
    | some beHistory => ruleHistory.insert backend beHistory
    | none => ruleHistory)

/-- The purged lists of one backend; `none` when both expired and the entry is deleted. -/
def purgeEntry (rule : QueryRule) (now : Int) (backendHistory : BackendHistory) :
    Option BackendHistory :=
  let backendHistory : BackendHistory :=
    ⟨Metrics.purgeHistory backendHistory.step1History rule.retention now,
      Metrics.purgeHistory backendHistory.step2History rule.retention now⟩
  -- the history is expired, maybe the backend is down
  if backendHistory.step1History.isEmpty && backendHistory.step2History.isEmpty then none
  else some backendHistory

/-- The inner loop of `purgeHistory` over the backends of one rule. -/
def purgeRuleHistory (rule : QueryRule) (now : Int) (ruleHistory : RuleHistory) : RuleHistory :=
  ruleHistory.entries.foldl (fun ruleHistory entry =>
    match purgeEntry rule now entry.2 with
    | none => ruleHistory.erase entry.1
    | some backendHistory => ruleHistory.insert entry.1 backendHistory) ruleHistory

/-- `purgeHistory` at `now` (nanoseconds): drop the histories of removed rules and the expired
samples and entries of the others. -/
def purgeHistory (br : BackendReader) (now : Int) : BackendReader :=
  { br with history := br.history.entries.foldl (fun history entry =>
      match br.queryRules.lookup entry.1 with
      | none => history.erase entry.1
      | some rule => history.insert entry.1 (purgeRuleHistory rule now entry.2)) br.history }

/-- The inner loop of `mergeHistory` over the backends of one rule. -/
def mergeRuleHistory (ruleHistory newRuleHistory : RuleHistory) : RuleHistory :=
  newRuleHistory.entries.foldl (fun ruleHistory entry =>
    match ruleHistory.lookup entry.1 with
    | none => ruleHistory.insert entry.1 entry.2
    | some backendHistory =>
      ruleHistory.insert entry.1 ⟨mergeSteps backendHistory.step1History entry.2.step1History,
        mergeSteps backendHistory.step2History entry.2.step2History⟩) ruleHistory

/-- `mergeHistory`: if the history of one backend already exists, choose the latest one. -/
def mergeHistory (br : BackendReader) (newHistory : History) : BackendReader :=
  { br with
    history := (newHistory.entries.foldl (fun history entry =>
      match history.lookup entry.1 with
      | none => history.insert entry.1 entry.2
      | some ruleHistory => history.insert entry.1 (mergeRuleHistory ruleHistory entry.2))
      br.history) }

/-- The inner loop of `marshalHistory`: the entries of one rule for the given backends. -/
def filterRuleHistory (backends : List String) (ruleHistory : RuleHistory) : RuleHistory :=
  ruleHistory.entries.foldl (fun filteredRuleHistory entry =>
    if entry.1 ∈ backends then filteredRuleHistory.insert entry.1 entry.2
    else filteredRuleHistory) ∅

/-- The history `marshalHistory` shares: every rule key, restricted to the given backends. -/
def filterHistory (history : History) (backends : List String) : History :=
  history.entries.foldl (fun filteredHistory entry =>
    filteredHistory.insert entry.1 (filterRuleHistory backends entry.2)) ∅

/-- `marshalHistory`; the JSON encoding is kept decoded, since peers only decode it. -/
def marshalHistory (br : BackendReader) (backends : List String) : BackendReader :=
  { br with marshalledHistory := some (filterHistory br.history backends) }

end BackendReader

@[simp] theorem none_mergeEntry (incoming : Option BackendHistory) :
    mergeEntry none incoming = incoming := rfl

@[simp] theorem mergeEntry_none (current : Option BackendHistory) :
    mergeEntry current none = current := by
  cases current <;> rfl

@[simp] theorem lookup_getD_empty {V : Type} (map : Option (StrMap V)) (key : String) :
    (map.getD ∅).lookup key = map.bind (·.lookup key) := by
  cases map <;> rfl

theorem appendSamples_eq_none_of_skip {mfs : MetricFamilies} {now : Time} {rule : QueryRule}
    (beHistory : BackendHistory)
    (skip : (!metricExists mfs rule || (rule.metric2Value mfs).isNaN) = true) :
    appendSamples mfs now rule beHistory = none := by
  simp only [appendSamples, skip, ↓reduceIte]

namespace BackendReader

section Metric2History

variable {mfs : MetricFamilies} {backend : String} {now : Time}

private theorem lookup_metric2HistoryRule_ne (history : History) (entry : Σ _ : String, QueryRule)
    (other : String) (distinct : other ≠ entry.1) :
    (metric2HistoryRule mfs backend now history entry.1 entry.2).lookup other =
      history.lookup other := by
  unfold metric2HistoryRule
  split
  · rfl
  · dsimp only
    split <;> exact AList.lookup_insert_ne distinct

private theorem lookup_metric2HistoryRule_self (history : History)
    (entry : Σ _ : String, QueryRule) :
    (metric2HistoryRule mfs backend now history entry.1 entry.2).lookup entry.1 =
      metric2HistoryCell mfs backend now entry.2 (history.lookup entry.1) := by
  unfold metric2HistoryRule metric2HistoryCell
  split
  · rfl
  · dsimp only
    split <;> (rename_i found; simp only [AList.lookup_insert, found])

theorem lookup_metric2History (br : BackendReader) (ruleKey : String) :
    (br.metric2History mfs backend now).history.lookup ruleKey =
      (br.queryRules.lookup ruleKey).elim (br.history.lookup ruleKey)
        fun rule => metric2HistoryCell mfs backend now rule (br.history.lookup ruleKey) :=
  foldl_cell _ (fun history key => history.lookup key)
    (fun _ rule cell => metric2HistoryCell mfs backend now rule cell)
    (fun history entry other distinct => lookup_metric2HistoryRule_ne history entry other distinct)
    lookup_metric2HistoryRule_self br.queryRules br.history ruleKey

theorem find?_metric2History (br : BackendReader) (ruleKey other : String) :
    (br.metric2History mfs backend now).history.find? ruleKey other =
      if other = backend then
        ((br.queryRules.lookup ruleKey).bind fun rule =>
          appendSamples mfs now rule (br.history.get ruleKey other)).or
            (br.history.find? ruleKey other)
      else br.history.find? ruleKey other := by
  unfold History.find? History.get History.find?
  rw [lookup_metric2History]
  cases br.queryRules.lookup ruleKey with
  | none => simp
  | some rule =>
    simp only [Option.elim, Option.some_bind, metric2HistoryCell]
    split
    · rename_i skip
      simp [appendSamples_eq_none_of_skip _ skip]
    · by_cases same : other = backend
      · subst same
        simp only [lookup_getD_empty, ↓reduceIte]
        cases appendSamples mfs now rule
          (((br.history.lookup ruleKey).bind (·.lookup other)).getD {}) <;>
          simp [AList.lookup_insert]
      · split <;> simp [same, AList.lookup_insert_ne same]

theorem mem_metric2History (br : BackendReader) (ruleKey : String) :
    ruleKey ∈ (br.metric2History mfs backend now).history ↔ ruleKey ∈ br.history ∨
      ∃ rule, br.queryRules.lookup ruleKey = some rule ∧
        (!metricExists mfs rule || (rule.metric2Value mfs).isNaN) = false := by
  rw [← AList.lookup_isSome, ← AList.lookup_isSome, lookup_metric2History]
  cases br.queryRules.lookup ruleKey with
  | none => simp
  | some rule =>
    simp only [Option.elim, metric2HistoryCell, Option.some.injEq, exists_eq_left']
    split <;> rename_i skip <;> simp [skip]

end Metric2History

theorem lookup_purgeRuleHistory (rule : QueryRule) (now : Int) (ruleHistory : RuleHistory)
    (backend : String) :
    (purgeRuleHistory rule now ruleHistory).lookup backend =
      (ruleHistory.lookup backend).bind (purgeEntry rule now) := by
  refine (foldl_cell _ (fun ruleHistory key => ruleHistory.lookup key)
    (fun _ backendHistory _ => purgeEntry rule now backendHistory) ?_ ?_
    ruleHistory ruleHistory backend).trans ?_
  · intro _ entry other distinct
    dsimp only
    split <;> simp [AList.lookup_erase_ne distinct, AList.lookup_insert_ne distinct]
  · intro _ entry
    dsimp only
    split <;> simp_all [AList.lookup_erase, AList.lookup_insert]
  · cases ruleHistory.lookup backend <;> rfl

theorem lookup_purgeHistory (br : BackendReader) (now : Int) (ruleKey : String) :
    (br.purgeHistory now).history.lookup ruleKey =
      (br.history.lookup ruleKey).bind fun ruleHistory =>
        (br.queryRules.lookup ruleKey).map fun rule => purgeRuleHistory rule now ruleHistory := by
  refine (foldl_cell _ (fun history key => history.lookup key)
    (fun key ruleHistory _ => (br.queryRules.lookup key).map fun rule =>
      purgeRuleHistory rule now ruleHistory) ?_ ?_
    br.history br.history ruleKey).trans ?_
  · intro _ entry other distinct
    dsimp only
    split <;> simp [AList.lookup_erase_ne distinct, AList.lookup_insert_ne distinct]
  · intro _ entry
    dsimp only
    split <;> simp_all [AList.lookup_erase, AList.lookup_insert]
  · cases br.history.lookup ruleKey <;> rfl

theorem find?_purgeHistory (br : BackendReader) (now : Int) (ruleKey backend : String) :
    (br.purgeHistory now).history.find? ruleKey backend =
      (br.history.find? ruleKey backend).bind fun backendHistory =>
        (br.queryRules.lookup ruleKey).bind fun rule => purgeEntry rule now backendHistory := by
  unfold History.find?
  rw [lookup_purgeHistory]
  cases br.history.lookup ruleKey <;> cases br.queryRules.lookup ruleKey <;>
    simp [lookup_purgeRuleHistory, Option.bind_comm]

theorem lookup_mergeRuleHistory (ruleHistory newRuleHistory : RuleHistory) (backend : String) :
    (mergeRuleHistory ruleHistory newRuleHistory).lookup backend =
      mergeEntry (ruleHistory.lookup backend) (newRuleHistory.lookup backend) := by
  refine (foldl_cell _ (fun ruleHistory key => ruleHistory.lookup key)
    (fun _ incoming current => mergeEntry current (some incoming)) ?_ ?_
    newRuleHistory ruleHistory backend).trans ?_
  · intro _ entry other distinct
    dsimp only
    split <;> simp [AList.lookup_insert_ne distinct]
  · intro _ entry
    dsimp only
    split <;> simp_all [AList.lookup_insert, mergeEntry]
  · cases newRuleHistory.lookup backend <;> simp

theorem lookup_mergeHistory (br : BackendReader) (newHistory : History) (ruleKey : String) :
    (br.mergeHistory newHistory).history.lookup ruleKey =
      (newHistory.lookup ruleKey).elim (br.history.lookup ruleKey) fun incoming =>
        some ((br.history.lookup ruleKey).elim incoming fun current =>
          mergeRuleHistory current incoming) := by
  refine foldl_cell _ (fun history key => history.lookup key)
    (fun _ incoming current => some (current.elim incoming fun current =>
      mergeRuleHistory current incoming)) ?_ ?_
    newHistory br.history ruleKey
  · intro _ entry other distinct
    dsimp only
    split <;> simp [AList.lookup_insert_ne distinct]
  · intro _ entry
    dsimp only
    split <;> simp_all [AList.lookup_insert]

theorem find?_mergeHistory (br : BackendReader) (newHistory : History) (ruleKey backend : String) :
    (br.mergeHistory newHistory).history.find? ruleKey backend =
      mergeEntry (br.history.find? ruleKey backend) (newHistory.find? ruleKey backend) := by
  unfold History.find?
  rw [lookup_mergeHistory]
  cases newHistory.lookup ruleKey <;> cases br.history.lookup ruleKey <;>
    simp [lookup_mergeRuleHistory]

theorem find?_filterHistory (history : History) (backends : List String)
    (ruleKey backend : String) :
    (filterHistory history backends).find? ruleKey backend =
      if backend ∈ backends then history.find? ruleKey backend else none := by
  have inner (ruleHistory : RuleHistory) : (filterRuleHistory backends ruleHistory).lookup backend =
      if backend ∈ backends then ruleHistory.lookup backend else none := by
    refine (foldl_cell _ (fun (ruleHistory : RuleHistory) key => ruleHistory.lookup key)
      (fun key backendHistory current => if key ∈ backends then some backendHistory else current)
      ?_ ?_ ruleHistory ∅ backend).trans ?_
    · intro _ entry other distinct
      dsimp only
      split <;> simp [AList.lookup_insert_ne distinct]
    · intro _ entry
      dsimp only
      split <;> simp_all [AList.lookup_insert]
    · cases ruleHistory.lookup backend <;> split <;> rfl
  have outer : (filterHistory history backends).lookup ruleKey =
      (history.lookup ruleKey).map (filterRuleHistory backends) := by
    refine (foldl_cell _ (fun (history : History) key => history.lookup key)
      (fun _ ruleHistory _ => some (filterRuleHistory backends ruleHistory))
      ?_ ?_ history ∅ ruleKey).trans ?_
    · intro _ entry other distinct
      exact AList.lookup_insert_ne distinct
    · intro _ entry
      exact AList.lookup_insert _
    · cases history.lookup ruleKey <;> rfl
  unfold History.find?
  rw [outer]
  cases history.lookup ruleKey <;> simp [inner]

end BackendReader

end TiProxy.Metrics
