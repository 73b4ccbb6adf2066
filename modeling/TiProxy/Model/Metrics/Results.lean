import TiProxy.Model.Metrics.History

/-! # Per-rule results of the backend reader

`history2Value` turns the step-2 history of one backend into one value per rule, and
`mergeQueryResult` merges these values into the shared results: for each rule it replaces the
entry labelled with the backend, or appends one. The merge asserts that the new value has the
type of the stored one and is non-empty; a failed assertion is a panic, the `none` of
`mergeQueryResult`. Both loops touch only their own rule key, which `lookup_history2Value` and
`mergeQueryResult_eq` state once.
-/

namespace TiProxy.Metrics

/-- The value `history2Value` gives one rule: the latest step-2 pair as a vector, or the whole
step-2 history as a matrix; nothing for an empty history or another result type. -/
def stepValue (resultType : ValueType) (backend : String) (step2History : List SamplePair) :
    Option Value :=
  match step2History.getLast?, resultType with
  | none, _ => none
  -- vector indicates returning the latest pair
  | some lastPair, .vector =>
    some (.vector [⟨instanceLabels backend, lastPair.value, lastPair.timestamp⟩])
  -- matrix indicates returning the history
  | some _, .matrix => some (.matrix [⟨instanceLabels backend, step2History⟩])
  -- unsupported value type
  | some _, _ => none

/-- The search loop of `mergeQueryResult` and the write after it: replace the first entry
labelled with `backend`, or append the new one. -/
def replaceOrAppend {E : Type} (metric : E → Metric) (backend : String) : List E → E → List E
  | [], entry => [entry]
  | head :: rest, entry =>
    if instanceOf (metric head) = backend then entry :: rest
    else head :: replaceOrAppend metric backend rest entry

/-- The type switch of `mergeQueryResult` on a stored value. `value.(model.Vector)[0]` and
`value.(model.Matrix)[0]` panic unless the new value has the stored type and an element. -/
def mergeValue (backend : String) (stored value : Value) : Option Value :=
  match stored, value with
  | .vector samples, .vector (sample :: _) =>
    some (.vector (replaceOrAppend Sample.metric backend samples sample))
  | .vector _, _ => none
  | .matrix streams, .matrix (stream :: _) =>
    some (.matrix (replaceOrAppend SampleStream.metric backend streams stream))
  | .matrix _, _ => none
  -- unsupported value type
  | other, _ => some other

/-- One iteration of `mergeQueryResult`'s loop, on the result of one rule. -/
def mergeRuleResult (backend : String) (now : Nat) (result : QueryResult) (value : Value) :
    Option QueryResult :=
  match result.value with
  | none => some { result with updateTime := now, value := some value }
  | some stored =>
    (mergeValue backend stored value).map fun merged =>
      { result with updateTime := now, value := some merged }

/-- The instance labels of the entries of a result value. -/
def Value.labels : Value → List String
  | .vector samples => samples.map fun sample => instanceOf sample.metric
  | .matrix streams => streams.map fun stream => instanceOf stream.metric
  | _ => []

/-- The first entry of a result value labelled with `backend`, as a one-entry value. -/
def Value.entry (backend : String) : Value → Option Value
  | .vector samples =>
    (samples.find? fun sample => instanceOf sample.metric = backend).map fun sample =>
      .vector [sample]
  | .matrix streams =>
    (streams.find? fun stream => instanceOf stream.metric = backend).map fun stream =>
      .matrix [stream]
  | _ => none

section ReplaceOrAppend

variable {E : Type} (metric : E → Metric) (backend : String) (entry : E)

theorem labels_replaceOrAppend (labelled : instanceOf (metric entry) = backend) :
    ∀ entries : List E, (replaceOrAppend metric backend entries entry).map
        (fun entry => instanceOf (metric entry)) =
      if backend ∈ entries.map (fun entry => instanceOf (metric entry)) then
        entries.map fun entry => instanceOf (metric entry)
      else entries.map (fun entry => instanceOf (metric entry)) ++ [backend]
  | [] => by simp [replaceOrAppend, labelled]
  | head :: rest => by
    by_cases same : instanceOf (metric head) = backend
    · simp [replaceOrAppend, same, labelled]
    · simp only [replaceOrAppend, same, if_false, List.map_cons,
        labels_replaceOrAppend labelled rest, List.mem_cons, Ne.symm same, false_or]
      split <;> rfl

theorem find?_replaceOrAppend_self (labelled : instanceOf (metric entry) = backend) :
    ∀ entries : List E, (replaceOrAppend metric backend entries entry).find?
      (fun entry => instanceOf (metric entry) = backend) = some entry
  | [] => by simp [replaceOrAppend, labelled]
  | head :: rest => by
    by_cases same : instanceOf (metric head) = backend
    · simp [replaceOrAppend, same, labelled]
    · simp [replaceOrAppend, same, find?_replaceOrAppend_self labelled rest]

theorem find?_replaceOrAppend_ne {other : String} (labelled : instanceOf (metric entry) = backend)
    (distinct : other ≠ backend) :
    ∀ entries : List E, (replaceOrAppend metric backend entries entry).find?
      (fun entry => instanceOf (metric entry) = other) =
        entries.find? fun entry => instanceOf (metric entry) = other
  | [] => by simp [replaceOrAppend, labelled, Ne.symm distinct]
  | head :: rest => by
    by_cases same : instanceOf (metric head) = backend
    · simp [replaceOrAppend, same, labelled, Ne.symm distinct]
    · simp only [replaceOrAppend, same, if_false, List.find?_cons,
        find?_replaceOrAppend_ne labelled distinct rest]

end ReplaceOrAppend

namespace BackendReader

/-- `history2Value`: the results of every rule for one backend. A missing or empty rule map
leaves the backend's step-2 history empty, which the loop skips. -/
def history2Value (br : BackendReader) (backend : String) : StrMap Value :=
  br.queryRules.entries.foldl (fun results entry =>
    match stepValue entry.2.resultType backend (br.history.get entry.1 backend).step2History with
    | some value => results.insert entry.1 value
    | none => results) ∅

/-- `mergeQueryResult` at monotonic time `now`; `none` when an iteration panics. -/
def mergeQueryResult (br : BackendReader) (backendValues : StrMap Value) (backend : String)
    (now : Nat) : Option BackendReader :=
  (backendValues.entries.foldlM (fun queryResults entry =>
      (mergeRuleResult backend now (queryResults entry.1) entry.2).map
        (Function.update queryResults entry.1))
    br.queryResults).map fun queryResults => { br with queryResults }

theorem lookup_history2Value (br : BackendReader) (backend ruleKey : String) :
    (br.history2Value backend).lookup ruleKey =
      (br.queryRules.lookup ruleKey).bind fun rule =>
        stepValue rule.resultType backend (br.history.get ruleKey backend).step2History := by
  refine (foldl_cell _ (fun (results : StrMap Value) key => results.lookup key)
    (fun key rule current =>
      (stepValue rule.resultType backend (br.history.get key backend).step2History).or current)
    ?_ ?_ br.queryRules ∅ ruleKey).trans ?_
  · intro _ entry other distinct
    dsimp only
    split <;> simp [AList.lookup_insert_ne distinct]
  · intro _ entry
    dsimp only
    split <;> simp_all [AList.lookup_insert]
  · cases br.queryRules.lookup ruleKey <;> simp [AList.lookup_empty]

/-- `history2Value` reads only the rules and the backend's own histories. -/
theorem history2Value_congr {br other : BackendReader} {backend : String}
    (rules : br.queryRules = other.queryRules)
    (cells : ∀ ruleKey, br.history.get ruleKey backend = other.history.get ruleKey backend) :
    br.history2Value backend = other.history2Value backend := by
  simp only [history2Value, rules, cells]

/-- The merge either panics at some rule or writes every rule of `backendValues` with its own
merged result and leaves the others. -/
theorem mergeQueryResult_eq (br : BackendReader) (backendValues : StrMap Value)
    (backend : String) (now : Nat) :
    br.mergeQueryResult backendValues backend now =
      if backendValues.entries.all fun entry =>
          (mergeRuleResult backend now (br.queryResults entry.1) entry.2).isSome then
        some { br with
          queryResults := (fun ruleKey =>
            (backendValues.lookup ruleKey).elim (br.queryResults ruleKey) fun value =>
              (mergeRuleResult backend now (br.queryResults ruleKey) value).getD
                (br.queryResults ruleKey)) }
      else none := by
  unfold mergeQueryResult
  rw [foldlM_update (fun _ result value => mergeRuleResult backend now result value)
    backendValues.entries backendValues.nodupKeys]
  split <;> rfl

end BackendReader

end TiProxy.Metrics
