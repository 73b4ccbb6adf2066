import TiProxy.Proofs.Metrics.TickOrder
import Mathlib.Data.List.Dedup

/-! # The results a follower computes from the owner's payload

A follower does not scrape: `readFromOwner` merges the history the owner marshalled, then
recomputes and merges the values of every backend the payload holds. When the follower's own
step-2 samples of a backend are older than the owner's, `mergeHistory` keeps the owner's step-2
history, so the follower recomputes the owner's value and its entry for the backend becomes the
owner's: the latest step-2 sample as a vector, the whole step-2 history as a matrix. The entry of
a backend after a sequence of merges is the value of the last merge of that backend
(`entry_mergedValue`), which owner and follower share.
-/

namespace TiProxy.Metrics

theorem find?_replaceOrAppend {E : Type} (metric : E → Metric) {backend : String} {entry : E}
    (labelled : instanceOf (metric entry) = backend) (entries : List E) (other : String) :
    (replaceOrAppend metric backend entries entry).find?
        (fun entry => instanceOf (metric entry) = other) =
      if other = backend then some entry
      else entries.find? fun entry => instanceOf (metric entry) = other := by
  split
  · rename_i same
    subst same
    exact find?_replaceOrAppend_self metric other entry labelled entries
  · rename_i distinct
    exact find?_replaceOrAppend_ne metric backend entry labelled distinct entries

/-- Merging a one-entry value makes it the entry of its backend and keeps the other entries. -/
theorem entry_mergeStep {resultType : ValueType} {backend : String} {value : Option Value}
    {new : Value} (fresh : OneEntry resultType backend new)
    (typed : ∀ stored, value = some stored → stored.type = resultType) (other : String) :
    (mergeStep backend value new).bind (Value.entry other) =
      if other = backend then some new else value.bind (Value.entry other) := by
  match new, fresh with
  | .vector [sample], fresh =>
    obtain ⟨rfl, labelled⟩ := fresh
    cases value with
    | none =>
      by_cases same : other = backend <;> simp [mergeStep, Value.entry, labelled, same, eq_comm]
    | some stored =>
      have vector := typed stored rfl
      cases stored <;> simp [Value.type] at vector
      simp only [mergeStep, mergeValue_vector_single, Option.getD_some, Option.some_bind,
        Value.entry, find?_replaceOrAppend Sample.metric labelled]
      split <;> rfl
  | .matrix [stream], fresh =>
    obtain ⟨rfl, labelled⟩ := fresh
    cases value with
    | none =>
      by_cases same : other = backend <;> simp [mergeStep, Value.entry, labelled, same, eq_comm]
    | some stored =>
      have matrix := typed stored rfl
      cases stored <;> simp [Value.type] at matrix
      simp only [mergeStep, mergeValue_matrix_single, Option.getD_some, Option.some_bind,
        Value.entry, find?_replaceOrAppend SampleStream.metric labelled]
      split <;> rfl

section Log

variable {ruleKey : String} {resultType : ValueType}

/-- Merges of one-entry values of the rule's type keep its value typed. -/
theorem mergedValue_typed : ∀ {log : List (String × StrMap Value)} {value : Option Value},
    (∀ merge ∈ log, ∀ new, merge.2.lookup ruleKey = some new → OneEntry resultType merge.1 new) →
    (∀ stored, value = some stored → stored.type = resultType) →
    ∀ stored, mergedValue ruleKey value log = some stored → stored.type = resultType
  | [], _, _, typed => typed
  | merge :: rest, value, oneEntry, typed => by
    rw [mergedValue_cons]
    refine mergedValue_typed (fun merge member => oneEntry merge (.tail _ member)) ?_
    cases found : merge.2.lookup ruleKey with
    | none => exact typed
    | some new => exact mergeStep_typed (oneEntry merge (.head _) new found) typed

/-- The entry of `backend` after the merges `log`: the value of the last merge of `backend` that
held the rule, or else the entry before. -/
theorem entry_mergedValue (backend : String) {value : Option Value}
    (typed : ∀ stored, value = some stored → stored.type = resultType)
    (log : List (String × StrMap Value))
    (oneEntry : ∀ merge ∈ log, ∀ new, merge.2.lookup ruleKey = some new →
      OneEntry resultType merge.1 new) :
    (mergedValue ruleKey value log).bind (Value.entry backend) =
      (lastMerged log ruleKey backend).or (value.bind (Value.entry backend)) := by
  induction log using List.reverseRecOn with
  | nil => rfl
  | append_singleton init merge ih =>
    have initOneEntry := fun merge member => oneEntry merge (List.mem_append_left _ member)
    obtain ⟨other, values⟩ := merge
    rw [mergedValue_append, mergedValue_cons, mergedValue_nil, lastMerged_append_merge]
    cases found : values.lookup ruleKey with
    | none =>
      rw [Option.elim, ih initOneEntry]
      split <;> rfl
    | some new =>
      rw [Option.elim, entry_mergeStep (oneEntry _ (by simp) new found)
        (mergedValue_typed initOneEntry typed), ih initOneEntry]
      by_cases same : backend = other
      · simp [same]
      · simp [same, Ne.symm same]

/-- When every merge of a backend merged the same values, the last one holds their value. -/
theorem lastMerged_of_values (values : String → StrMap Value) (backend : String)
    (log : List (String × StrMap Value)) (logged : ∀ merge ∈ log, merge.2 = values merge.1) :
    lastMerged log ruleKey backend =
      if backend ∈ log.map Prod.fst then (values backend).lookup ruleKey else none := by
  induction log using List.reverseRecOn with
  | nil => rfl
  | append_singleton init merge ih =>
    obtain ⟨other, merged⟩ := merge
    obtain rfl : merged = values other := logged (other, merged) (by simp)
    rw [lastMerged_append_merge,
      ih fun merge member => logged merge (List.mem_append_left _ member)]
    by_cases same : other = backend
    · subst same
      cases (values other).lookup ruleKey <;> simp
    · rw [if_neg same, List.map_append, List.map_singleton]
      simp only [List.mem_append, List.mem_singleton, Ne.symm same, or_false]

end Log

namespace System

/-- The loop of `readFromOwner` after its `mergeHistory`: each backend's `history2Value` and
merge, from a reader whose results are typed. -/
theorem run_recompute (now : String → Nat) : ∀ (backends : List String) (s : System),
    ResultsTyped s.reader → ∃ final, s.run (backends.flatMap fun backend =>
        [.history2Value backend, .mergeQueryResult backend (now backend)]) = some final ∧
      final.reader.history = s.reader.history ∧ final.reader.queryRules = s.reader.queryRules ∧
      ResultsTyped final.reader ∧ ∀ ruleKey, (final.reader.queryResults ruleKey).value =
        mergedValue ruleKey (s.reader.queryResults ruleKey).value
          (backends.map fun backend => (backend, s.reader.history2Value backend))
  | [], s, typed => ⟨s, rfl, rfl, rfl, typed, fun _ => rfl⟩
  | backend :: rest, s, typed => by
    obtain ⟨queryResults, merged, typed', results⟩ :=
      @BackendReader.mergeQueryResult_oneEntry s.reader typed (s.reader.history2Value backend)
        backend (s.reader.oneEntry_history2Value backend) (now backend)
    obtain ⟨final, ran, history, rules, typedFinal, values⟩ := run_recompute now rest
      { pending := Function.update s.pending backend (s.reader.history2Value backend),
        reader := { s.reader with queryResults } } typed'
    refine ⟨final, ?_, history, rules, typedFinal, fun ruleKey => ?_⟩
    · rw [List.flatMap_cons, run_append]
      simp [System.run, System.step, merged, ran]
    · rw [values ruleKey, (results ruleKey).2, List.map_cons, mergedValue_cons]
      rfl

/-- `readFromOwner` never panics on a follower whose results have the types of their rules,
whatever the owner's response, and leaves the results typed. -/
theorem readFromOwner_typed (follower : BackendReader) (typed : ResultsTyped follower)
    (response : Option History) (now : String → Nat) :
    ∃ final, ({ reader := follower } : System).run (readFromOwner response now) = some final ∧
      ResultsTyped final.reader := by
  cases response with
  | none => exact ⟨_, rfl, typed⟩
  | some payload =>
    obtain ⟨final, ran, -, -, typedFinal, -⟩ :=
      run_recompute now (payloadBackends payload) { reader := follower.mergeHistory payload } typed
    exact ⟨final, ran, typedFinal⟩

/-- A follower fetches `a`'s history, then a later history of `a` and `b`: the second fetch
merges into the vector result the first stored. -/
theorem readFromOwner_typed_two_backends :
    ∃ follower final, ({ reader := { queryRules := twoBackends.reader.queryRules } } : System).run
        (readFromOwner (some ((∅ : History).insert "k" ((∅ : RuleHistory).insert "a"
          ⟨[⟨1000, ⟨0⟩⟩], [⟨1000, ⟨0⟩⟩]⟩))) fun _ => 1) = some follower ∧
      (follower.reader.queryResults "k").value.map Value.labels = some ["a"] ∧
      ({ reader := follower.reader } : System).run
        (readFromOwner (some ((∅ : History).insert "k" (((∅ : RuleHistory).insert "a"
          ⟨[⟨2000, ⟨0⟩⟩], [⟨2000, ⟨0⟩⟩]⟩).insert "b" ⟨[⟨2000, ⟨0⟩⟩], [⟨2000, ⟨0⟩⟩]⟩))) fun _ => 2) =
          some final ∧
      ResultsTyped final.reader := by
  obtain ⟨follower, ran, typed⟩ :=
    readFromOwner_typed { queryRules := twoBackends.reader.queryRules }
      (fun _ _ _ _ stored => nomatch stored) (some ((∅ : History).insert "k"
        ((∅ : RuleHistory).insert "a" ⟨[⟨1000, ⟨0⟩⟩], [⟨1000, ⟨0⟩⟩]⟩))) fun _ => 1
  obtain ⟨final, ran', typed'⟩ := readFromOwner_typed follower.reader typed
    (some ((∅ : History).insert "k" (((∅ : RuleHistory).insert "a"
      ⟨[⟨2000, ⟨0⟩⟩], [⟨2000, ⟨0⟩⟩]⟩).insert "b" ⟨[⟨2000, ⟨0⟩⟩], [⟨2000, ⟨0⟩⟩]⟩))) fun _ => 2
  have labels : (({ reader := { queryRules := twoBackends.reader.queryRules } } : System).run
      (readFromOwner (some ((∅ : History).insert "k" ((∅ : RuleHistory).insert "a"
        ⟨[⟨1000, ⟨0⟩⟩], [⟨1000, ⟨0⟩⟩]⟩))) fun _ => 1)).map
        (fun s => (s.reader.queryResults "k").value.map Value.labels) = some (some ["a"]) :=
    rfl
  rw [ran] at labels
  exact ⟨follower, final, ran, Option.some.inj labels, ran', typed'⟩

/-- After a tick, the entry of a worker that merged is its scrape's step-2 value, over the entry
the reader had before the tick. -/
theorem TickState.entry {s0 s : System} {scrape : String → Option (MetricFamilies × Time × Nat)}
    {done : List String} {log : List (String × StrMap Value)} (typed : ResultsTyped s0.reader)
    (holds : TickState s0 scrape done s log) {backend : String}
    (merged : (scrape backend).isSome ∧ 3 ≤ done.count backend) {ruleKey : String}
    {rule : QueryRule} (registered : s0.reader.queryRules.lookup ruleKey = some rule) :
    (s.reader.queryResults ruleKey).value.bind (Value.entry backend) =
      (stepValue rule.resultType backend (s.reader.history.get ruleKey backend).step2History).or
        ((s0.reader.queryResults ruleKey).value.bind (Value.entry backend)) := by
  have member : backend ∈ done := List.count_pos_iff.mp (by omega)
  rw [(holds.results ruleKey).2, entry_mergedValue backend (typed ruleKey rule registered) log
      fun merge inLog new found => ?_,
    lastMerged_of_values (fun backend => (s0.scraped scrape backend).history2Value backend)
      backend log holds.logged, if_pos ((holds.merged backend).mpr merged),
    BackendReader.lookup_history2Value, scraped_queryRules, registered, Option.some_bind]
  · simp only [History.get, holds.cells, member, List.mem_append, true_or, if_true]
  · obtain ⟨rule', registered', fresh⟩ := holds.lookup_log inLog found
    rw [registered, Option.some.injEq] at registered'
    exact registered' ▸ fresh

end System

end TiProxy.Metrics
