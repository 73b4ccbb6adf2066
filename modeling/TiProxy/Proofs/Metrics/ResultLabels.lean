import TiProxy.Model.Metrics.Reader

/-! # The entries of the reader's results

`mergeQueryResult` replaces the entry labelled with its backend or appends one, and nothing else
writes `queryResults`: `purgeHistory` and `RemoveQueryRule` leave it alone. So the entries of a
result are labelled by distinct backends, and the entry of a backend is the value of the latest
merge for that backend whose values held the rule, as long as each rule key keeps its result
type (`Labelled`). A backend whose history was purged keeps its entry. When a key is registered
again with another result type, the next merge of that key asserts the old type on the new value
and panics.
-/

namespace TiProxy.Metrics

/-- A value `history2Value` gives a backend for a rule of type `resultType`: one entry, labelled
with the backend. -/
def OneEntry (resultType : ValueType) (backend : String) : Value → Prop
  | .vector [sample] => resultType = .vector ∧ instanceOf sample.metric = backend
  | .matrix [stream] => resultType = .matrix ∧ instanceOf stream.metric = backend
  | _ => False

/-- The value for `ruleKey` of the latest merge for `backend` whose values held `ruleKey`. -/
def lastMerged (merged : List (String × StrMap Value)) (ruleKey backend : String) :
    Option Value :=
  merged.foldl (fun last merge =>
    if merge.1 = backend then (merge.2.lookup ruleKey).or last else last) none

theorem lastMerged_append_merge (merged : List (String × StrMap Value)) (ruleKey backend other : String)
    (values : StrMap Value) :
    lastMerged (merged ++ [(backend, values)]) ruleKey other =
      if backend = other then (values.lookup ruleKey).or (lastMerged merged ruleKey other)
      else lastMerged merged ruleKey other := by
  simp [lastMerged, List.foldl_append]

private theorem foldl_lastMerged_isSome (ruleKey backend : String) :
    ∀ (merged : List (String × StrMap Value)) (last : Option Value),
      (merged.foldl (fun last merge =>
          if merge.1 = backend then (merge.2.lookup ruleKey).or last else last) last).isSome ↔
        last.isSome ∨ ∃ values, (backend, values) ∈ merged ∧ ruleKey ∈ values
  | [], last => by simp
  | ⟨first, values⟩ :: rest, last => by
    rw [List.foldl_cons, foldl_lastMerged_isSome ruleKey backend rest]
    by_cases same : first = backend
    · subst same
      cases found : values.lookup ruleKey <;>
        simp [found, AList.lookup_isSome.symm, or_assoc, or_left_comm]
    · simp [same, Ne.symm same]

theorem lastMerged_isSome (merged : List (String × StrMap Value)) (ruleKey backend : String) :
    (lastMerged merged ruleKey backend).isSome ↔ ∃ values, (backend, values) ∈ merged ∧ ruleKey ∈ values := by
  simpa using foldl_lastMerged_isSome ruleKey backend merged none

section Entries

variable {E : Type} (metric : E → Metric) {backend : String} {entry : E}

theorem replaceOrAppend_nodup (labelled : instanceOf (metric entry) = backend) {entries : List E}
    (distinct : (entries.map fun entry => instanceOf (metric entry)).Nodup) :
    ((replaceOrAppend metric backend entries entry).map fun entry => instanceOf (metric entry)).Nodup := by
  rw [labels_replaceOrAppend metric backend entry labelled]
  split
  · exact distinct
  · rename_i fresh
    exact List.nodup_append.mpr ⟨distinct, List.nodup_singleton _, fun label old new => by
      simp only [List.mem_singleton] at new
      exact fresh (new ▸ old)⟩

end Entries

theorem stepValue_oneEntry {resultType : ValueType} {backend : String}
    {step2History : List SamplePair} {value : Value}
    (found : stepValue resultType backend step2History = some value) :
    OneEntry resultType backend value := by
  unfold stepValue at found
  split at found <;> cases found <;> simp [OneEntry, *]

/-- Merging a one-entry value into a result of its type succeeds, keeps the labels distinct,
makes the value the entry of its backend, and keeps the entries of the other backends. -/
theorem mergeRuleResult_of_oneEntry {resultType : ValueType} {backend : String} {now : Nat}
    {result : QueryResult} {value : Value} (fresh : OneEntry resultType backend value)
    (stored : ∀ old, result.value = some old → old.type = resultType ∧ old.labels.Nodup) :
    ∃ merged, mergeRuleResult backend now result value =
        some { result with updateTime := now, value := some merged } ∧
      merged.type = resultType ∧ merged.labels.Nodup ∧ merged.entry backend = some value ∧
      ∀ other, other ≠ backend → merged.entry other = result.value.bind (Value.entry other) := by
  match value, fresh with
  | .vector [sample], fresh =>
    obtain ⟨rfl, labelled⟩ := fresh
    cases found : result.value with
    | none =>
      exact ⟨.vector [sample], by simp [mergeRuleResult, found], rfl, by simp [Value.labels],
        by simp [Value.entry, labelled], fun other distinct => by
          simp [Value.entry, labelled, Ne.symm distinct]⟩
    | some old =>
      obtain ⟨typed, distinct⟩ := stored old found
      cases old with
      | vector samples =>
        exact ⟨.vector (replaceOrAppend Sample.metric backend samples sample),
          by simp [mergeRuleResult, found, mergeValue], rfl,
          replaceOrAppend_nodup Sample.metric labelled distinct,
          by simp [Value.entry, find?_replaceOrAppend_self Sample.metric backend sample labelled],
          fun other ne => by
            simp [Value.entry, find?_replaceOrAppend_ne Sample.metric backend sample labelled ne]⟩
      | _ => simp [Value.type] at typed
  | .matrix [stream], fresh =>
    obtain ⟨rfl, labelled⟩ := fresh
    cases found : result.value with
    | none =>
      exact ⟨.matrix [stream], by simp [mergeRuleResult, found], rfl, by simp [Value.labels],
        by simp [Value.entry, labelled], fun other distinct => by
          simp [Value.entry, labelled, Ne.symm distinct]⟩
    | some old =>
      obtain ⟨typed, distinct⟩ := stored old found
      cases old with
      | matrix streams =>
        exact ⟨.matrix (replaceOrAppend SampleStream.metric backend streams stream),
          by simp [mergeRuleResult, found, mergeValue], rfl,
          replaceOrAppend_nodup SampleStream.metric labelled distinct,
          by simp [Value.entry, find?_replaceOrAppend_self SampleStream.metric backend stream labelled],
          fun other ne => by
            simp [Value.entry, find?_replaceOrAppend_ne SampleStream.metric backend stream labelled ne]⟩
      | _ => simp [Value.type] at typed

namespace System

/-- The results of a run whose rule keys keep the result types `typeOf`, after the merges
`merged`. -/
structure Labelled (typeOf : String → ValueType) (s : System)
    (merged : List (String × StrMap Value)) : Prop where
  /-- Every registered rule has the result type of its key. -/
  rules : ∀ ruleKey rule, s.reader.queryRules.lookup ruleKey = some rule →
    rule.resultType = typeOf ruleKey
  /-- A worker holds one entry per rule, labelled with its backend. -/
  pending : ∀ backend ruleKey value, (s.pending backend).lookup ruleKey = some value →
    OneEntry (typeOf ruleKey) backend value
  /-- A stored result has the type of its key and distinctly labelled entries. -/
  stored : ∀ ruleKey value, (s.reader.queryResults ruleKey).value = some value →
    value.type = typeOf ruleKey ∧ value.labels.Nodup
  /-- The entry of a backend is the value of its latest merge that held the key. -/
  entries : ∀ ruleKey backend, (s.reader.queryResults ruleKey).value.bind (Value.entry backend) =
    lastMerged merged ruleKey backend

variable {typeOf : String → ValueType} {s next : System} {merged : List (String × StrMap Value)}

theorem Labelled.fresh : Labelled typeOf {} [] where
  rules ruleKey rule found := by simp at found
  pending backend ruleKey value found := by simp at found
  stored ruleKey value found := by simp at found
  entries ruleKey backend := rfl

/-- A section that changes neither the rules, the results nor the pending values. -/
theorem Labelled.frame (holds : Labelled typeOf s merged)
    (rules : next.reader.queryRules = s.reader.queryRules)
    (results : next.reader.queryResults = s.reader.queryResults)
    (pending : next.pending = s.pending) : Labelled typeOf next (merged ++ []) where
  rules := rules ▸ holds.rules
  pending := pending ▸ holds.pending
  stored := results ▸ holds.stored
  entries := by simpa [results] using holds.entries

theorem Labelled.history2Value (holds : Labelled typeOf s merged) (backend : String) :
    Labelled typeOf
      { s with pending := (Function.update s.pending backend (s.reader.history2Value backend)) }
      (merged ++ []) where
  rules := holds.rules
  pending other ruleKey value found := by
    by_cases same : other = backend
    · subst same
      simp only [Function.update_same, BackendReader.lookup_history2Value,
        Option.bind_eq_some] at found
      obtain ⟨rule, registered, found⟩ := found
      exact holds.rules ruleKey rule registered ▸ stepValue_oneEntry found
    · exact holds.pending other ruleKey value (by simpa [Function.update_noteq same] using found)
  stored := holds.stored
  entries := by simpa using holds.entries

theorem Labelled.mergeQueryResult (holds : Labelled typeOf s merged) (backend : String)
    (now : Nat) :
    ∃ reader, s.reader.mergeQueryResult (s.pending backend) backend now = some reader ∧
      Labelled typeOf { s with reader } (merged ++ [(backend, s.pending backend)]) := by
  have merges : ∀ ruleKey value, (s.pending backend).lookup ruleKey = some value →
      ∃ result, mergeRuleResult backend now (s.reader.queryResults ruleKey) value =
          some { s.reader.queryResults ruleKey with updateTime := now, value := some result } ∧
        result.type = typeOf ruleKey ∧ result.labels.Nodup ∧ result.entry backend = some value ∧
        ∀ other, other ≠ backend → result.entry other =
          (s.reader.queryResults ruleKey).value.bind (Value.entry other) :=
    fun ruleKey value found =>
      mergeRuleResult_of_oneEntry (holds.pending backend ruleKey value found) (holds.stored ruleKey)
  rw [BackendReader.mergeQueryResult_eq, if_pos (List.all_eq_true.mpr fun entry member => by
    obtain ⟨result, merged, -⟩ := merges entry.1 entry.2 (AList.mem_lookup_iff.mpr member)
    simp [merged])]
  refine ⟨_, rfl, holds.rules, holds.pending, fun ruleKey value stored => ?_,
    fun ruleKey other => ?_⟩
  · cases found : (s.pending backend).lookup ruleKey with
    | none => exact holds.stored ruleKey value (by simpa [found] using stored)
    | some new =>
      obtain ⟨result, merged, typed, distinct, -⟩ := merges ruleKey new found
      simp only [found, Option.elim, merged, Option.getD_some, Option.some.injEq] at stored
      exact stored ▸ ⟨typed, distinct⟩
  · rw [lastMerged_append_merge, ← holds.entries]
    cases found : (s.pending backend).lookup ruleKey with
    | none => simp [found]
    | some new =>
      obtain ⟨result, merged, -, -, self, others⟩ := merges ruleKey new found
      simp only [found, Option.elim, merged, Option.getD_some, Option.bind_some]
      by_cases same : backend = other
      · subst same
        simp [self]
      · simp [same, others other (Ne.symm same)]

/-- No section of a run that keeps each key's result type panics, and each keeps `Labelled`. -/
theorem Labelled.step (holds : Labelled typeOf s merged) (sec : Section)
    (stable : ∀ key rule, sec = .addQueryRule key rule → rule.resultType = typeOf key) :
    ∃ next, s.step sec = some next ∧ Labelled typeOf next (merged ++ s.mergeOf sec) := by
  cases sec with
  | addQueryRule key rule =>
    refine ⟨_, rfl, fun ruleKey registered found => ?_, holds.pending, holds.stored,
      by simpa [mergeOf] using holds.entries⟩
    by_cases same : ruleKey = key
    · subst same
      simp only [BackendReader.addQueryRule, AList.lookup_insert, Option.some.injEq] at found
      exact found ▸ stable ruleKey rule rfl
    · exact holds.rules ruleKey registered (by
        simpa [BackendReader.addQueryRule, AList.lookup_insert_ne same] using found)
  | removeQueryRule key =>
    refine ⟨_, rfl, fun ruleKey registered found => ?_, holds.pending, holds.stored,
      by simpa [mergeOf] using holds.entries⟩
    by_cases same : ruleKey = key
    · subst same
      simp [BackendReader.removeQueryRule] at found
    · exact holds.rules ruleKey registered (by
        simpa [BackendReader.removeQueryRule, AList.lookup_erase_ne same] using found)
  | metric2History mfs backend now => exact ⟨_, rfl, holds.frame rfl rfl rfl⟩
  | history2Value backend => exact ⟨_, rfl, holds.history2Value backend⟩
  | mergeQueryResult backend now =>
    obtain ⟨reader, merged, labelled⟩ := holds.mergeQueryResult backend now
    exact ⟨{ s with reader }, by simp [System.step, merged], labelled⟩
  | mergeHistory newHistory => exact ⟨_, rfl, holds.frame rfl rfl rfl⟩
  | purgeHistory now => exact ⟨_, rfl, holds.frame rfl rfl rfl⟩
  | marshalHistory backends => exact ⟨_, rfl, holds.frame rfl rfl rfl⟩

/-- A run of a new reader whose rule keys keep their result types never panics and ends in a
`Labelled` state. -/
theorem Labelled.run (typeOf : String → ValueType) (sections : List Section)
    (stable : ∀ key rule, .addQueryRule key rule ∈ sections → rule.resultType = typeOf key) :
    ∃ final, ({} : System).run sections = some final ∧
      Labelled typeOf final (({} : System).merges sections) := by
  simpa using run_of_invariant (Labelled typeOf)
    (fun sec => ∀ key rule, sec = .addQueryRule key rule → rule.resultType = typeOf key)
    (fun s merged sec allowed holds => holds.step sec allowed) sections {} []
    (fun sec member key rule same => stable key rule (same ▸ member)) Labelled.fresh

theorem mem_labels_iff_entry_isSome (value : Value) (backend : String) :
    backend ∈ value.labels ↔ (value.entry backend).isSome := by
  cases value <;> simp [Value.labels, Value.entry, List.find?_isSome]

/-- Over every run of a new reader whose rule keys keep their result types (rule changes, owner
ticks, follower pulls and purges, interleaved in any way), no merge panics, the entries of
every result have distinct instance labels, and the entry labelled with a backend is the value
of the latest merge for that backend whose values held the rule. -/
theorem results_entries_of_run (typeOf : String → ValueType) (sections : List Section)
    (stable : ∀ key rule, .addQueryRule key rule ∈ sections → rule.resultType = typeOf key) :
    ∃ final, ({} : System).run sections = some final ∧ ∀ ruleKey,
      (((final.reader.queryResults ruleKey).value.map Value.labels).getD []).Nodup ∧
      ∀ backend, (final.reader.queryResults ruleKey).value.bind (Value.entry backend) =
        lastMerged (({} : System).merges sections) ruleKey backend := by
  obtain ⟨final, ran, labelled⟩ := Labelled.run typeOf sections stable
  refine ⟨final, ran, fun ruleKey => ⟨?_, labelled.entries ruleKey⟩⟩
  cases stored : (final.reader.queryResults ruleKey).value with
  | none => exact List.nodup_nil
  | some value => exact (labelled.stored ruleKey value stored).2

/-- A new reader registers one vector rule and merges one scrape of backend `b`. -/
def oneScrape : List Section :=
  [.addQueryRule "k" ⟨["m"], 1000000000, fun _ => ⟨0⟩, fun _ => ⟨0⟩, .vector⟩,
    .metric2History ((∅ : MetricFamilies).insert "m" ⟨[]⟩) "b" 1000, .history2Value "b",
    .mergeQueryResult "b" 1]

/-- A new reader registers one vector rule. Its workers scrape `b` and `a` and merge in the
other order; `b` is scraped and merged again; the purge drops the expired history of `a`; and the
rule is removed. -/
def twoScrapes : List Section :=
  [.addQueryRule "k" ⟨["m"], 1000000000, fun _ => ⟨0⟩, fun _ => ⟨0⟩, .vector⟩,
    .metric2History ((∅ : MetricFamilies).insert "m" ⟨[]⟩) "b" 1000,
    .metric2History ((∅ : MetricFamilies).insert "m" ⟨[]⟩) "a" 1000,
    .history2Value "b", .history2Value "a", .mergeQueryResult "a" 1, .mergeQueryResult "b" 1,
    .metric2History ((∅ : MetricFamilies).insert "m" ⟨[]⟩) "b" 2000, .history2Value "b",
    .mergeQueryResult "b" 2, .purgeHistory 2500000000, .removeQueryRule "k"]

theorem twoScrapes_stable :
    ∀ key rule, .addQueryRule key rule ∈ twoScrapes → rule.resultType = ValueType.vector := by
  intro key rule member
  simp only [twoScrapes, List.mem_cons, Section.addQueryRule.injEq, List.mem_nil_iff, or_false,
    reduceCtorEq] at member
  obtain ⟨-, rfl⟩ := member
  rfl

/-- What `twoScrapes` leaves: no history of `a`, and one entry each for `a` and `b`. -/
theorem run_twoScrapes :
    (({} : System).run twoScrapes).map (fun s => ((s.reader.history.find? "k" "a").isNone,
      (s.reader.queryResults "k").value.map Value.labels)) = some (true, some ["a", "b"]) :=
  rfl

theorem results_entries_of_run_two_scrapes :
    (∀ key rule, .addQueryRule key rule ∈ twoScrapes →
      rule.resultType = (fun _ => ValueType.vector) key) ∧
    ∃ final, ({} : System).run twoScrapes = some final ∧
      (final.reader.queryResults "k").value.map Value.labels = some ["a", "b"] ∧ ∀ ruleKey,
      (((final.reader.queryResults ruleKey).value.map Value.labels).getD []).Nodup ∧
      ∀ backend, (final.reader.queryResults ruleKey).value.bind (Value.entry backend) =
        lastMerged (({} : System).merges twoScrapes) ruleKey backend := by
  obtain ⟨final, ran, entries⟩ :=
    results_entries_of_run (fun _ => .vector) twoScrapes twoScrapes_stable
  have stored := run_twoScrapes
  rw [ran] at stored
  exact ⟨twoScrapes_stable, final, ran, (Prod.mk.inj (Option.some.inj stored)).2, entries⟩

/-- Purging the expired history of a backend leaves its entry in the results. -/
theorem purged_backend_keeps_entry :
    (({} : System).run (oneScrape ++ [.purgeHistory 3000000000])).map
      (fun s => ((s.reader.history.find? "k" "b").isNone,
        ((s.reader.queryResults "k").value.map Value.labels).getD [])) =
      some (true, ["b"]) := by
  decide

/-- Over every run of a new reader whose rule keys keep their result types, the instance labels
of the result of a rule are the backends some merge of which held the rule: neither a purge nor
the removal of the rule takes a label away. -/
theorem result_labels_of_run (typeOf : String → ValueType) (sections : List Section)
    (stable : ∀ key rule, .addQueryRule key rule ∈ sections → rule.resultType = typeOf key) :
    ∃ final, ({} : System).run sections = some final ∧ ∀ ruleKey backend,
      backend ∈ ((final.reader.queryResults ruleKey).value.map Value.labels).getD [] ↔
        ∃ values, (backend, values) ∈ ({} : System).merges sections ∧ ruleKey ∈ values := by
  obtain ⟨final, ran, labelled⟩ := Labelled.run typeOf sections stable
  refine ⟨final, ran, fun ruleKey backend => ?_⟩
  rw [← lastMerged_isSome, ← labelled.entries ruleKey backend]
  cases (final.reader.queryResults ruleKey).value with
  | none => simp
  | some value => exact mem_labels_iff_entry_isSome value backend

theorem result_labels_of_run_two_scrapes :
    (∀ key rule, .addQueryRule key rule ∈ twoScrapes →
      rule.resultType = (fun _ => ValueType.vector) key) ∧
    ∃ final, ({} : System).run twoScrapes = some final ∧
      (final.reader.history.find? "k" "a").isNone ∧ ∀ ruleKey backend,
      backend ∈ ((final.reader.queryResults ruleKey).value.map Value.labels).getD [] ↔
        ∃ values, (backend, values) ∈ ({} : System).merges twoScrapes ∧ ruleKey ∈ values := by
  obtain ⟨final, ran, labels⟩ :=
    result_labels_of_run (fun _ => .vector) twoScrapes twoScrapes_stable
  have stored := run_twoScrapes
  rw [ran] at stored
  exact ⟨twoScrapes_stable, final, ran, (Prod.mk.inj (Option.some.inj stored)).1, labels⟩

/-- A rule key registered again with the matrix type after a vector result was stored for it:
the next merge asserts the stored vector type on a matrix value and panics. -/
theorem merge_after_type_change_panics :
    (({} : System).run (oneScrape ++
        [.removeQueryRule "k", .addQueryRule "k" ⟨["m"], 1000000000, fun _ => ⟨0⟩, fun _ => ⟨0⟩, .matrix⟩,
          .metric2History ((∅ : MetricFamilies).insert "m" ⟨[]⟩) "b" 2000,
          .history2Value "b"])).isSome ∧
    (({} : System).run (oneScrape ++
        [.removeQueryRule "k", .addQueryRule "k" ⟨["m"], 1000000000, fun _ => ⟨0⟩, fun _ => ⟨0⟩, .matrix⟩,
          .metric2History ((∅ : MetricFamilies).insert "m" ⟨[]⟩) "b" 2000,
          .history2Value "b", .mergeQueryResult "b" 2])).isNone := by
  decide

end System

end TiProxy.Metrics
