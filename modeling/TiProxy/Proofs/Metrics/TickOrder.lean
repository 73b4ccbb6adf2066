import TiProxy.Proofs.Metrics.ResultLabels

/-! # The order of the workers of one tick

The workers of `readFromBackends` take the mutex in any order the scheduler picks, each running
its `metric2History`, `history2Value` and `mergeQueryResult`. The workers read and write
disjoint cells of the history, and a merge replaces the entry labelled with its own backend or
appends one. So every order ends in the same history, and in the same results up to the order in
which new entries were appended (and the update times). `mergeAll_eq` splits a sequence of merges
into the replacements, which commute, and the appended entries, which are a permutation.
-/

namespace TiProxy.Metrics

section Entries

variable {E : Type} (metric : E → Metric)

/-- Replace the first entry labelled `backend`, if there is one. -/
def replaceFirst (backend : String) (entry : E) : List E → List E
  | [] => []
  | head :: rest =>
    if instanceOf (metric head) = backend then entry :: rest
    else head :: replaceFirst backend entry rest

/-- The entries after replacing or appending each merged entry in turn. -/
def mergeAll (entries : List E) (merges : List (String × E)) : List E :=
  merges.foldl (fun entries merge => replaceOrAppend metric merge.1 entries merge.2) entries

variable {metric}

theorem replaceFirst_of_not_mem {backend : String} (entry : E) {entries : List E}
    (absent : backend ∉ entries.map fun entry => instanceOf (metric entry)) :
    replaceFirst metric backend entry entries = entries := by
  induction entries with
  | nil => rfl
  | cons head rest ih =>
    simp only [List.map_cons, List.mem_cons, not_or] at absent
    simp [replaceFirst, Ne.symm absent.1, ih absent.2]

theorem replaceOrAppend_eq (backend : String) (entry : E) (entries : List E) :
    replaceOrAppend metric backend entries entry =
      if backend ∈ entries.map (fun entry => instanceOf (metric entry)) then
        replaceFirst metric backend entry entries
      else entries ++ [entry] := by
  induction entries with
  | nil => rfl
  | cons head rest ih =>
    by_cases same : instanceOf (metric head) = backend
    · simp [replaceOrAppend, replaceFirst, same]
    · simp only [replaceOrAppend, replaceFirst, same, if_false, ih, List.map_cons, List.mem_cons,
        Ne.symm same, false_or]
      split <;> rfl

theorem labels_replaceFirst {backend : String} {entry : E}
    (labelled : instanceOf (metric entry) = backend) (entries : List E) :
    (replaceFirst metric backend entry entries).map (fun entry => instanceOf (metric entry)) =
      entries.map fun entry => instanceOf (metric entry) := by
  induction entries with
  | nil => rfl
  | cons head rest ih =>
    by_cases same : instanceOf (metric head) = backend
    · simp [replaceFirst, same, labelled]
    · simp [replaceFirst, same, ih]

theorem replaceFirst_comm {backend other : String} {entry entry' : E}
    (labelled : instanceOf (metric entry) = backend)
    (labelled' : instanceOf (metric entry') = other)
    (distinct : backend ≠ other) (entries : List E) :
    replaceFirst metric backend entry (replaceFirst metric other entry' entries) =
      replaceFirst metric other entry' (replaceFirst metric backend entry entries) := by
  induction entries with
  | nil => rfl
  | cons head rest ih =>
    by_cases same : instanceOf (metric head) = backend
    · have : instanceOf (metric head) ≠ other := same ▸ distinct
      simp [replaceFirst, same, this, labelled, distinct]
    · by_cases same' : instanceOf (metric head) = other
      · simp [replaceFirst, same', labelled', Ne.symm distinct]
      · simp [replaceFirst, same, same', ih]

theorem replaceFirst_append_single {backend : String} {entry last : E}
    (other : instanceOf (metric last) ≠ backend) (entries : List E) :
    replaceFirst metric backend entry (entries ++ [last]) =
      replaceFirst metric backend entry entries ++ [last] := by
  induction entries with
  | nil => simp [replaceFirst, other]
  | cons head rest ih =>
    by_cases same : instanceOf (metric head) = backend <;> simp [replaceFirst, same, ih]

variable (metric) in
/-- Merges of distinct backends, each of an entry labelled with its own backend. -/
def DistinctMerges (merges : List (String × E)) : Prop :=
  (merges.map Prod.fst).Nodup ∧ ∀ merge ∈ merges, instanceOf (metric merge.2) = merge.1

theorem DistinctMerges.tail {merge : String × E} {merges : List (String × E)}
    (distinct : DistinctMerges metric (merge :: merges)) :
    DistinctMerges metric merges ∧ instanceOf (metric merge.2) = merge.1 ∧
      ∀ other ∈ merges, other.1 ≠ merge.1 := by
  obtain ⟨nodup, labelled⟩ := distinct
  simp only [List.map_cons, List.nodup_cons, List.mem_map] at nodup
  exact ⟨⟨nodup.2, fun other member => labelled other (.tail _ member)⟩, labelled merge (.head _),
    fun other member same => nodup.1 ⟨other, member, same⟩⟩

private theorem foldl_replaceFirst_append_single {last : E} :
    ∀ (merges : List (String × E)) (entries : List E),
      (∀ merge ∈ merges, instanceOf (metric last) ≠ merge.1) →
      merges.foldl (fun entries merge => replaceFirst metric merge.1 merge.2 entries)
          (entries ++ [last]) =
        merges.foldl (fun entries merge => replaceFirst metric merge.1 merge.2 entries) entries ++
          [last]
  | [], _, _ => rfl
  | merge :: rest, entries, other => by
    simp only [List.foldl_cons]
    rw [replaceFirst_append_single (other merge (.head _)),
      foldl_replaceFirst_append_single rest _ fun merge member => other merge (.tail _ member)]

/-- A sequence of merges of distinct backends replaces the entries of the backends already
present and appends the others, in merge order. -/
theorem mergeAll_eq : ∀ (merges : List (String × E)) (entries : List E),
    DistinctMerges metric merges →
    mergeAll metric entries merges =
      merges.foldl (fun entries merge => replaceFirst metric merge.1 merge.2 entries) entries ++
        (merges.filter fun merge =>
          merge.1 ∉ entries.map fun entry => instanceOf (metric entry)).map Prod.snd
  | [], entries, _ => by simp [mergeAll]
  | ⟨backend, entry⟩ :: rest, entries, distinct => by
    obtain ⟨restDistinct, labelled, others⟩ := distinct.tail
    show mergeAll metric (replaceOrAppend metric backend entries entry) rest = _
    rw [replaceOrAppend_eq]
    split
    · rename_i present
      rw [mergeAll_eq rest _ restDistinct, labels_replaceFirst labelled,
        List.filter_cons_of_neg (by simpa using present)]
      rfl
    · rename_i absent
      rw [mergeAll_eq rest _ restDistinct, foldl_replaceFirst_append_single rest entries
        fun merge member same => others merge member (labelled ▸ same.symm)]
      have kept : (rest.filter fun merge => merge.1 ∉ (entries ++ [entry]).map
          fun entry => instanceOf (metric entry)) =
          rest.filter fun merge => merge.1 ∉ entries.map fun entry => instanceOf (metric entry) :=
        List.filter_congr fun merge member => decide_eq_decide.mpr (by
          simp [labelled, others merge member])
      rw [List.filter_cons_of_pos (by simpa using absent), List.foldl_cons,
        replaceFirst_of_not_mem entry absent, kept]
      simp

/-- Merges of distinct backends in two orders leave the same entries up to order. -/
theorem mergeAll_perm {merges merges' : List (String × E)} (perm : merges.Perm merges')
    (distinct : DistinctMerges metric merges) (entries : List E) :
    (mergeAll metric entries merges).Perm (mergeAll metric entries merges') := by
  have distinct' : DistinctMerges metric merges' :=
    ⟨(perm.map Prod.fst).nodup_iff.mp distinct.1,
      fun merge member => distinct.2 merge (perm.mem_iff.mpr member)⟩
  rw [mergeAll_eq merges entries distinct, mergeAll_eq merges' entries distinct']
  refine List.Perm.append (.of_eq (perm.foldl_eq' (fun first member second member' rest => ?_) _))
    ((perm.filter _).map _)
  by_cases same : first = second
  · rw [same]
  · have distinctKeys : first.1 ≠ second.1 := fun keys =>
      same (List.inj_on_of_nodup_map distinct.1 member member' keys)
    exact replaceFirst_comm (distinct.2 second member') (distinct.2 first member)
      (Ne.symm distinctKeys) _

end Entries

/-- One merge of `mergeQueryResult` on the value of a rule: the first value is stored, a later
one replaced or appended. -/
def mergeStep (backend : String) (value : Option Value) (new : Value) : Option Value :=
  match value with
  | none => some new
  | some stored => (mergeValue backend stored new).getD stored

/-- What the merges `log` leave in the value of `ruleKey`, from `value`. -/
def mergedValue (ruleKey : String) (value : Option Value) (log : List (String × StrMap Value)) :
    Option Value :=
  log.foldl (fun value merge =>
    match merge.2.lookup ruleKey with
    | none => value
    | some new => mergeStep merge.1 value new) value

@[simp] theorem mergedValue_nil (ruleKey : String) (value : Option Value) :
    mergedValue ruleKey value [] = value := rfl

theorem mergedValue_cons (ruleKey : String) (value : Option Value) (merge : String × StrMap Value)
    (rest : List (String × StrMap Value)) :
    mergedValue ruleKey value (merge :: rest) =
      mergedValue ruleKey ((merge.2.lookup ruleKey).elim value (mergeStep merge.1 value)) rest := by
  simp only [mergedValue, List.foldl_cons]
  cases merge.2.lookup ruleKey <;> rfl

theorem mergedValue_append (ruleKey : String) (value : Option Value)
    (log more : List (String × StrMap Value)) :
    mergedValue ruleKey value (log ++ more) =
      mergedValue ruleKey (mergedValue ruleKey value log) more :=
  List.foldl_append _ _ _ _

/-- Two values of the same type whose entries differ at most in order. -/
inductive Value.SameEntries : Value → Value → Prop
  | vector {samples others : List Sample} : samples.Perm others →
    Value.SameEntries (.vector samples) (.vector others)
  | matrix {streams others : List SampleStream} : streams.Perm others →
    Value.SameEntries (.matrix streams) (.matrix others)
  | refl (value : Value) : Value.SameEntries value value

/-- Two results that differ at most in the order of their entries and in `UpdateTime`. -/
def QueryResult.SameEntries (result other : QueryResult) : Prop :=
  result.err = other.err ∧ Option.Rel Value.SameEntries result.value other.value

theorem OneEntry.type {resultType : ValueType} {backend : String} {new : Value}
    (fresh : OneEntry resultType backend new) : new.type = resultType := by
  unfold OneEntry at fresh
  split at fresh
  · exact fresh.1.symm
  · exact fresh.1.symm
  · exact fresh.elim

/-- A one-entry value merges into a stored value of its type without a panic. -/
theorem mergeValue_of_oneEntry {resultType : ValueType} {backend : String} {stored new : Value}
    (fresh : OneEntry resultType backend new) (typed : stored.type = resultType) :
    ∃ merged, mergeValue backend stored new = some merged ∧ merged.type = resultType := by
  match new, fresh with
  | .vector [sample], fresh =>
    obtain ⟨rfl, -⟩ := fresh
    cases stored <;> simp [Value.type] at typed
    exact ⟨_, rfl, rfl⟩
  | .matrix [stream], fresh =>
    obtain ⟨rfl, -⟩ := fresh
    cases stored <;> simp [Value.type] at typed
    exact ⟨_, rfl, rfl⟩

theorem mergeStep_typed {resultType : ValueType} {backend : String} {value : Option Value}
    {new : Value} (fresh : OneEntry resultType backend new)
    (typed : ∀ stored, value = some stored → stored.type = resultType) :
    ∀ merged, mergeStep backend value new = some merged → merged.type = resultType := by
  intro merged stepped
  cases value with
  | none =>
    cases stepped
    exact fresh.type
  | some stored =>
    obtain ⟨merged', mergedTo, mergedType⟩ := mergeValue_of_oneEntry fresh (typed stored rfl)
    simp only [mergeStep, mergedTo, Option.getD_some, Option.some.injEq] at stepped
    exact stepped ▸ mergedType

/-- Merging a one-entry value into a result of its type succeeds with `mergeStep`. -/
theorem mergeRuleResult_eq_mergeStep {resultType : ValueType} {backend : String} {now : Nat}
    {result : QueryResult} {new : Value} (fresh : OneEntry resultType backend new)
    (typed : ∀ old, result.value = some old → old.type = resultType) :
    mergeRuleResult backend now result new =
      some { result with updateTime := now, value := mergeStep backend result.value new } := by
  unfold mergeRuleResult mergeStep
  cases found : result.value with
  | none => rfl
  | some stored =>
    obtain ⟨merged, mergedTo, -⟩ := mergeValue_of_oneEntry fresh (typed stored found)
    simp [mergedTo]

section Wrapped

variable {E : Type} {metric : E → Metric} {wrap : List E → Value}
  (merges : ∀ backend entries entry, mergeValue backend (wrap entries) (wrap [entry]) =
    some (wrap (replaceOrAppend metric backend entries entry)))

/-- The merges of a log into one rule whose values are all one-entry values of one type. -/
def entryMerges (unwrap : Value → Option E) (ruleKey : String)
    (log : List (String × StrMap Value)) : List (String × E) :=
  log.filterMap fun merge => ((merge.2.lookup ruleKey).bind unwrap).map (merge.1, ·)

variable {unwrap : Value → Option E} (unwrapped : ∀ entry, unwrap (wrap [entry]) = some entry)
  {ruleKey : String}

theorem entryMerges_cons (merge : String × StrMap Value) (rest : List (String × StrMap Value)) :
    entryMerges unwrap ruleKey (merge :: rest) =
      (((merge.2.lookup ruleKey).bind unwrap).map (merge.1, ·)).toList ++
        entryMerges unwrap ruleKey rest := by
  simp only [entryMerges, List.filterMap_cons]
  cases ((merge.2.lookup ruleKey).bind unwrap).map (merge.1, ·) <;> rfl

include merges unwrapped in
theorem mergedValue_wrap : ∀ (log : List (String × StrMap Value)) (entries : List E),
    (∀ merge ∈ log, ∀ new, merge.2.lookup ruleKey = some new → ∃ entry, new = wrap [entry]) →
    mergedValue ruleKey (some (wrap entries)) log =
      some (wrap (mergeAll metric entries (entryMerges unwrap ruleKey log)))
  | [], entries, _ => rfl
  | merge :: rest, entries, wrapped => by
    have restWrapped := fun merge member => wrapped merge (.tail _ member)
    rw [mergedValue_cons, entryMerges_cons]
    cases found : merge.2.lookup ruleKey with
    | none => simpa using mergedValue_wrap rest entries restWrapped
    | some new =>
      obtain ⟨entry, rfl⟩ := wrapped merge (.head _) new found
      simpa [mergeStep, merges, unwrapped, mergeAll] using
        mergedValue_wrap rest (replaceOrAppend metric merge.1 entries entry) restWrapped

include merges unwrapped in
theorem mergedValue_none_wrap : ∀ (log : List (String × StrMap Value)),
    (∀ merge ∈ log, ∀ new, merge.2.lookup ruleKey = some new → ∃ entry, new = wrap [entry]) →
    mergedValue ruleKey none log =
      if (entryMerges unwrap ruleKey log).isEmpty then none
      else some (wrap (mergeAll metric [] (entryMerges unwrap ruleKey log)))
  | [], _ => rfl
  | merge :: rest, wrapped => by
    have restWrapped := fun merge member => wrapped merge (.tail _ member)
    rw [mergedValue_cons, entryMerges_cons]
    cases found : merge.2.lookup ruleKey with
    | none => simpa using mergedValue_none_wrap rest restWrapped
    | some new =>
      obtain ⟨entry, rfl⟩ := wrapped merge (.head _) new found
      simpa [mergeStep, unwrapped, mergeAll, replaceOrAppend] using
        mergedValue_wrap merges unwrapped rest [entry] restWrapped

theorem entryMerges_fst_sublist : ∀ log : List (String × StrMap Value),
    ((entryMerges unwrap ruleKey log).map Prod.fst).Sublist (log.map Prod.fst)
  | [] => .slnil
  | merge :: rest => by
    rw [entryMerges_cons]
    cases (merge.2.lookup ruleKey).bind unwrap with
    | none => simpa using (entryMerges_fst_sublist rest).cons merge.1
    | some entry => simpa using (entryMerges_fst_sublist rest).cons₂ merge.1

include merges unwrapped in
/-- Merges of one-entry values of one type for distinct backends, in two orders, leave values
with the same entries. -/
theorem mergedValue_perm_wrap {log log' : List (String × StrMap Value)} (perm : log.Perm log')
    (distinct : (log.map Prod.fst).Nodup)
    (wrapped : ∀ merge ∈ log, ∀ new, merge.2.lookup ruleKey = some new →
      ∃ entry, new = wrap [entry] ∧ instanceOf (metric entry) = merge.1)
    (same : ∀ {entries entries' : List E}, entries.Perm entries' →
      Value.SameEntries (wrap entries) (wrap entries'))
    {value : Option Value}
    (typed : ∀ stored, value = some stored → ∃ entries, stored = wrap entries) :
    Option.Rel Value.SameEntries (mergedValue ruleKey value log)
      (mergedValue ruleKey value log') := by
  have shape : ∀ {log : List (String × StrMap Value)}, log.Perm log' →
      ∀ merge ∈ log, ∀ new, merge.2.lookup ruleKey = some new → ∃ entry, new = wrap [entry] :=
    fun {log} perm' merge member new found => by
      obtain ⟨entry, rfl, -⟩ := wrapped merge ((perm'.trans perm.symm).subset member) new found
      exact ⟨entry, rfl⟩
  have entriesPerm : (entryMerges unwrap ruleKey log).Perm (entryMerges unwrap ruleKey log') :=
    perm.filterMap _
  have distinctMerges : DistinctMerges metric (entryMerges unwrap ruleKey log) := by
    refine ⟨(entryMerges_fst_sublist log).nodup distinct, fun ⟨backend, entry⟩ member => ?_⟩
    obtain ⟨merge, inLog, found⟩ := List.mem_filterMap.mp member
    obtain ⟨unwrappedEntry, unwrapsTo, pair⟩ := Option.map_eq_some'.mp found
    obtain ⟨rfl, rfl⟩ := Prod.mk.inj pair
    obtain ⟨new, looked, unwrapsTo⟩ := Option.bind_eq_some.mp unwrapsTo
    obtain ⟨entry', rfl, labelled⟩ := wrapped merge inLog new looked
    rw [unwrapped, Option.some.injEq] at unwrapsTo
    exact unwrapsTo ▸ labelled
  cases value with
  | none =>
    rw [mergedValue_none_wrap merges unwrapped log (shape perm),
      mergedValue_none_wrap merges unwrapped log' (shape .rfl)]
    by_cases empty : entryMerges unwrap ruleKey log = []
    · have empty' : entryMerges unwrap ruleKey log' = [] := (empty ▸ entriesPerm).nil_eq.symm
      simpa [empty, empty'] using Option.Rel.none
    · have empty' : entryMerges unwrap ruleKey log' ≠ [] := fun nil =>
        empty (nil ▸ entriesPerm).eq_nil
      simpa [List.isEmpty_iff, empty, empty'] using
        Option.Rel.some (same (mergeAll_perm entriesPerm distinctMerges []))
  | some stored =>
    obtain ⟨entries, rfl⟩ := typed stored rfl
    rw [mergedValue_wrap merges unwrapped log entries (shape perm),
      mergedValue_wrap merges unwrapped log' entries (shape .rfl)]
    exact .some (same (mergeAll_perm entriesPerm distinctMerges entries))

end Wrapped

theorem OneEntry.of_vector {backend : String} {new : Value} (fresh : OneEntry .vector backend new) :
    ∃ sample, new = .vector [sample] ∧ instanceOf sample.metric = backend := by
  unfold OneEntry at fresh
  split at fresh
  · exact ⟨_, rfl, fresh.2⟩
  · cases fresh.1
  · exact fresh.elim

theorem OneEntry.of_matrix {backend : String} {new : Value} (fresh : OneEntry .matrix backend new) :
    ∃ stream, new = .matrix [stream] ∧ instanceOf stream.metric = backend := by
  unfold OneEntry at fresh
  split at fresh
  · cases fresh.1
  · exact ⟨_, rfl, fresh.2⟩
  · exact fresh.elim

theorem OneEntry.resultType {resultType : ValueType} {backend : String} {new : Value}
    (fresh : OneEntry resultType backend new) : resultType = .vector ∨ resultType = .matrix := by
  unfold OneEntry at fresh
  split at fresh
  · exact .inl fresh.1
  · exact .inr fresh.1
  · exact fresh.elim

theorem mergedValue_of_lookup_none {ruleKey : String} :
    ∀ (log : List (String × StrMap Value)) (value : Option Value),
      (∀ merge ∈ log, merge.2.lookup ruleKey = none) → mergedValue ruleKey value log = value
  | [], _, _ => rfl
  | merge :: rest, value, absent => by
    rw [mergedValue_cons, absent merge (.head _)]
    exact mergedValue_of_lookup_none rest value fun merge member => absent merge (.tail _ member)

/-- The sample of a one-sample vector. -/
def Value.vectorSample : Value → Option Sample
  | .vector [sample] => some sample
  | _ => none

/-- The stream of a one-stream matrix. -/
def Value.matrixStream : Value → Option SampleStream
  | .matrix [stream] => some stream
  | _ => none

theorem mergeValue_vector_single (backend : String) (samples : List Sample) (sample : Sample) :
    mergeValue backend (.vector samples) (.vector [sample]) =
      some (.vector (replaceOrAppend Sample.metric backend samples sample)) := rfl

theorem mergeValue_matrix_single (backend : String) (streams : List SampleStream)
    (stream : SampleStream) :
    mergeValue backend (.matrix streams) (.matrix [stream]) =
      some (.matrix (replaceOrAppend SampleStream.metric backend streams stream)) := rfl

theorem vectorSample_vector (sample : Sample) :
    Value.vectorSample (.vector [sample]) = some sample :=
  rfl

theorem matrixStream_matrix (stream : SampleStream) :
    Value.matrixStream (.matrix [stream]) = some stream :=
  rfl

/-- Merges of one-entry values of the rule's result type for distinct backends, in two orders,
leave values with the same entries. -/
theorem mergedValue_perm {ruleKey : String} {resultType : ValueType}
    {log log' : List (String × StrMap Value)} (perm : log.Perm log')
    (distinct : (log.map Prod.fst).Nodup)
    (oneEntry : ∀ merge ∈ log, ∀ new, merge.2.lookup ruleKey = some new →
      OneEntry resultType merge.1 new)
    {value : Option Value} (typed : ∀ stored, value = some stored → stored.type = resultType) :
    Option.Rel Value.SameEntries (mergedValue ruleKey value log)
      (mergedValue ruleKey value log') := by
  by_cases kind : resultType = .vector ∨ resultType = .matrix
  · rcases kind with rfl | rfl
    · refine mergedValue_perm_wrap mergeValue_vector_single vectorSample_vector perm distinct
        (fun merge member new found => (oneEntry merge member new found).of_vector)
        (fun same => .vector same) fun stored found => ?_
      have vector := typed stored found
      cases stored <;> simp [Value.type] at vector
      exact ⟨_, rfl⟩
    · refine mergedValue_perm_wrap mergeValue_matrix_single matrixStream_matrix perm distinct
        (fun merge member new found => (oneEntry merge member new found).of_matrix)
        (fun same => .matrix same) fun stored found => ?_
      have matrix := typed stored found
      cases stored <;> simp [Value.type] at matrix
      exact ⟨_, rfl⟩
  · have absent : ∀ log : List (String × StrMap Value), log.Perm log' →
        ∀ merge ∈ log, merge.2.lookup ruleKey = none := fun log perm' merge member => by
      cases found : merge.2.lookup ruleKey with
      | none => rfl
      | some new =>
        exact (kind
          (oneEntry merge ((perm'.trans perm.symm).subset member) new found).resultType).elim
    rw [mergedValue_of_lookup_none log value (absent log perm),
      mergedValue_of_lookup_none log' value (absent log' .rfl)]
    cases value with
    | none => exact .none
    | some value => exact .some (.refl value)

/-- A schedule of the workers of one tick over the addresses `addrs`: each worker holds the
mutex three times, and no other worker is scheduled. -/
def TickSchedule (addrs schedule : List String) : Prop :=
  (∀ backend ∈ addrs, schedule.count backend = 3) ∧ ∀ backend ∈ schedule, backend ∈ addrs

instance (addrs schedule : List String) : Decidable (TickSchedule addrs schedule) :=
  inferInstanceAs (Decidable ((∀ backend ∈ addrs, schedule.count backend = 3) ∧
    ∀ backend ∈ schedule, backend ∈ addrs))

theorem TickSchedule.mem_iff {addrs schedule : List String} (valid : TickSchedule addrs schedule)
    (backend : String) : backend ∈ schedule ↔ backend ∈ addrs :=
  ⟨valid.2 backend, fun member => List.count_pos_iff.mp (by rw [valid.1 backend member]; omega)⟩

theorem TickSchedule.finished_iff {addrs schedule : List String}
    (valid : TickSchedule addrs schedule) (backend : String) :
    3 ≤ schedule.count backend ↔ backend ∈ addrs := by
  by_cases member : backend ∈ addrs
  · simp [valid.1 backend member, member]
  · rw [List.count_eq_zero.mpr (mt (valid.mem_iff backend).mp member)]
    simp [member]

private theorem mem_flatMap_triple {addrs : List String} {backend : String} :
    backend ∈ addrs.flatMap (fun backend => [backend, backend, backend]) ↔ backend ∈ addrs := by
  simp

/-- The workers of distinct addresses one after another, in address order. -/
theorem tickSchedule_sequential {addrs : List String} (distinct : addrs.Nodup) :
    TickSchedule addrs (addrs.flatMap fun backend => [backend, backend, backend]) := by
  refine ⟨fun backend member => ?_, fun backend => mem_flatMap_triple.mp⟩
  induction addrs with
  | nil => cases member
  | cons head rest ih =>
    obtain ⟨fresh, distinct⟩ := List.nodup_cons.mp distinct
    rw [List.flatMap_cons, List.count_append]
    rcases List.mem_cons.mp member with rfl | member
    · rw [List.count_eq_zero.mpr (mt mem_flatMap_triple.mp fresh)]
      simp
    · have other : backend ≠ head := fun same => fresh (same ▸ member)
      simp [ih distinct member, other]

/-- Every stored result has the result type of the rule registered under its key. -/
def ResultsTyped (reader : BackendReader) : Prop :=
  ∀ ruleKey rule, reader.queryRules.lookup ruleKey = some rule →
    ∀ value, (reader.queryResults ruleKey).value = some value → value.type = rule.resultType

namespace BackendReader

/-- Every value of `history2Value` is one entry of its rule's type, labelled with the backend. -/
theorem oneEntry_history2Value (br : BackendReader) (backend : String) {ruleKey : String}
    {new : Value} (found : (br.history2Value backend).lookup ruleKey = some new) :
    ∃ rule, br.queryRules.lookup ruleKey = some rule ∧ OneEntry rule.resultType backend new := by
  rw [lookup_history2Value] at found
  obtain ⟨rule, registered, stepped⟩ := Option.bind_eq_some.mp found
  exact ⟨rule, registered, stepValue_oneEntry stepped⟩

/-- Merging one-entry values of the rules' types into typed results does not panic: each rule's
value is merged with `mergeStep`, and the results stay typed. -/
theorem mergeQueryResult_oneEntry {br : BackendReader} (typed : ResultsTyped br)
    {values : StrMap Value} {backend : String}
    (oneEntry : ∀ {ruleKey new}, values.lookup ruleKey = some new →
      ∃ rule, br.queryRules.lookup ruleKey = some rule ∧ OneEntry rule.resultType backend new)
    (now : Nat) :
    ∃ queryResults, br.mergeQueryResult values backend now = some { br with queryResults } ∧
      ResultsTyped { br with queryResults } ∧
      ∀ ruleKey, (queryResults ruleKey).err = (br.queryResults ruleKey).err ∧
        (queryResults ruleKey).value = (values.lookup ruleKey).elim (br.queryResults ruleKey).value
          (mergeStep backend (br.queryResults ruleKey).value) := by
  have merges : ∀ {ruleKey new}, values.lookup ruleKey = some new → ∃ rule,
      br.queryRules.lookup ruleKey = some rule ∧ OneEntry rule.resultType backend new ∧
      mergeRuleResult backend now (br.queryResults ruleKey) new =
        some { br.queryResults ruleKey with
          updateTime := now, value := mergeStep backend (br.queryResults ruleKey).value new } :=
    fun found => by
      obtain ⟨rule, registered, fresh⟩ := oneEntry found
      exact ⟨rule, registered, fresh, mergeRuleResult_eq_mergeStep fresh (typed _ rule registered)⟩
  rw [mergeQueryResult_eq, if_pos (List.all_eq_true.mpr fun entry member => by
    obtain ⟨_, -, -, merged⟩ := merges (AList.mem_lookup_iff.mpr member)
    simp [merged])]
  refine ⟨_, rfl, fun ruleKey rule registered value stored => ?_, fun ruleKey => ?_⟩
  · dsimp only at stored
    cases found : values.lookup ruleKey with
    | none =>
      rw [found] at stored
      exact typed ruleKey rule registered value stored
    | some new =>
      obtain ⟨rule', registered', fresh, merged⟩ := merges found
      rw [found, Option.elim, merged, Option.getD_some] at stored
      rw [Option.some.inj (registered.symm.trans registered')]
      exact mergeStep_typed fresh (typed ruleKey rule' registered') value stored
  · cases found : values.lookup ruleKey with
    | none => exact ⟨rfl, rfl⟩
    | some new =>
      obtain ⟨-, -, -, merged⟩ := merges found
      simp [merged]

end BackendReader

namespace System

/-- The reader of `s` after the scrape of `backend` alone. -/
def scraped (s : System) (scrape : String → Option (MetricFamilies × Time × Nat))
    (backend : String) : BackendReader :=
  match scrape backend with
  | some result => s.reader.metric2History result.1 backend result.2.1
  | none => s.reader

theorem scraped_queryRules (s : System) (scrape : String → Option (MetricFamilies × Time × Nat))
    (backend : String) : (s.scraped scrape backend).queryRules = s.reader.queryRules := by
  unfold scraped
  split <;> rfl

/-- The state of a tick from `s0` after the workers' sections scheduled in `done`. -/
structure TickState (s0 : System) (scrape : String → Option (MetricFamilies × Time × Nat))
    (done : List String) (s : System) (log : List (String × StrMap Value)) : Prop where
  rules : s.reader.queryRules = s0.reader.queryRules
  /-- A worker's `metric2History` wrote only the histories of its own backend. -/
  cells : ∀ ruleKey backend, s.reader.history.find? ruleKey backend =
    (if backend ∈ done then s0.scraped scrape backend else s0.reader).history.find? ruleKey
      backend
  keys : ∀ ruleKey, ruleKey ∈ s.reader.history ↔
    ruleKey ∈ s0.reader.history ∨ ∃ backend ∈ done, ruleKey ∈ (s0.scraped scrape backend).history
  /-- A worker past its `history2Value` holds the values of its own scrape. -/
  pending : ∀ backend, (scrape backend).isSome → 2 ≤ done.count backend →
    s.pending backend = (s0.scraped scrape backend).history2Value backend
  typed : ResultsTyped s.reader
  /-- The results are those of `s0` with the merges of `log`. -/
  results : ∀ ruleKey,
    (s.reader.queryResults ruleKey).err = (s0.reader.queryResults ruleKey).err ∧
      (s.reader.queryResults ruleKey).value =
        mergedValue ruleKey (s0.reader.queryResults ruleKey).value log
  /-- Each worker that finished merged once, the values of its own scrape. -/
  distinct : (log.map Prod.fst).Nodup
  logged : ∀ merge ∈ log, merge.2 = (s0.scraped scrape merge.1).history2Value merge.1
  merged : ∀ backend, backend ∈ log.map Prod.fst ↔ (scrape backend).isSome ∧ 3 ≤ done.count backend

variable {s0 s : System} {scrape : String → Option (MetricFamilies × Time × Nat)}
  {done : List String} {log : List (String × StrMap Value)}

theorem TickState.start (typed : ResultsTyped s0.reader) : TickState s0 scrape [] s0 [] where
  rules := rfl
  cells _ _ := rfl
  keys _ := by simp
  pending _ _ early := by simp at early
  typed := typed
  results _ := ⟨rfl, rfl⟩
  distinct := List.nodup_nil
  logged _ member := by simp at member
  merged _ := by simp

private theorem exists_mem_append_single {p : String → Prop} {done : List String}
    {backend : String} :
    (∃ other ∈ done ++ [backend], p other) ↔ (∃ other ∈ done, p other) ∨ p backend := by
  simp [or_and_right, exists_or]

private theorem count_append_single (done : List String) (backend other : String) :
    (done ++ [backend]).count other = done.count other + if other = backend then 1 else 0 := by
  by_cases same : other = backend
  · subst same
    simp [List.count_append]
  · simp [List.count_append, List.count_cons, Ne.symm same, same]

/-- Scheduling a worker that has scraped already, or whose scrape leaves the reader as it is,
keeps the histories the tick accounts for. -/
theorem TickState.histories_of_seen (holds : TickState s0 scrape done s log) {backend : String}
    (seen : backend ∈ done ∨ s0.scraped scrape backend = s0.reader) :
    (∀ ruleKey other, s.reader.history.find? ruleKey other =
      (if other ∈ done ++ [backend] then s0.scraped scrape other else s0.reader).history.find?
        ruleKey other) ∧
    ∀ ruleKey, ruleKey ∈ s.reader.history ↔ ruleKey ∈ s0.reader.history ∨
      ∃ other ∈ done ++ [backend], ruleKey ∈ (s0.scraped scrape other).history := by
  refine ⟨fun ruleKey other => ?_, fun ruleKey => ?_⟩
  · rw [holds.cells]
    by_cases same : other = backend
    · subst same
      by_cases old : other ∈ done
      · simp [old]
      · simp [old, seen.resolve_left old]
    · simp [same]
  · rw [holds.keys, exists_mem_append_single]
    rcases seen with old | unscraped
    · exact ⟨fun known => known.imp_right .inl,
        fun known => known.imp_right fun known => known.elim id fun own => ⟨backend, old, own⟩⟩
    · rw [unscraped]
      exact ⟨fun known => known.imp_right .inl,
        fun known => known.elim .inl fun known => known.elim .inr .inl⟩

/-- A scheduled worker that runs no section: its scrape failed, or it has finished. -/
theorem TickState.skip (holds : TickState s0 scrape done s log) {backend : String}
    (idle : scrape backend = none ∨ 3 ≤ done.count backend) :
    TickState s0 scrape (done ++ [backend]) s log := by
  have seen : backend ∈ done ∨ s0.scraped scrape backend = s0.reader := by
    rcases idle with failed | finished
    · exact .inr (by simp [scraped, failed])
    · exact .inl (List.count_pos_iff.mp (by omega))
  obtain ⟨cells, keys⟩ := holds.histories_of_seen seen
  refine ⟨holds.rules, cells, keys, fun other some late => ?_, holds.typed, holds.results,
    holds.distinct, holds.logged, fun other => ?_⟩
  · rw [count_append_single] at late
    refine holds.pending other some ?_
    by_cases same : other = backend
    · subst same
      rcases idle with failed | finished
      · simp [failed] at some
      · omega
    · simpa [same] using late
  · rw [holds.merged, count_append_single]
    by_cases same : other = backend
    · subst same
      rcases idle with failed | finished
      · simp [failed]
      · simp only [if_true]
        constructor <;> rintro ⟨some, _⟩ <;> exact ⟨some, by omega⟩
    · simp [same]

/-- A worker's first section: its `metric2History`. -/
theorem TickState.metric2History (holds : TickState s0 scrape done s log) {backend : String}
    {result : MetricFamilies × Time × Nat} (scraped : scrape backend = some result)
    (first : done.count backend = 0) :
    TickState s0 scrape (done ++ [backend])
      { s with reader := s.reader.metric2History result.1 backend result.2.1 } log := by
  have fresh : backend ∉ done := List.count_eq_zero.mp first
  have ownCells : ∀ ruleKey, s.reader.history.find? ruleKey backend =
      s0.reader.history.find? ruleKey backend := fun ruleKey => by simp [holds.cells, fresh]
  refine ⟨holds.rules, fun ruleKey other => ?_, fun ruleKey => ?_, fun other some late => ?_,
    holds.typed, holds.results, holds.distinct, holds.logged, fun other => ?_⟩
  · rw [BackendReader.find?_metric2History]
    by_cases same : other = backend
    · subst same
      simp only [if_true, List.mem_append, List.mem_singleton, or_true, System.scraped, scraped,
        BackendReader.find?_metric2History, holds.rules, History.get, ownCells]
    · simp [same, holds.cells]
  · rw [BackendReader.mem_metric2History, holds.keys, holds.rules]
    have own : ruleKey ∈ (s0.scraped scrape backend).history ↔ ruleKey ∈ s0.reader.history ∨
        ∃ rule, s0.reader.queryRules.lookup ruleKey = some rule ∧
          (!metricExists result.1 rule || (rule.metric2Value result.1).isNaN) = false := by
      simp only [System.scraped, scraped, BackendReader.mem_metric2History]
    rw [exists_mem_append_single, own]
    constructor
    · rintro ((known | known) | known)
      exacts [.inl known, .inr (.inl known), .inr (.inr (.inr known))]
    · rintro (known | known | known | known)
      exacts [.inl (.inl known), .inl (.inr known), .inl (.inl known), .inr known]
  · rw [count_append_single] at late
    by_cases same : other = backend
    · subst same
      simp [first] at late
    · exact holds.pending other some (by simpa [same] using late)
  · rw [holds.merged, count_append_single]
    by_cases same : other = backend
    · subst same
      simp [first]
    · simp [same]

/-- A worker's second section: its `history2Value`, which reads only the cells of its own
backend, written by its own `metric2History`. -/
theorem TickState.history2Value (holds : TickState s0 scrape done s log) {backend : String}
    (scraped : (scrape backend).isSome) (second : done.count backend = 1) :
    TickState s0 scrape (done ++ [backend])
      { s with pending := Function.update s.pending backend (s.reader.history2Value backend) }
      log := by
  have old : backend ∈ done := List.count_pos_iff.mp (by omega)
  obtain ⟨cells, keys⟩ := holds.histories_of_seen (.inl old)
  have own : s.reader.history2Value backend = (s0.scraped scrape backend).history2Value backend :=
    BackendReader.history2Value_congr
      (holds.rules.trans (scraped_queryRules s0 scrape backend).symm) fun ruleKey => by
        simp only [History.get, holds.cells, old, if_true]
  refine ⟨holds.rules, cells, keys, fun other some late => ?_, holds.typed, holds.results,
    holds.distinct, holds.logged, fun other => ?_⟩
  · by_cases same : other = backend
    · subst same
      simpa using own
    · rw [count_append_single, if_neg same, Nat.add_zero] at late
      simpa [Function.update_noteq same] using holds.pending other some late
  · rw [holds.merged, count_append_single]
    by_cases same : other = backend
    · subst same
      simp [second]
    · simp [same]

/-- A worker's last section: its `mergeQueryResult`, which does not panic on the values of its
own scrape and merges them with `mergeStep`. -/
theorem TickState.mergeQueryResult (holds : TickState s0 scrape done s log) {backend : String}
    {result : MetricFamilies × Time × Nat} (scraped : scrape backend = some result)
    (third : done.count backend = 2) :
    ∃ reader, s.reader.mergeQueryResult (s.pending backend) backend result.2.2 = some reader ∧
      TickState s0 scrape (done ++ [backend]) { s with reader }
        (log ++ [(backend, s.pending backend)]) := by
  have old : backend ∈ done := List.count_pos_iff.mp (by omega)
  obtain ⟨cells, keys⟩ := holds.histories_of_seen (.inl old)
  have isSome : (scrape backend).isSome := by simp [scraped]
  have values := holds.pending backend isSome (by omega)
  obtain ⟨queryResults, merged, typed, results⟩ :=
    @BackendReader.mergeQueryResult_oneEntry s.reader holds.typed (s.pending backend) backend
    (fun found => by
      rw [values] at found
      simpa only [scraped_queryRules, holds.rules] using
        (s0.scraped scrape backend).oneEntry_history2Value backend found)
    result.2.2
  refine ⟨_, merged, holds.rules, cells, keys, fun other some late => ?_, typed,
    fun ruleKey => ⟨(results ruleKey).1.trans (holds.results ruleKey).1, ?_⟩, ?_,
    fun merge member => ?_, fun other => ?_⟩
  · rw [count_append_single] at late
    by_cases same : other = backend
    · subst same
      exact holds.pending other some (by omega)
    · exact holds.pending other some (by simpa [same] using late)
  · rw [(results ruleKey).2, mergedValue_append, ← (holds.results ruleKey).2, mergedValue_cons]
    rfl
  · rw [List.map_append]
    refine List.nodup_append.mpr ⟨holds.distinct, List.nodup_singleton _, ?_⟩
    intro _ present single
    rw [List.map_cons, List.map_nil, List.mem_singleton] at single
    rw [single] at present
    have := ((holds.merged backend).mp present).2
    omega
  · rcases List.mem_append.mp member with member | member
    · exact holds.logged merge member
    · rw [List.mem_singleton.mp member]
      exact values
  · rw [List.map_append, List.mem_append, holds.merged, count_append_single]
    by_cases same : other = backend
    · subst same
      simp [isSome, third]
    · simp [same]

/-- One scheduled occurrence of a worker runs its next section, or none, and keeps the tick's
state. -/
theorem TickState.step (holds : TickState s0 scrape done s log) (backend : String) :
    ∃ next log', s.run ((scrape backend).bind fun result =>
        workerSection backend result (done.count backend)).toList = some next ∧
      TickState s0 scrape (done ++ [backend]) next log' := by
  cases scraped : scrape backend with
  | none => exact ⟨s, log, rfl, holds.skip (.inl scraped)⟩
  | some result =>
    match stage : done.count backend with
    | 0 => exact ⟨_, log, rfl, holds.metric2History scraped stage⟩
    | 1 => exact ⟨_, log, rfl, holds.history2Value (by simp [scraped]) stage⟩
    | 2 =>
      obtain ⟨reader, merged, next⟩ := holds.mergeQueryResult scraped stage
      exact ⟨_, _, by simp [Option.bind, workerSection, System.run, System.step, merged], next⟩
    | _ + 3 => exact ⟨s, log, rfl, holds.skip (.inr (by omega))⟩

/-- The sections of any schedule run without a panic and keep the tick's state. -/
theorem TickState.interleave (holds : TickState s0 scrape done s log) (schedule : List String) :
    ∃ final log', s.run (interleave scrape done schedule) = some final ∧
      TickState s0 scrape (done ++ schedule) final log' := by
  induction schedule generalizing done s log with
  | nil => exact ⟨s, log, rfl, by simpa using holds⟩
  | cons backend rest ih =>
    obtain ⟨next, log', stepped, holdsNext⟩ := holds.step backend
    obtain ⟨final, log'', ran, holdsFinal⟩ := ih holdsNext
    refine ⟨final, log'', ?_, by simpa using holdsFinal⟩
    rw [Metrics.interleave, run_append, stepped, Option.some_bind, ran]

/-- After its merge a worker's values are in the log, exactly once, and nothing else is. -/
theorem TickState.mem_log (holds : TickState s0 scrape done s log) {merge : String × StrMap Value} :
    merge ∈ log ↔ ((scrape merge.1).isSome ∧ 3 ≤ done.count merge.1) ∧
      merge.2 = (s0.scraped scrape merge.1).history2Value merge.1 := by
  refine ⟨fun member => ⟨(holds.merged _).mp (List.mem_map_of_mem _ member),
    holds.logged merge member⟩, fun ⟨finished, values⟩ => ?_⟩
  obtain ⟨logged, member, same⟩ := List.mem_map.mp ((holds.merged _).mpr finished)
  have : logged = merge := Prod.ext same (by rw [holds.logged logged member, same, values])
  exact this ▸ member

/-- The value a logged merge holds for a rule is one entry of the rule's type in `s0`, labelled
with the merging backend. -/
theorem TickState.lookup_log (holds : TickState s0 scrape done s log)
    {merge : String × StrMap Value} (member : merge ∈ log) {ruleKey : String} {new : Value}
    (found : merge.2.lookup ruleKey = some new) :
    ∃ rule, s0.reader.queryRules.lookup ruleKey = some rule ∧
      OneEntry rule.resultType merge.1 new := by
  rw [holds.logged merge member] at found
  simpa only [scraped_queryRules] using
    (s0.scraped scrape merge.1).oneEntry_history2Value merge.1 found

theorem TickState.log_perm {done' : List String} {s' : System}
    {log' : List (String × StrMap Value)} (holds : TickState s0 scrape done s log)
    (holds' : TickState s0 scrape done' s' log')
    (finished : ∀ backend, 3 ≤ done.count backend ↔ 3 ≤ done'.count backend) : log.Perm log' :=
  (List.perm_ext_iff_of_nodup holds.distinct.of_map holds'.distinct.of_map).mpr fun merge => by
    rw [holds.mem_log, holds'.mem_log, finished]

/-- Two ticks from `s0` that scheduled the same workers end in the same history. -/
theorem TickState.history_equiv {done' : List String} {s' : System}
    {log' : List (String × StrMap Value)} (holds : TickState s0 scrape done s log)
    (holds' : TickState s0 scrape done' s' log')
    (members : ∀ backend, backend ∈ done ↔ backend ∈ done') :
    s.reader.history.Equiv s'.reader.history :=
  ⟨fun ruleKey => by simp only [holds.keys, holds'.keys, members],
    fun ruleKey backend => by simp only [holds.cells, holds'.cells, members]⟩

private theorem optionRel_sameEntries_refl : ∀ value : Option Value,
    Option.Rel Value.SameEntries value value
  | none => .none
  | some value => .some (.refl value)

/-- Two ticks from `s0` whose workers finished alike end in the same results, up to the order of
the entries and the update times. -/
theorem TickState.results_sameEntries {done' : List String} {s' : System}
    {log' : List (String × StrMap Value)} (typed : ResultsTyped s0.reader)
    (holds : TickState s0 scrape done s log) (holds' : TickState s0 scrape done' s' log')
    (finished : ∀ backend, 3 ≤ done.count backend ↔ 3 ≤ done'.count backend) (ruleKey : String) :
    QueryResult.SameEntries (s.reader.queryResults ruleKey) (s'.reader.queryResults ruleKey) := by
  refine ⟨(holds.results ruleKey).1.trans (holds'.results ruleKey).1.symm, ?_⟩
  rw [(holds.results ruleKey).2, (holds'.results ruleKey).2]
  cases registered : s0.reader.queryRules.lookup ruleKey with
  | none =>
    have absent : ∀ {done s log}, TickState s0 scrape done s log →
        ∀ merge ∈ log, merge.2.lookup ruleKey = none := fun holds merge member => by
      cases found : merge.2.lookup ruleKey with
      | none => rfl
      | some new =>
        obtain ⟨_, registered', -⟩ := holds.lookup_log member found
        cases registered.symm.trans registered'
    rw [mergedValue_of_lookup_none log _ (absent holds),
      mergedValue_of_lookup_none log' _ (absent holds')]
    exact optionRel_sameEntries_refl _
  | some rule =>
    refine mergedValue_perm (holds.log_perm holds' finished) holds.distinct
      (fun merge member new found => ?_) (typed ruleKey rule registered)
    obtain ⟨rule', registered', oneEntry⟩ := holds.lookup_log member found
    exact (Option.some.inj (registered.symm.trans registered')) ▸ oneEntry

/-- `marshalHistory` only writes the shared copy of the history. -/
theorem TickState.marshalHistory (holds : TickState s0 scrape done s log) (backends : List String) :
    TickState s0 scrape done { s with reader := s.reader.marshalHistory backends } log :=
  ⟨holds.rules, holds.cells, holds.keys, holds.pending, holds.typed, holds.results, holds.distinct,
    holds.logged, holds.merged⟩

/-- The run of one tick of `readFromBackends` that has addresses and metric names, under a
schedule of its workers, ending with the payload `marshalHistory` shares. -/
theorem TickState.readFromBackends (typed : ResultsTyped s0.reader) (addrs : List String)
    (scrape : String → Option (MetricFamilies × Time × Nat)) (schedule : List String)
    (working : (addrs.isEmpty || (collectAllNames s0.reader).isEmpty) = false) :
    ∃ final log, s0.run (readFromBackends s0.reader addrs scrape schedule) = some final ∧
      TickState s0 scrape schedule final log ∧
      final.reader.marshalledHistory =
        some (BackendReader.filterHistory final.reader.history addrs) := by
  obtain ⟨final, log, ran, holds⟩ := (TickState.start typed).interleave schedule
  refine ⟨_, log, ?_,
    (by simpa using holds : TickState s0 scrape schedule final log).marshalHistory addrs, rfl⟩
  rw [Metrics.readFromBackends, working, if_neg Bool.false_ne_true, run_append, ran]
  rfl

/-- A tick from results that have the types of their rules never panics, whatever order the
mutex gives its workers' sections in, and leaves the results typed. -/
theorem readFromBackends_typed (s0 : System) (addrs : List String)
    (scrape : String → Option (MetricFamilies × Time × Nat)) (schedule : List String)
    (typed : ResultsTyped s0.reader) :
    ∃ final, s0.run (readFromBackends s0.reader addrs scrape schedule) = some final ∧
      ResultsTyped final.reader := by
  cases working : addrs.isEmpty || (collectAllNames s0.reader).isEmpty with
  | true => exact ⟨s0, by simp [Metrics.readFromBackends, working, run], typed⟩
  | false =>
    obtain ⟨final, _, ran, holds, -⟩ :=
      TickState.readFromBackends typed addrs scrape schedule working
    exact ⟨final, ran, holds.typed⟩

/-- Every schedule of the workers of a tick over distinct addresses runs without a panic, and
ends in the history of the schedule that runs the workers one after another in address order,
and in its results up to the order of the entries and the update times. -/
theorem readFromBackends_order_independent (s0 : System) (addrs : List String)
    (scrape : String → Option (MetricFamilies × Time × Nat)) (schedule : List String)
    (distinct : addrs.Nodup) (typed : ResultsTyped s0.reader)
    (valid : TickSchedule addrs schedule) :
    ∃ final sequential, s0.run (readFromBackends s0.reader addrs scrape schedule) = some final ∧
      s0.run (readFromBackends s0.reader addrs scrape
        (addrs.flatMap fun backend => [backend, backend, backend])) = some sequential ∧
      final.reader.history.Equiv sequential.reader.history ∧
      ∀ ruleKey, QueryResult.SameEntries (final.reader.queryResults ruleKey)
        (sequential.reader.queryResults ruleKey) := by
  cases working : addrs.isEmpty || (collectAllNames s0.reader).isEmpty with
  | true =>
    simp only [Metrics.readFromBackends, working, if_true]
    exact ⟨s0, s0, rfl, rfl, History.Equiv.refl _,
      fun _ => ⟨rfl, optionRel_sameEntries_refl _⟩⟩
  | false =>
    have valid' := tickSchedule_sequential distinct
    obtain ⟨final, log, ran, holds, -⟩ :=
      TickState.readFromBackends typed addrs scrape schedule working
    obtain ⟨sequential, log', ran', holds', -⟩ :=
      TickState.readFromBackends typed addrs scrape _ working
    exact ⟨final, sequential, ran, ran',
      holds.history_equiv holds' fun backend =>
        (valid.mem_iff backend).trans (valid'.mem_iff backend).symm,
      holds.results_sameEntries typed holds' fun backend =>
        (valid.finished_iff backend).trans (valid'.finished_iff backend).symm⟩

/-- One rule registered; two backends scraped. -/
def twoBackends : System where
  reader.queryRules :=
    (∅ : StrMap QueryRule).insert "k" ⟨["m"], 1000000000, fun _ => ⟨0⟩, fun _ => ⟨0⟩, .vector⟩

/-- Two ticks over two backends, each with every worker scheduled to the end: the second starts
from the vector results the first stored, so each of its merges asserts the stored type. -/
theorem readFromBackends_typed_two_backends :
    ∃ scraped final, twoBackends.run (readFromBackends twoBackends.reader ["a", "b"]
        (fun _ => some ((∅ : MetricFamilies).insert "m" ⟨[]⟩, 1000, 1))
        ["a", "b", "b", "a", "a", "b"]) = some scraped ∧
      (scraped.reader.queryResults "k").value.map Value.labels = some ["a", "b"] ∧
      scraped.run (readFromBackends scraped.reader ["a", "b"]
        (fun _ => some ((∅ : MetricFamilies).insert "m" ⟨[]⟩, 2000, 2))
        ["b", "a", "a", "b", "b", "a"]) = some final ∧
      ResultsTyped final.reader := by
  obtain ⟨scraped, ran, typed⟩ := readFromBackends_typed twoBackends ["a", "b"]
    (fun _ => some ((∅ : MetricFamilies).insert "m" ⟨[]⟩, 1000, 1))
    ["a", "b", "b", "a", "a", "b"] (fun _ _ _ _ stored => nomatch stored)
  obtain ⟨final, ran', typed'⟩ := readFromBackends_typed scraped ["a", "b"]
    (fun _ => some ((∅ : MetricFamilies).insert "m" ⟨[]⟩, 2000, 2))
    ["b", "a", "a", "b", "b", "a"] typed
  have labels : (twoBackends.run (readFromBackends twoBackends.reader ["a", "b"]
      (fun _ => some ((∅ : MetricFamilies).insert "m" ⟨[]⟩, 1000, 1))
      ["a", "b", "b", "a", "a", "b"])).map
        (fun s => (s.reader.queryResults "k").value.map Value.labels) = some (some ["a", "b"]) :=
    rfl
  rw [ran] at labels
  exact ⟨scraped, final, ran, Option.some.inj labels, ran', typed'⟩

theorem readFromBackends_order_independent_two_backends :
    ∃ final sequential, twoBackends.run (readFromBackends twoBackends.reader ["a", "b"]
        (fun _ => some ((∅ : MetricFamilies).insert "m" ⟨[]⟩, 1000, 1))
        ["b", "a", "a", "b", "b", "a"]) = some final ∧
      twoBackends.run (readFromBackends twoBackends.reader ["a", "b"]
        (fun _ => some ((∅ : MetricFamilies).insert "m" ⟨[]⟩, 1000, 1))
        (["a", "b"].flatMap fun backend => [backend, backend, backend])) = some sequential ∧
      final.reader.history.Equiv sequential.reader.history ∧
      ∀ ruleKey, QueryResult.SameEntries (final.reader.queryResults ruleKey)
        (sequential.reader.queryResults ruleKey) :=
  readFromBackends_order_independent twoBackends ["a", "b"] _ ["b", "a", "a", "b", "b", "a"]
    (by decide) (fun _ _ _ _ stored => nomatch stored) (by decide)

end System

end TiProxy.Metrics
