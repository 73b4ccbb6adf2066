import TiProxy.Model.Metrics.DefaultReader

/-! # What a tick of `DefaultMetricsReader` leaves in `GetQueryResult`

The map `readMetrics` returns holds the results of the queries that succeeded, and the tick stores
it whole in place of the old one. So after a tick in which some query succeeded, an expression
whose query failed has no result at all, whatever it had before; only a tick in which every query
failed keeps the old results. `AddQueryExpr` and `RemoveQueryExpr` between the copy and the store
change neither the copy nor the results.
-/

namespace TiProxy.Metrics

namespace DefaultMetricsReader

/-- Each copied expression whose query succeeded has its result, stamped with its clock reading,
and no other ID has one. -/
theorem lookup_readMetrics (copyedMap : IdMap QueryExpr) (queryMetric : UInt64 → QueryResult)
    (clock : UInt64 → Nat) (id : UInt64) :
    (readMetrics copyedMap queryMetric clock).lookup id =
      if id ∈ copyedMap ∧ (queryMetric id).err = none then
        some { queryMetric id with updateTime := clock id }
      else none := by
  refine (foldl_cell _ (fun (results : IdMap QueryResult) key => results.lookup key)
    (fun key _ old => if (queryMetric key).err = none then
      some { queryMetric key with updateTime := clock key } else old) ?_ ?_
    copyedMap ∅ id).trans ?_
  · intro _ entry other distinct
    dsimp only
    split <;> simp [AList.lookup_insert_ne distinct]
  · intro _ entry
    dsimp only
    split <;> simp_all
  · cases found : copyedMap.lookup id with
    | none => simp [AList.lookup_eq_none.mp found]
    | some expr => simp [AList.lookup_isSome.mp (by simp [found] : (copyedMap.lookup id).isSome)]

/-- A call of `AddQueryExpr` or `RemoveQueryExpr`. -/
def Event.isCall : Event → Bool
  | .addQueryExpr _ | .removeQueryExpr _ => true
  | .copy | .store .. => false

theorem run_cons_eq_some {dmr final : DefaultMetricsReader} {event : Event}
    {rest : List Event} :
    dmr.run (event :: rest) = some final ↔
      ∃ next, dmr.step event = some next ∧ next.run rest = some final :=
  Option.bind_eq_some

theorem run_append {dmr : DefaultMetricsReader} (first second : List Event) :
    dmr.run (first ++ second) = (dmr.run first).bind fun next => next.run second := by
  induction first generalizing dmr with
  | nil => rfl
  | cons event rest ih =>
    rw [List.cons_append]
    simp only [run, ih, Option.bind_assoc]

/-- Calls of `AddQueryExpr` and `RemoveQueryExpr` always run, and touch neither the results nor
a tick's copy. -/
theorem run_calls (dmr : DefaultMetricsReader) :
    ∀ (calls : List Event), (∀ event ∈ calls, event.isCall) →
      ∃ final, dmr.run calls = some final ∧ final.queryResults = dmr.queryResults ∧
        final.copyedMap = dmr.copyedMap
  | [], _ => ⟨dmr, rfl, rfl, rfl⟩
  | event :: rest, onlyCalls => by
    have tail := fun other member => onlyCalls other (List.mem_cons_of_mem _ member)
    match event, onlyCalls event (List.mem_cons_self _ _) with
    | .addQueryExpr queryExpr, _ =>
      obtain ⟨final, ran, results, copied⟩ := run_calls (dmr.addQueryExpr queryExpr).1 rest tail
      exact ⟨final, ran, results, copied⟩
    | .removeQueryExpr id, _ =>
      obtain ⟨final, ran, results, copied⟩ := run_calls (dmr.removeQueryExpr id) rest tail
      exact ⟨final, ran, results, copied⟩

/-- A tick, with any calls between its copy and its store, replaces the results by those of the
queries that succeeded if any did, and keeps them otherwise. -/
theorem tick_queryResults {dmr final : DefaultMetricsReader} (idle : dmr.copyedMap = none)
    {calls : List Event} (onlyCalls : ∀ event ∈ calls, event.isCall)
    {queryMetric : UInt64 → QueryResult} {clock : UInt64 → Nat}
    (ran : dmr.run (.copy :: calls ++ [.store queryMetric clock]) = some final) :
    final.queryResults = if (readMetrics dmr.queryExprs queryMetric clock).entries.length > 0
      then readMetrics dmr.queryExprs queryMetric clock else dmr.queryResults := by
  rw [List.cons_append, run_cons_eq_some] at ran
  obtain ⟨copied, stepped, ran⟩ := ran
  simp only [step, idle, Option.some.injEq] at stepped
  subst stepped
  obtain ⟨beforeStore, calledRun, results, copy⟩ := run_calls _ calls onlyCalls
  rw [run_append, calledRun, Option.some_bind, run_cons_eq_some] at ran
  obtain ⟨stored, stepped, finalRun⟩ := ran
  simp only [run, Option.some.injEq] at finalRun
  simp only [step, copy, Option.some.injEq] at stepped
  subst stepped finalRun
  unfold storeResults
  split <;> simp_all

theorem readMetrics_nonempty_iff (copyedMap : IdMap QueryExpr)
    (queryMetric : UInt64 → QueryResult) (clock : UInt64 → Nat) :
    (readMetrics copyedMap queryMetric clock).entries.length > 0 ↔
      ∃ id ∈ copyedMap, (queryMetric id).err = none := by
  constructor
  · intro nonempty
    obtain ⟨entry, member⟩ := List.exists_mem_of_length_pos nonempty
    have found := AList.mem_lookup_iff.mpr member
    rw [Option.mem_def, lookup_readMetrics] at found
    split at found
    · rename_i stored
      exact ⟨entry.1, stored⟩
    · cases found
  · rintro ⟨id, member, succeeded⟩
    have found := lookup_readMetrics copyedMap queryMetric clock id
    rw [if_pos ⟨member, succeeded⟩] at found
    exact List.length_pos_of_mem (AList.mem_lookup_iff.mp found)

/-- After a tick, with any calls of `AddQueryExpr` and `RemoveQueryExpr` between its copy and its
store: if the query of some copied expression succeeded, `GetQueryResult` returns the new result
of each expression whose query succeeded and an empty result for every other ID, those whose
query failed included; if none succeeded, it returns what it returned before the tick. -/
theorem tick_getQueryResult {dmr final : DefaultMetricsReader} (idle : dmr.copyedMap = none)
    {calls : List Event} (onlyCalls : ∀ event ∈ calls, event.isCall)
    {queryMetric : UInt64 → QueryResult} {clock : UInt64 → Nat}
    (ran : dmr.run (.copy :: calls ++ [.store queryMetric clock]) = some final) (id : UInt64) :
    final.getQueryResult id =
      if ∃ other ∈ dmr.queryExprs, (queryMetric other).err = none then
        if id ∈ dmr.queryExprs ∧ (queryMetric id).err = none then
          { queryMetric id with updateTime := clock id }
        else {}
      else dmr.getQueryResult id := by
  rw [getQueryResult, tick_queryResults idle onlyCalls ran]
  by_cases succeeded : ∃ other ∈ dmr.queryExprs, (queryMetric other).err = none
  · rw [if_pos succeeded, if_pos ((readMetrics_nonempty_iff _ _ clock).mpr succeeded),
      lookup_readMetrics]
    split <;> rfl
  · rw [if_neg succeeded, if_neg (mt (readMetrics_nonempty_iff _ _ clock).mp succeeded)]
    rfl

/-- Two expressions, registered before any tick. -/
def twoExprs : List Event := [.addQueryExpr ⟨"a"⟩, .addQueryExpr ⟨"b"⟩]

/-- A query result with a value and no error. -/
def answered : QueryResult := { value := some (.scalar ⟨0, ⟨0⟩⟩) }

/-- The query of expression 1 fails and the other queries succeed. -/
def firstFails (id : UInt64) : QueryResult :=
  if id = 1 then { err := some "timeout" } else answered

/-- A reader with the two expressions registered and no tick yet. -/
def twoRegistered : DefaultMetricsReader := (({} : DefaultMetricsReader).run twoExprs).getD {}

/-- A tick of `twoRegistered` during which a third expression is added: the query of expression 1
fails and that of expression 2 succeeds, so expression 1 ends with an empty result. -/
theorem tick_getQueryResult_first_fails :
    ((twoRegistered.run (.copy :: [.addQueryExpr ⟨"c"⟩] ++ [.store firstFails fun _ => 2])).getD
      {}).getQueryResult 1 = {} :=
  have ran : twoRegistered.run (.copy :: [.addQueryExpr ⟨"c"⟩] ++ [.store firstFails fun _ => 2]) =
      some ((twoRegistered.run
        (.copy :: [.addQueryExpr ⟨"c"⟩] ++ [.store firstFails fun _ => 2])).getD {}) := rfl
  (tick_getQueryResult rfl (by decide) ran 1).trans
    (by rw [if_pos ⟨2, by decide, by decide⟩, if_neg (by decide)])

/-- A tick in which both queries succeed stores a result for expression 1; the next tick, in which
the query of expression 1 fails while the other succeeds, leaves `GetQueryResult(1)` empty. -/
theorem failed_query_erases_result :
    ((({} : DefaultMetricsReader).run
        (twoExprs ++ [.copy, .store (fun _ => answered) fun _ => 1])).map
        (·.getQueryResult 1)) = some { answered with updateTime := 1 } ∧
      (firstFails 1).err ≠ none ∧
      ((({} : DefaultMetricsReader).run (twoExprs ++ [.copy, .store (fun _ => answered) fun _ => 1,
        .copy, .store firstFails fun _ => 2])).map (·.getQueryResult 1)) = some {} := by
  decide

end DefaultMetricsReader

end TiProxy.Metrics
