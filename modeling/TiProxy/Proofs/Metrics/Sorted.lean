import TiProxy.Model.Metrics.Cluster
import Mathlib.Data.List.Sort
import Mathlib.Data.List.Chain

/-! # Sorted histories across a cluster

`metric2History` appends a sample stamped with a reading of the scraping reader's clock,
`mergeHistory` keeps one of two lists whole, and `purgeHistory` keeps a suffix. So a list stays
sorted by timestamp as long as every new sample is no earlier than the samples it is appended to.
Each reader's clock never goes back, but a reader appends to lists other readers stamped: a
follower that merged an owner's samples, and later scrapes as owner with a clock behind the old
owner's, appends out of order. And a worker appends the reading it took before it waited for the
mutex, so two workers of one reader for one address may append out of the order they read.

When every clock reading is no earlier than the readings before it, as with one clock the
readers share, and each `readFromBackends` starts one worker per address, every list of every
reader's history and of every payload stays sorted. `Ordered bound` carries the latest reading
so far as its bound, and, for each worker that has read the clock, that the lists it will append
to hold nothing later than its reading.
-/

namespace TiProxy.Metrics

/-- A list of samples sorted by timestamp, none later than `bound`. -/
def SortedUpTo (bound : Time) (history : List SamplePair) : Prop :=
  history.Sorted (fun first second => first.timestamp ≤ second.timestamp) ∧
    ∀ pair ∈ history, pair.timestamp ≤ bound

section Lists

variable {bound : Time} {history : List SamplePair}

theorem SortedUpTo.mono (sorted : SortedUpTo bound history) {later : Time} (le : bound ≤ later) :
    SortedUpTo later history :=
  ⟨sorted.1, fun pair member => (sorted.2 pair member).trans le⟩

theorem SortedUpTo.sublist (sorted : SortedUpTo bound history) {kept : List SamplePair}
    (sub : kept.Sublist history) : SortedUpTo bound kept :=
  ⟨sorted.1.sublist sub, fun pair member => sorted.2 pair (sub.subset member)⟩

theorem SortedUpTo.append_single (sorted : SortedUpTo bound history) {pair : SamplePair}
    (later : bound ≤ pair.timestamp) : SortedUpTo pair.timestamp (history ++ [pair]) := by
  refine ⟨List.pairwise_append.mpr ⟨sorted.1, List.pairwise_singleton _ _, ?_⟩, ?_⟩
  · intro earlier member last single
    rw [List.mem_singleton.mp single]
    exact (sorted.2 earlier member).trans later
  · intro earlier member
    rcases List.mem_append.mp member with member | single
    · exact (sorted.2 earlier member).trans later
    · rw [List.mem_singleton.mp single]

theorem SortedUpTo.purgeHistory (sorted : SortedUpTo bound history) (retention now : Int) :
    SortedUpTo bound (purgeHistory history retention now) :=
  sorted.sublist (List.dropWhile_sublist _)

theorem SortedUpTo.mergeSteps {current incoming : List SamplePair}
    (sorted : SortedUpTo bound current) (sorted' : SortedUpTo bound incoming) :
    SortedUpTo bound (mergeSteps current incoming) := by
  unfold Metrics.mergeSteps
  split
  · exact sorted'
  · split
    · exact sorted'
    · exact sorted
  · exact sorted

end Lists

/-- Both lists of a backend history sorted, no sample later than `bound`. -/
def BackendHistory.SortedUpTo (bound : Time) (cell : BackendHistory) : Prop :=
  Metrics.SortedUpTo bound cell.step1History ∧ Metrics.SortedUpTo bound cell.step2History

theorem BackendHistory.SortedUpTo.mono {bound : Time} {cell : BackendHistory}
    (sorted : cell.SortedUpTo bound) {later : Time} (le : bound ≤ later) : cell.SortedUpTo later :=
  ⟨sorted.1.mono le, sorted.2.mono le⟩

theorem BackendHistory.sortedUpTo_empty (bound : Time) : ({} : BackendHistory).SortedUpTo bound :=
  ⟨⟨List.sorted_nil, nofun⟩, ⟨List.sorted_nil, nofun⟩⟩

/-- Every backend history of a history sorted, no sample later than `bound`. -/
def History.SortedUpTo (bound : Time) (history : History) : Prop :=
  ∀ ruleKey backend cell, history.find? ruleKey backend = some cell → cell.SortedUpTo bound

/-- The lists of `backend` in a history sorted, no sample later than `now`. -/
def History.SortedAt (backend : String) (now : Time) (history : History) : Prop :=
  ∀ ruleKey, (history.get ruleKey backend).SortedUpTo now

/-- Every list of a history sorted by timestamp. -/
def History.TimeSorted (history : History) : Prop :=
  ∀ ruleKey backend cell, history.find? ruleKey backend = some cell →
    cell.step1History.Sorted (fun first second => first.timestamp ≤ second.timestamp) ∧
      cell.step2History.Sorted (fun first second => first.timestamp ≤ second.timestamp)

section Histories

variable {bound : Time} {history : History}

theorem History.SortedUpTo.timeSorted (sorted : history.SortedUpTo bound) : history.TimeSorted :=
  fun ruleKey backend cell found => ⟨(sorted ruleKey backend cell found).1.1,
    (sorted ruleKey backend cell found).2.1⟩

theorem History.SortedUpTo.mono (sorted : history.SortedUpTo bound) {later : Time}
    (le : bound ≤ later) : history.SortedUpTo later := fun ruleKey backend cell found =>
  (sorted ruleKey backend cell found).mono le

theorem History.SortedUpTo.get (sorted : history.SortedUpTo bound) (ruleKey backend : String) :
    (history.get ruleKey backend).SortedUpTo bound := by
  unfold History.get
  cases found : history.find? ruleKey backend with
  | none => exact BackendHistory.sortedUpTo_empty bound
  | some cell => exact sorted ruleKey backend cell found

theorem History.SortedUpTo.of_get
    (sorted : ∀ ruleKey backend, (history.get ruleKey backend).SortedUpTo bound) :
    history.SortedUpTo bound := fun ruleKey backend cell found => by
  simpa only [History.get, found, Option.getD_some] using sorted ruleKey backend

theorem History.SortedUpTo.sortedAt (sorted : history.SortedUpTo bound) {now : Time}
    (le : bound ≤ now) (backend : String) : history.SortedAt backend now := fun ruleKey =>
  (sorted.get ruleKey backend).mono le

theorem appendSamples_eq_some {mfs : MetricFamilies} {now : Time} {rule : QueryRule}
    {old new : BackendHistory} (appended : appendSamples mfs now rule old = some new) :
    ∃ value value', new.step1History = old.step1History ++ [⟨now, value⟩] ∧
      new.step2History = old.step2History ++ [⟨now, value'⟩] := by
  dsimp only [appendSamples] at appended
  split at appended
  · cases appended
  · split at appended
    · cases appended
    · cases appended
      exact ⟨_, _, rfl, rfl⟩

/-- `metric2History` of `backend` at `now` leaves the lists of every other backend, and either
leaves those of `backend` or appends a sample stamped `now` to both. -/
theorem get_metric2History (br : BackendReader) (mfs : MetricFamilies) (backend : String)
    (now : Time) (ruleKey other : String) :
    (br.metric2History mfs backend now).history.get ruleKey other = br.history.get ruleKey other ∨
      other = backend ∧ ∃ value value',
        (br.metric2History mfs backend now).history.get ruleKey other =
          ⟨(br.history.get ruleKey other).step1History ++ [⟨now, value⟩],
            (br.history.get ruleKey other).step2History ++ [⟨now, value'⟩]⟩ := by
  by_cases same : other = backend
  · subst same
    cases appended : (br.queryRules.lookup ruleKey).bind fun rule =>
        appendSamples mfs now rule (br.history.get ruleKey other) with
    | none =>
      left
      rw [History.get, BackendReader.find?_metric2History, if_pos rfl, appended, Option.none_or]
      rfl
    | some new =>
      right
      obtain ⟨rule, -, appended'⟩ := Option.bind_eq_some.mp appended
      obtain ⟨value, value', step1, step2⟩ := appendSamples_eq_some appended'
      refine ⟨rfl, value, value', ?_⟩
      rw [History.get, BackendReader.find?_metric2History, if_pos rfl, appended, Option.or_some,
        Option.getD_some]
      exact congrArg₂ BackendHistory.mk step1 step2
  · left
    rw [History.get, History.get, BackendReader.find?_metric2History, if_neg same]

/-- A scrape of `backend` at a reading no earlier than its lists keeps them sorted up to the
reading. -/
theorem History.SortedAt.metric2History {br : BackendReader} {backend : String} {now : Time}
    (cells : br.history.SortedAt backend now) (mfs : MetricFamilies) :
    (br.metric2History mfs backend now).history.SortedAt backend now := fun ruleKey => by
  rcases get_metric2History br mfs backend now ruleKey backend with
    same | ⟨-, value, value', appended⟩
  · rw [same]
    exact cells ruleKey
  · rw [appended]
    exact ⟨(cells ruleKey).1.append_single le_rfl, (cells ruleKey).2.append_single le_rfl⟩

/-- A scrape of one backend leaves the lists of the others. -/
theorem History.SortedAt.metric2History_ne {br : BackendReader} {other : String} {bound : Time}
    (cells : br.history.SortedAt other bound) {backend : String} (distinct : other ≠ backend)
    (mfs : MetricFamilies) (now : Time) :
    (br.metric2History mfs backend now).history.SortedAt other bound := fun ruleKey => by
  rcases get_metric2History br mfs backend now ruleKey other with same | ⟨same, -⟩
  · rw [same]
    exact cells ruleKey
  · exact absurd same distinct

/-- A scrape at a reading no later than `bound`, and no earlier than the lists of its backend,
keeps the history sorted up to `bound`. -/
theorem History.SortedUpTo.metric2History {br : BackendReader}
    (sorted : br.history.SortedUpTo bound) {backend : String} {now : Time}
    (cells : br.history.SortedAt backend now) (le : now ≤ bound) (mfs : MetricFamilies) : (br.metric2History mfs backend now).history.SortedUpTo bound :=
  of_get fun ruleKey other => by
    by_cases same : other = backend
    · subst same
      exact (cells.metric2History mfs ruleKey).mono le
    · exact (sorted.sortedAt le_rfl other).metric2History_ne same mfs now ruleKey

/-- `purgeHistory` keeps a suffix of both lists of a backend history, or drops it. -/
theorem BackendHistory.SortedUpTo.purgeHistory {br : BackendReader} {ruleKey backend : String}
    (sorted : (br.history.get ruleKey backend).SortedUpTo bound) (now : Int) :
    ((br.purgeHistory now).history.get ruleKey backend).SortedUpTo bound := by
  unfold History.get at sorted ⊢
  rw [BackendReader.find?_purgeHistory]
  cases found : br.history.find? ruleKey backend with
  | none => exact BackendHistory.sortedUpTo_empty bound
  | some cell =>
    rw [found, Option.getD_some] at sorted
    cases rule : br.queryRules.lookup ruleKey with
    | none => exact BackendHistory.sortedUpTo_empty bound
    | some rule =>
      dsimp only [Option.some_bind, BackendReader.purgeEntry]
      split
      · exact BackendHistory.sortedUpTo_empty bound
      · exact ⟨sorted.1.purgeHistory _ _, sorted.2.purgeHistory _ _⟩

theorem History.SortedUpTo.purgeHistory {br : BackendReader} (sorted : br.history.SortedUpTo bound)
    (now : Int) : (br.purgeHistory now).history.SortedUpTo bound :=
  of_get fun ruleKey backend => (sorted.get ruleKey backend).purgeHistory now

theorem History.SortedUpTo.mergeHistory {br : BackendReader} {payload : History}
    (sorted : br.history.SortedUpTo bound) (sorted' : payload.SortedUpTo bound) :
    (br.mergeHistory payload).history.SortedUpTo bound := by
  intro ruleKey backend cell found
  rw [BackendReader.find?_mergeHistory] at found
  cases current : br.history.find? ruleKey backend with
  | none =>
    rw [current, none_mergeEntry] at found
    exact sorted' ruleKey backend cell found
  | some current' =>
    cases incoming : payload.find? ruleKey backend with
    | none =>
      rw [current, incoming, mergeEntry_none, Option.some.injEq] at found
      exact found ▸ sorted ruleKey backend current' current
    | some incoming' =>
      rw [current, incoming, mergeEntry, Option.some.injEq] at found
      subst found
      have old := sorted ruleKey backend current' current
      have new := sorted' ruleKey backend incoming' incoming
      exact ⟨old.1.mergeSteps new.1, old.2.mergeSteps new.2⟩

theorem History.SortedUpTo.filterHistory (sorted : history.SortedUpTo bound)
    (backends : List String) : (BackendReader.filterHistory history backends).SortedUpTo bound := by
  intro ruleKey backend cell found
  rw [BackendReader.find?_filterHistory] at found
  split at found
  · exact sorted ruleKey backend cell found
  · cases found

end Histories

namespace System

/-- A reader's history and the payload it marshalled last, sorted up to `bound`. -/
def SortedUpTo (bound : Time) (s : System) : Prop :=
  s.reader.history.SortedUpTo bound ∧
    ∀ payload, s.reader.marshalledHistory = some payload → payload.SortedUpTo bound

variable {bound : Time} {s next : System} {sec : Section}

theorem SortedUpTo.mono (sorted : s.SortedUpTo bound) {later : Time} (le : bound ≤ later) :
    s.SortedUpTo later :=
  ⟨sorted.1.mono le, fun payload marshalled => (sorted.2 payload marshalled).mono le⟩

/-- What a section a reader runs on its own does: it purges the history or leaves it, and it
marshals the history or leaves the payload. -/
theorem step_effect (own : Cluster.isLocal sec = true) (stepped : s.step sec = some next) :
    (next.reader.history = s.reader.history ∨
      ∃ now, next.reader.history = (s.reader.purgeHistory now).history) ∧
    (next.reader.marshalledHistory = s.reader.marshalledHistory ∨
      ∃ backends, next.reader.marshalledHistory =
        some (BackendReader.filterHistory s.reader.history backends)) := by
  cases sec with
  | metric2History | mergeHistory => cases own
  | addQueryRule | removeQueryRule | history2Value =>
    cases stepped
    exact ⟨.inl rfl, .inl rfl⟩
  | mergeQueryResult backend now =>
    obtain ⟨reader, merged, rfl⟩ := Option.map_eq_some'.mp stepped
    rw [BackendReader.mergeQueryResult_eq] at merged
    split at merged <;> cases merged
    exact ⟨.inl rfl, .inl rfl⟩
  | purgeHistory now =>
    cases stepped
    exact ⟨.inr ⟨now, rfl⟩, .inl rfl⟩
  | marshalHistory backends =>
    cases stepped
    exact ⟨.inl rfl, .inr ⟨backends, rfl⟩⟩

/-- The sections a reader runs on its own keep its lists sorted up to the same bound. -/
theorem SortedUpTo.step (sorted : s.SortedUpTo bound) (own : Cluster.isLocal sec = true)
    (stepped : s.step sec = some next) : next.SortedUpTo bound := by
  obtain ⟨history, payload⟩ := step_effect own stepped
  refine ⟨?_, fun payload' marshalled => ?_⟩
  · rcases history with same | ⟨now, purged⟩
    · exact same ▸ sorted.1
    · exact purged ▸ sorted.1.purgeHistory now
  · rcases payload with same | ⟨backends, filtered⟩
    · exact sorted.2 payload' (same ▸ marshalled)
    · cases filtered.symm.trans marshalled
      exact sorted.1.filterHistory backends

/-- The sections a reader runs on its own keep the lists of each backend sorted up to the same
bound. -/
theorem sortedAt_step {backend : String} {now : Time}
    (cells : s.reader.history.SortedAt backend now) (own : Cluster.isLocal sec = true)
    (stepped : s.step sec = some next) : next.reader.history.SortedAt backend now := by
  rcases (step_effect own stepped).1 with same | ⟨purgedAt, purged⟩
  · exact same ▸ cells
  · exact fun ruleKey => purged ▸ (cells ruleKey).purgeHistory purgedAt

end System

namespace Cluster

/-- One reader with its workers, while the clock readings so far are no later than `bound`: its
lists and its payload sorted up to `bound`, one worker per address, and the lists each worker
will append to holding nothing later than the reading the worker took. -/
structure ReaderOrdered (bound : Time) (node : System) (workers : List (String × Option Time)) :
    Prop where
  sorted : node.SortedUpTo bound
  distinct : (workers.map Prod.fst).Nodup
  reading : ∀ backend now, (backend, some now) ∈ workers →
    now ≤ bound ∧ node.reader.history.SortedAt backend now

/-- With one worker per address, no other worker reads the address of `worker`. -/
theorem fst_ne_of_mem_erase {workers : List (String × Option Time)}
    (distinct : (workers.map Prod.fst).Nodup) {worker other : String × Option Time}
    (member : worker ∈ workers) (left : other ∈ workers.erase worker) : other.1 ≠ worker.1 :=
  fun same => ((distinct.of_map _).mem_erase_iff.mp left).1
    (List.inj_on_of_nodup_map distinct (List.erase_subset _ _ left) member same)

namespace ReaderOrdered

variable {bound : Time} {node : System} {workers : List (String × Option Time)}

theorem mono (ordered : ReaderOrdered bound node workers) {later : Time} (le : bound ≤ later) :
    ReaderOrdered later node workers :=
  ⟨ordered.sorted.mono le, ordered.distinct, fun backend now member =>
    ⟨(ordered.reading backend now member).1.trans le, (ordered.reading backend now member).2⟩⟩

/-- `readFromBackends` starts one worker per address of `addrs`, none of which has read the
clock. -/
theorem spawn (sorted : node.SortedUpTo bound) {addrs : List String} (distinct : addrs.Nodup) :
    ReaderOrdered bound node (addrs.map (·, none)) :=
  ⟨sorted, by simpa [Function.comp_def] using distinct, fun _ _ member => by simp at member⟩

/-- A worker ends. -/
theorem erase (ordered : ReaderOrdered bound node workers) (worker : String × Option Time) :
    ReaderOrdered bound node (workers.erase worker) :=
  ⟨ordered.sorted, ordered.distinct.sublist ((List.erase_sublist _ _).map _),
    fun backend now member => ordered.reading backend now (List.erase_subset _ _ member)⟩

/-- A worker reads the clock at `now`, no earlier than the readings before. -/
theorem readClock (ordered : ReaderOrdered bound node workers) {backend : String} {now : Time}
    (waiting : (backend, none) ∈ workers) (later : bound ≤ now) :
    ReaderOrdered now node (workers.erase (backend, none) ++ [(backend, some now)]) := by
  have ordered := ordered.mono later
  refine ⟨ordered.sorted, ?_, fun backend' now' member => ?_⟩
  · rw [List.map_append]
    exact ((ordered.erase _).distinct).append (List.nodup_singleton _)
      (List.disjoint_singleton.mpr fun member => by
        obtain ⟨other, left, same⟩ := List.mem_map.mp member
        exact fst_ne_of_mem_erase ordered.distinct waiting left same)
  · rcases List.mem_append.mp member with member | single
    · exact ordered.reading backend' now' (List.erase_subset _ _ member)
    · obtain ⟨rfl, ⟨⟩⟩ := Prod.mk.inj (List.mem_singleton.mp single)
      exact ⟨le_rfl, ordered.sorted.1.sortedAt le_rfl backend'⟩

/-- A worker appends the families it scraped, stamped with the reading it took. -/
theorem scrape (ordered : ReaderOrdered bound node workers) {backend : String} {now : Time}
    (read : (backend, some now) ∈ workers) (mfs : MetricFamilies) :
    ReaderOrdered bound { node with reader := node.reader.metric2History mfs backend now }
      (workers.erase (backend, some now)) := by
  obtain ⟨le, cells⟩ := ordered.reading backend now read
  refine ⟨⟨ordered.sorted.1.metric2History cells le mfs, ordered.sorted.2⟩,
    (ordered.erase _).distinct, fun backend' now' member => ?_⟩
  obtain ⟨le', cells'⟩ := ordered.reading backend' now' (List.erase_subset _ _ member)
  exact ⟨le', cells'.metric2History_ne (fst_ne_of_mem_erase ordered.distinct read member) mfs now⟩

/-- A section the reader runs on its own. -/
theorem step (ordered : ReaderOrdered bound node workers) {sec : Section} {next : System}
    (own : isLocal sec = true) (stepped : node.step sec = some next) :
    ReaderOrdered bound next workers :=
  ⟨ordered.sorted.step own stepped, ordered.distinct, fun backend now member =>
    ⟨(ordered.reading backend now member).1,
      System.sortedAt_step (ordered.reading backend now member).2 own stepped⟩⟩

/-- A reader without a running worker merges a sorted payload. -/
theorem mergeHistory (ordered : ReaderOrdered bound node []) {payload : History}
    (sorted : payload.SortedUpTo bound) :
    ReaderOrdered bound { node with reader := node.reader.mergeHistory payload } [] :=
  ⟨⟨ordered.sorted.1.mergeHistory sorted, ordered.sorted.2⟩, List.nodup_nil, nofun⟩

/-- A recovered panic changes only the results. -/
theorem recover (ordered : ReaderOrdered bound node workers)
    (queryResults : String → QueryResult) :
    ReaderOrdered bound { node with reader := { node.reader with queryResults } } workers :=
  ⟨ordered.sorted, ordered.distinct, ordered.reading⟩

end ReaderOrdered

/-- Every reader with its workers ordered up to `bound`. -/
def Ordered (bound : Time) (c : Cluster) : Prop :=
  ∀ reader, ReaderOrdered bound (c.nodes reader) (c.workers reader)

variable {bound : Time} {c next final : Cluster}

theorem Ordered.fresh (clocks : Nat → Time) (bound : Time) : ({ clocks } : Cluster).Ordered bound :=
  fun _ => ⟨⟨fun _ _ _ found => (nomatch found), fun _ marshalled => (nomatch marshalled)⟩,
    List.nodup_nil, nofun⟩

/-- An event of one reader keeps the others as they were. -/
theorem Ordered.update (ordered : c.Ordered bound) (reader : Nat)
    (nodes : ∀ other ≠ reader, next.nodes other = c.nodes other)
    (workers : ∀ other ≠ reader, next.workers other = c.workers other)
    (kept : ReaderOrdered bound (next.nodes reader) (next.workers reader)) :
    next.Ordered bound := by
  intro other
  by_cases same : other = reader
  · exact same ▸ kept
  · rw [nodes other same, workers other same]
    exact ordered other

/-- A clock reading no earlier than `bound` moves the bound to the reading; the other events keep
the cluster ordered up to `bound`, given that a spawn starts one worker per address. -/
theorem Ordered.step (ordered : c.Ordered bound) {event : Event}
    (later : ∀ now, event.time? = some now → bound ≤ now)
    (distinct : ∀ addrs, event.addrs? = some addrs → addrs.Nodup)
    (stepped : c.step event = some next) : next.Ordered (event.time?.getD bound) := by
  cases event <;> simp only [Cluster.step] at stepped
  case spawn reader addrs =>
    split at stepped <;> cases stepped
    refine ordered.update reader (fun _ _ => rfl) (fun _ => (Function.update_noteq · _ _)) ?_
    simp only [Function.update_same]
    exact ReaderOrdered.spawn (ordered reader).sorted (distinct addrs rfl)
  case quit reader backend =>
    split at stepped <;> cases stepped
    refine ordered.update reader (fun _ _ => rfl) (fun _ => (Function.update_noteq · _ _)) ?_
    simp only [Function.update_same]
    exact (ordered reader).erase _
  case readClock reader backend now =>
    split at stepped <;> cases stepped
    rename_i waiting
    refine Ordered.update (fun other => (ordered other).mono (later now rfl)) reader
      (fun _ _ => rfl) (fun _ => (Function.update_noteq · _ _)) ?_
    simp only [Function.update_same]
    exact (ordered reader).readClock waiting.1 (later now rfl)
  case scrape reader mfs backend now =>
    split at stepped <;> cases stepped
    rename_i read
    refine ordered.update reader (fun _ => (Function.update_noteq · _ _))
      (fun _ => (Function.update_noteq · _ _)) ?_
    simp only [Function.update_same]
    exact (ordered reader).scrape read mfs
  case fetch follower owner =>
    split at stepped
    · rename_i idle
      split at stepped <;> cases stepped
      · exact ordered
      · rename_i payload marshalled
        refine ordered.update follower (fun _ => (Function.update_noteq · _ _)) (fun _ _ => rfl)
          ?_
        simp only [Function.update_same, idle]
        exact (idle ▸ ordered follower).mergeHistory ((ordered owner).sorted.2 payload marshalled)
    · cases stepped
  case act reader sec =>
    split at stepped
    · rename_i own
      obtain ⟨node, stepped', rfl⟩ := Option.map_eq_some'.mp stepped
      refine ordered.update reader (fun _ => (Function.update_noteq · _ _)) (fun _ _ => rfl) ?_
      simp only [Function.update_same]
      exact (ordered reader).step own stepped'
    · cases stepped
  case recover reader backend now =>
    split at stepped <;> cases stepped
    refine ordered.update reader (fun _ => (Function.update_noteq · _ _)) (fun _ _ => rfl) ?_
    simp only [Function.update_same]
    exact (ordered reader).recover _

private theorem chain_time?_cons {event : Event} {rest : List Event}
    (shared : ((event :: rest).filterMap Event.time?).Chain (· ≤ ·) bound) :
    (∀ now, event.time? = some now → bound ≤ now) ∧
      (rest.filterMap Event.time?).Chain (· ≤ ·) (event.time?.getD bound) := by
  rw [List.filterMap_cons] at shared
  cases time : event.time? with
  | none =>
    rw [time] at shared
    exact ⟨fun _ none => (nomatch none), shared⟩
  | some now =>
    rw [time] at shared
    exact ⟨fun _ same => Option.some.inj same ▸ (List.chain_cons.mp shared).1,
      (List.chain_cons.mp shared).2⟩

/-- Runs whose clock readings are no earlier than `bound` and than each other, and whose spawns
start one worker per address, keep the cluster ordered. -/
theorem Ordered.run (events : List Event) (ordered : c.Ordered bound)
    (shared : (events.filterMap Event.time?).Chain (· ≤ ·) bound)
    (distinct : ∀ addrs ∈ events.filterMap Event.addrs?, addrs.Nodup)
    (ran : c.run events = some final) :
    ∃ bound', final.Ordered bound' := by
  induction events generalizing c bound with
  | nil =>
    cases ran
    exact ⟨bound, ordered⟩
  | cons event rest ih =>
    obtain ⟨next, stepped, ran⟩ := run_cons_eq_some.mp ran
    obtain ⟨later, shared⟩ := chain_time?_cons shared
    have spawned : ∀ addrs, event.addrs? = some addrs → addrs.Nodup := fun addrs started =>
      distinct addrs (List.mem_filterMap.mpr ⟨event, .head _, started⟩)
    exact ih (ordered.step later spawned stepped) shared
      (fun addrs member =>
        distinct addrs (List.filterMap_subset _ (List.subset_cons_self _ _) member))
      ran

/-- In every state a cluster of fresh readers reaches while every clock reading is no earlier
than the readings before it, as with one clock the readers share, and every `readFromBackends`
starts its workers on distinct addresses: every list of every reader's history, and of the
payload it marshalled last, is sorted by timestamp, whatever order the workers append in. -/
theorem sorted_of_shared_clock (clocks : Nat → Time) (events : List Event) (final : Cluster)
    (shared : (events.filterMap Event.time?).Sorted (· ≤ ·))
    (oneWorkerEach : ∀ addrs ∈ events.filterMap Event.addrs?, addrs.Nodup)
    (ran : ({ clocks } : Cluster).run events = some final) (node : Nat) :
    (final.nodes node).reader.history.TimeSorted ∧
      ∀ payload, (final.nodes node).reader.marshalledHistory = some payload →
        payload.TimeSorted := by
  have chain : (events.filterMap Event.time?).Chain (· ≤ ·)
      ((events.filterMap Event.time?).headD 0) := by
    cases times : events.filterMap Event.time? with
    | nil => exact .nil
    | cons first rest =>
      rw [times] at shared
      exact .cons le_rfl (List.Pairwise.chain' shared)
  obtain ⟨bound, ordered⟩ :=
    Ordered.run events (Ordered.fresh clocks _) chain oneWorkerEach ran
  exact ⟨(ordered node).sorted.1.timeSorted,
    fun payload marshalled => ((ordered node).sorted.2 payload marshalled).timeSorted⟩

/-- Two readers register one rule; reader 0 scrapes `b`, reading 100, and marshals, and reader 1
fetches its payload and scrapes `b`, reading `now`. -/
def fetchThenScrape (now : Time) : List Event :=
  [.act 0 (.addQueryRule "k" ⟨["m"], 1000000000, fun _ => ⟨0⟩, fun _ => ⟨0⟩, .vector⟩),
    .act 1 (.addQueryRule "k" ⟨["m"], 1000000000, fun _ => ⟨0⟩, fun _ => ⟨0⟩, .vector⟩),
    .spawn 0 ["b"], .readClock 0 "b" 100,
    .scrape 0 ((∅ : MetricFamilies).insert "m" ⟨[]⟩) "b" 100, .act 0 (.marshalHistory ["b"]),
    .fetch 1 0, .spawn 1 ["b"], .readClock 1 "b" now,
    .scrape 1 ((∅ : MetricFamilies).insert "m" ⟨[]⟩) "b" now]

theorem sorted_of_shared_clock_fetch_then_scrape :
    ∃ final, ({ clocks := fun _ => 0 } : Cluster).run (fetchThenScrape 150) = some final ∧
      (final.nodes 1).reader.history.TimeSorted ∧
      ∀ payload, (final.nodes 1).reader.marshalledHistory = some payload → payload.TimeSorted :=
  ⟨_, rfl, sorted_of_shared_clock (fun _ => 0) (fetchThenScrape 150) _ (by decide) (by decide)
    rfl 1⟩

/-- With the owner's clock at 100 and the follower's at 50, neither clock goes back, but the
follower's step-1 list of `b` holds 100 then 50. -/
theorem follower_clock_behind_unsorted :
    ∃ final, ({} : Cluster).run (fetchThenScrape 50) = some final ∧
      ((final.nodes 1).reader.history.get "k" "b").step1History.map (·.timestamp) = [100, 50] ∧
      ¬((final.nodes 1).reader.history.get "k" "b").step1History.Sorted
        (fun first second => first.timestamp ≤ second.timestamp) :=
  ⟨_, rfl, by decide, by decide⟩

/-- A topology that lists the status address `b` twice: the two workers of one reader read the
one clock at 100 and then 200, and append in the other order. -/
theorem one_address_twice_unsorted :
    ∃ final, ({} : Cluster).run
        [.act 0 (.addQueryRule "k" ⟨["m"], 1000000000, fun _ => ⟨0⟩, fun _ => ⟨0⟩, .vector⟩),
          .spawn 0 ["b", "b"], .readClock 0 "b" 100, .readClock 0 "b" 200,
          .scrape 0 ((∅ : MetricFamilies).insert "m" ⟨[]⟩) "b" 200,
          .scrape 0 ((∅ : MetricFamilies).insert "m" ⟨[]⟩) "b" 100] = some final ∧
      ((final.nodes 0).reader.history.get "k" "b").step1History.map (·.timestamp) = [200, 100] :=
  ⟨_, rfl, by decide⟩

end Cluster

end TiProxy.Metrics
