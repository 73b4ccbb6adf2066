import TiProxy.Model.Metrics.Reader

/-! # A cluster of backend readers

Every TiProxy instance runs a `BackendReader`. The owner of a tick scrapes the backends:
`readFromBackends` starts one worker per address `getBackendAddrs` returned, and each worker's
`metric2History` reads its reader's clock before it takes the mutex and appends the samples
stamped with that reading, so the workers of one reader append in any order. The other readers
fetch the history the owner marshalled with `readFromOwner` and merge it into theirs.
`ReadMetrics` fetches before it scrapes and `readFromBackends` waits for its workers, so a reader
merges a fetched history, and starts workers, only when none of its workers is running. A
reader's clock never goes back. Ownership moves between instances, so a reader appends its own
samples to lists that other readers' clocks stamped.
-/

namespace TiProxy.Metrics

namespace BackendReader

/-- The results a `mergeQueryResult` whose type assertion panicked leaves behind, once
`RunWithRecover` has recovered the worker: those of the rules it merged before the one that
panicked. -/
def mergeUntilPanic (backend : String) (now : Nat) :
    (String → QueryResult) → List (Σ _ : String, Value) → String → QueryResult
  | queryResults, [] => queryResults
  | queryResults, entry :: rest =>
    match mergeRuleResult backend now (queryResults entry.1) entry.2 with
    | some merged => mergeUntilPanic backend now (Function.update queryResults entry.1 merged) rest
    | none => queryResults

end BackendReader

/-- The readers of a cluster, the last reading of each reader's clock, and the workers of each
reader's running `readFromBackends`: the address each reads, with the clock reading it took once
it took one. -/
structure Cluster where
  nodes : Nat → System := fun _ => {}
  clocks : Nat → Time := fun _ => 0
  workers : Nat → List (String × Option Time) := fun _ => []

/-- One event of a cluster. -/
inductive Cluster.Event where
  /-- `readFromBackends` of `reader` starts one worker per address of `addrs`. -/
  | spawn (reader : Nat) (addrs : List String)
  /-- The worker of `reader` for `backend` returns before `metric2History`: its request or its
  parse failed, or the context was cancelled. -/
  | quit (reader : Nat) (backend : String)
  /-- `time.Now()` at the start of `metric2History` in the worker of `reader` for `backend`. -/
  | readClock (reader : Nat) (backend : String) (now : Time)
  /-- The rest of that `metric2History`, under the mutex: it appends the families scraped from
  `backend`, stamped with the reading `now` the worker took. -/
  | scrape (reader : Nat) (mfs : MetricFamilies) (backend : String) (now : Time)
  /-- The `mergeHistory` of `readFromOwner` of `follower` on the payload `owner` marshalled last;
  an empty response merges nothing. -/
  | fetch (follower owner : Nat)
  /-- Any other section of `reader` on its own state. -/
  | act (reader : Nat) (sec : Section)
  /-- A `mergeQueryResult` of `reader` for `backend` that panicked, recovered by
  `RunWithRecover`. -/
  | recover (reader : Nat) (backend : String) (now : Nat)

namespace Cluster

/-- The clock reading an event takes. -/
def Event.time? : Event → Option Time
  | .readClock _ _ now => some now
  | _ => none

/-- The addresses an event starts workers for. -/
def Event.addrs? : Event → Option (List String)
  | .spawn _ addrs => some addrs
  | _ => none

/-- A section that a reader runs on its own: not a scrape, which the workers run, and not a merge
of a fetched payload. -/
def isLocal : Section → Bool
  | .metric2History .. => false
  | .mergeHistory _ => false
  | _ => true

/-- One event; `none` when a clock would go back, no worker can take the event, a section is not
the reader's own, or a merge panics and nothing recovers it. -/
def step (c : Cluster) : Event → Option Cluster
  | .spawn reader addrs =>
    if c.workers reader = [] then
      some { c with workers := Function.update c.workers reader (addrs.map (·, none)) }
    else none
  | .quit reader backend =>
    if (backend, none) ∈ c.workers reader then
      some { c with
        workers := Function.update c.workers reader ((c.workers reader).erase (backend, none)) }
    else none
  | .readClock reader backend now =>
    if (backend, none) ∈ c.workers reader ∧ c.clocks reader ≤ now then
      some { c with
        clocks := Function.update c.clocks reader now
        workers := Function.update c.workers reader
          ((c.workers reader).erase (backend, none) ++ [(backend, some now)]) }
    else none
  | .scrape reader mfs backend now =>
    if (backend, some now) ∈ c.workers reader then
      some {
        nodes := Function.update c.nodes reader
          { c.nodes reader with reader := (c.nodes reader).reader.metric2History mfs backend now }
        clocks := c.clocks
        workers := Function.update c.workers reader ((c.workers reader).erase (backend, some now)) }
    else none
  | .fetch follower owner =>
    if c.workers follower = [] then
      match (c.nodes owner).reader.marshalledHistory with
      | none => some c
      | some payload =>
        some { c with
          nodes := Function.update c.nodes follower
            { c.nodes follower with reader := (c.nodes follower).reader.mergeHistory payload } }
    else none
  | .act reader sec =>
    if isLocal sec then
      ((c.nodes reader).step sec).map fun node =>
        { c with nodes := Function.update c.nodes reader node }
    else none
  | .recover reader backend now =>
    let node := c.nodes reader
    match node.reader.mergeQueryResult (node.pending backend) backend now with
    | some _ => none
    | none =>
      some { c with
        nodes := Function.update c.nodes reader
          { node with reader := { node.reader with
            queryResults := BackendReader.mergeUntilPanic backend now node.reader.queryResults
              (node.pending backend).entries } } }

/-- A run of events; `none` when one of them fails. -/
def run (c : Cluster) : List Event → Option Cluster
  | [] => some c
  | event :: rest => (c.step event).bind fun next => next.run rest

theorem run_cons_eq_some {c final : Cluster} {event : Event} {rest : List Event} :
    c.run (event :: rest) = some final ↔
      ∃ next, c.step event = some next ∧ next.run rest = some final :=
  Option.bind_eq_some

end Cluster

end TiProxy.Metrics
