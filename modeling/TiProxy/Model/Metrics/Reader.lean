import TiProxy.Model.Metrics.Results

/-! # The backend reader as a system of critical sections

Every method of `BackendReader` that touches its state holds its mutex for the whole call, so a
run of the reader is a sequence of atomic sections. A worker of `readFromBackends` and the loop
of `readFromOwner` call `history2Value` and then `mergeQueryResult` as two sections, and other
sections can run between the two: the value a worker got from `history2Value` is kept in
`pending` until it merges it. `readFromBackends` and `readFromOwner` are the section sequences
their goroutines issue; a run of sections is the interleaving the mutex picked.
-/

namespace TiProxy.Metrics

namespace BackendReader

/-- `AddQueryRule`. -/
def addQueryRule (br : BackendReader) (key : String) (rule : QueryRule) : BackendReader :=
  { br with queryRules := br.queryRules.insert key rule }

/-- `RemoveQueryRule`: only the rule goes; its history and its result stay. -/
def removeQueryRule (br : BackendReader) (key : String) : BackendReader :=
  { br with queryRules := br.queryRules.erase key }

end BackendReader

/-- One critical section of the reader, or one call of its API. -/
inductive Section where
  | addQueryRule (key : String) (rule : QueryRule)
  | removeQueryRule (key : String)
  /-- `metric2History` on the families scraped from `backend`, at the time it read. -/
  | metric2History (mfs : MetricFamilies) (backend : String) (now : Time)
  /-- `history2Value` of a worker, whose value the worker keeps until it merges it. -/
  | history2Value (backend : String)
  /-- `mergeQueryResult` of the value the worker of `backend` holds, at monotonic time `now`. -/
  | mergeQueryResult (backend : String) (now : Nat)
  | mergeHistory (newHistory : History)
  | purgeHistory (now : Int)
  | marshalHistory (backends : List String)

/-- The reader, and per backend the value its worker got from `history2Value`. -/
structure System where
  reader : BackendReader := {}
  pending : String → StrMap Value := fun _ => ∅

namespace System

/-- One section; `none` when `mergeQueryResult` panics. -/
def step (s : System) : Section → Option System
  | .addQueryRule key rule => some { s with reader := s.reader.addQueryRule key rule }
  | .removeQueryRule key => some { s with reader := s.reader.removeQueryRule key }
  | .metric2History mfs backend now =>
    some { s with reader := s.reader.metric2History mfs backend now }
  | .history2Value backend =>
    some { s with pending := Function.update s.pending backend (s.reader.history2Value backend) }
  | .mergeQueryResult backend now =>
    (s.reader.mergeQueryResult (s.pending backend) backend now).map fun reader => { s with reader }
  | .mergeHistory newHistory => some { s with reader := s.reader.mergeHistory newHistory }
  | .purgeHistory now => some { s with reader := s.reader.purgeHistory now }
  | .marshalHistory backends => some { s with reader := s.reader.marshalHistory backends }

/-- A run of sections; `none` when one of them panics. -/
def run (s : System) : List Section → Option System
  | [] => some s
  | sec :: rest => (s.step sec).bind fun next => next.run rest

/-- The merge a section performs: the backend and the values merged. -/
def mergeOf (s : System) : Section → List (String × StrMap Value)
  | .mergeQueryResult backend _ => [(backend, s.pending backend)]
  | _ => []

/-- The merges a run performs, in order. -/
def merges (s : System) : List Section → List (String × StrMap Value)
  | [] => []
  | sec :: rest =>
    match s.step sec with
    | none => []
    | some next => s.mergeOf sec ++ next.merges rest

theorem run_append (s : System) (first second : List Section) :
    s.run (first ++ second) = (s.run first).bind fun mid => mid.run second := by
  induction first generalizing s with
  | nil => rfl
  | cons sec rest ih =>
    simp only [List.cons_append, run]
    cases s.step sec with
    | none => rfl
    | some next => exact ih next

theorem run_cons_eq_some {s final : System} {sec : Section} {rest : List Section} :
    s.run (sec :: rest) = some final ↔
      ∃ next, s.step sec = some next ∧ next.run rest = some final :=
  Option.bind_eq_some

/-- A property of the state and the merges so far that every allowed section keeps, and under
which no allowed section panics, holds after every run of allowed sections, and the run ends. -/
theorem run_of_invariant (Inv : System → List (String × StrMap Value) → Prop)
    (allowed : Section → Prop)
    (preserved : ∀ s merged sec, allowed sec → Inv s merged →
      ∃ next, s.step sec = some next ∧ Inv next (merged ++ s.mergeOf sec)) :
    ∀ (sections : List Section) (s : System) merged, (∀ sec ∈ sections, allowed sec) →
      Inv s merged → ∃ final, s.run sections = some final ∧ Inv final (merged ++ s.merges sections)
  | [], s, merged, _, holds => ⟨s, rfl, by simpa [merges] using holds⟩
  | sec :: rest, s, merged, all, holds => by
    obtain ⟨next, stepped, holdsNext⟩ := preserved s merged sec (all sec (.head _)) holds
    obtain ⟨final, ran, holdsFinal⟩ := run_of_invariant Inv allowed preserved rest next _
      (fun sec member => all sec (.tail _ member)) holdsNext
    refine ⟨final, by simp [run, stepped, ran], ?_⟩
    simpa [merges, stepped, List.append_assoc] using holdsFinal

end System

/-- The section a worker of `readFromBackends` runs the `stage`-th time it holds the mutex: its
`metric2History`, its `history2Value`, then its `mergeQueryResult`. -/
def workerSection (backend : String) (scrape : MetricFamilies × Time × Nat) :
    Nat → Option Section
  | 0 => some (.metric2History scrape.1 backend scrape.2.1)
  | 1 => some (.history2Value backend)
  | 2 => some (.mergeQueryResult backend scrape.2.2)
  | _ => none

/-- The sections of the workers of one `readFromBackends`, in the order in which `schedule`
gives them the mutex (each occurrence of a backend is its worker's next section, `done` the
backends scheduled before). A worker whose scrape or parse failed runs none: its `scrape` is
`none`; otherwise it holds the parsed families and the readings of the two clocks. -/
def interleave (scrape : String → Option (MetricFamilies × Time × Nat)) :
    List String → List String → List Section
  | _, [] => []
  | done, backend :: rest =>
    ((scrape backend).bind fun result =>
        workerSection backend result (done.count backend)).toList ++
      interleave scrape (done ++ [backend]) rest

/-- `collectAllNames`: the metric names of all rules, each once. -/
def collectAllNames (br : BackendReader) : List String :=
  br.queryRules.entries.foldl (fun names entry =>
    entry.2.names.foldl (fun names name =>
      if name ∈ names then names else names ++ [name]) names) []

/-- `readFromBackends` of the reader `br` on the status addresses `addrs`: nothing without an
address or a metric name; otherwise the workers' sections in the order of `schedule`, then
`marshalHistory` after `Wait`. -/
def readFromBackends (br : BackendReader) (addrs : List String)
    (scrape : String → Option (MetricFamilies × Time × Nat)) (schedule : List String) :
    List Section :=
  if addrs.isEmpty || (collectAllNames br).isEmpty then []
  else interleave scrape [] schedule ++ [.marshalHistory addrs]

/-- The backends of a decoded owner response, in one iteration order. -/
def payloadBackends (newHistory : History) : List String :=
  (newHistory.entries.flatMap fun entry => entry.2.keys).dedup

/-- `readFromOwner` on the owner's response: nothing for an empty response; otherwise merge the
decoded history, then recompute and merge the result of each backend it holds, at the
monotonic times `now`. -/
def readFromOwner (response : Option History) (now : String → Nat) : List Section :=
  match response with
  | none => []
  | some newHistory =>
    .mergeHistory newHistory :: (payloadBackends newHistory).flatMap fun backend =>
      [.history2Value backend, .mergeQueryResult backend (now backend)]

end TiProxy.Metrics
