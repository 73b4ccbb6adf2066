import Mathlib.Data.List.AList
import Mathlib.Data.Rat.Defs

/-! # The replay engine

A replay job runs two goroutines on the state of `replay`: the pacer (`readCommands`), which
decodes commands, filters `ComChangeUser`, and dispatches the others through `executeCmd`; and
the close drain (`readCloseCh`), which turns a closed connection into a nil entry of `conns`.
`Stop`, `Close` and `Progress` come from other goroutines. Each of these steps is atomic here:
the locked sections are atomic in the code, and the pacer's unlocked counter increments are
single steps of its own goroutine. A step returns the calls it makes on the outside world:
`connCreator`, `Conn.ExecuteCmd`, and the values `Progress` returns.
-/

namespace TiProxy.SqlReplay

/-- `pnet.Command`, the MySQL command byte. -/
abbrev CommandType := UInt8

/-- `pnet.ComChangeUser`. -/
def comChangeUser : CommandType := 17

/-- Modelled from the spec: `cmd.Command`, declared outside src/, with the fields the replay
reads. -/
structure Command where
  connID : UInt64
  type : CommandType
  payload : List UInt8
deriving DecidableEq, Repr

/-- Where the pacer goroutine `readCommands` is. -/
inductive Pacer where
  /-- No pacer runs: before `Start`, or after `readCommands` returned. -/
  | stopped
  /-- At the loop condition `ctx.Err() == nil`. -/
  | atLoopHead
  /-- Inside the loop, decoding the next command. -/
  | decoding
  /-- Holding a decoded command other than `ComChangeUser`, waiting for its time. -/
  | pacing (command : Command)
deriving DecidableEq, Repr

/-- The fields of `replay` that its methods read and write. The context of the job is kept as
`cancelled`, the start time as `running` (`!r.startTime.IsZero()`), and `meta.Cmds` as
`metaCmds`. `progress` is the float64 quotient `float64(a) / float64(b)`, exact for counts below
2^53. -/
structure Replay (Conn : Type) where
  metaCmds : Nat := 0
  conns : AList (fun _ : UInt64 => Option Conn) := ∅
  connCount : Int := 0
  err : Option String := none
  running : Bool := false
  cancelled : Bool := false
  progress : ℚ := 0
  replayedCmds : Nat := 0
  filteredCmds : Nat := 0
  pacer : Pacer := .stopped

/-- A call the replay makes on its collaborators, or a value `Progress` returns. -/
inductive Call (Conn : Type) where
  | connCreator (connID : UInt64)
  | executeCmd (conn : Conn) (command : Command)
  | progress (value : ℚ) (err : Option String)

/-- An atomic step of one of the goroutines that share a replay job. -/
inductive Event where
  /-- The pacer checks `ctx.Err()` at the loop head. -/
  | loopCheck
  /-- `command.Decode` returns a command. -/
  | decode (command : Command)
  /-- `command.Decode` fails: `none` is `io.EOF`, which stops the job with a nil error. -/
  | decodeFails (err : Option String)
  /-- The pacer's wait ends and it dispatches the command it holds. -/
  | dispatch
  /-- The close drain receives a connection ID from `closeCh`. -/
  | closeEvent (connID : UInt64)
  /-- Another goroutine calls `Stop(err)`. -/
  | stop (err : Option String)
  /-- Another goroutine calls `Close()`. -/
  | close
  /-- Another goroutine calls `Progress()`. -/
  | progress
deriving DecidableEq, Repr

namespace Replay

variable {Conn : Type}

/-- `Start` after `Validate` passed, with `meta.Cmds` as read from the input; a meta that fails
to read is the zero `Meta`. The counters, `err` and `connCount` keep their values. -/
def start (r : Replay Conn) (metaCmds : Nat) : Replay Conn :=
  { r with
    metaCmds := metaCmds
    progress := 0
    conns := ∅
    running := true
    cancelled := false
    pacer := .atLoopHead }

/-- `float64(r.replayedCmds+r.filteredCmds) / float64(r.meta.Cmds)`. -/
def ratio (r : Replay Conn) : ℚ :=
  ((r.replayedCmds + r.filteredCmds : Nat) : ℚ) / r.metaCmds

/-- `Stop(err)`: the first call after `Start` cancels the job and records its outcome. -/
def stop (r : Replay Conn) (err : Option String) : Replay Conn :=
  -- already stopped
  if !r.running then r else
  let r := { r with cancelled := true, running := false }
  match err with
  | some err =>
    { r with err := some err, progress := (if r.metaCmds > 0 then r.ratio else r.progress) }
  | none => { r with progress := 1 }

/-- `Progress()`: the state it leaves and the values it returns. -/
def progressOf (r : Replay Conn) : Replay Conn × ℚ × Option String :=
  let r := if r.metaCmds > 0 then { r with progress := r.ratio } else r
  (r, r.progress, r.err)

/-- `executeCmd`: the first command of a connection ID creates its connection; a nil entry, left
by a closed connection, drops the command. -/
def executeCmd (connCreator : UInt64 → Conn) (r : Replay Conn) (command : Command) :
    Replay Conn × List (Call Conn) :=
  match r.conns.lookup command.connID with
  | none =>
    let conn := connCreator command.connID
    ({ r with conns := r.conns.insert command.connID (some conn), connCount := r.connCount + 1 },
      [.connCreator command.connID, .executeCmd conn command])
  | some (some conn) => (r, [.executeCmd conn command])
  | some none => (r, [])

/-- One close event of `readCloseCh`: keep the disconnected connection in the map as nil to
reject subsequent commands with the same connection ID. -/
def closeConn (r : Replay Conn) (connID : UInt64) : Replay Conn :=
  match r.conns.lookup connID with
  | some (some _) => { r with conns := r.conns.insert connID none, connCount := r.connCount - 1 }
  | _ => r

section Spec

variable {connCreator : UInt64 → Conn} {r : Replay Conn} {command : Command} {connID : UInt64}

theorem executeCmd_of_lookup_none (fresh : r.conns.lookup command.connID = none) :
    r.executeCmd connCreator command =
      ({ r with
          conns := r.conns.insert command.connID (some (connCreator command.connID))
          connCount := r.connCount + 1 },
        [.connCreator command.connID, .executeCmd (connCreator command.connID) command]) := by
  simp only [executeCmd, fresh]

theorem executeCmd_of_lookup_some {conn : Conn}
    (found : r.conns.lookup command.connID = some (some conn)) :
    r.executeCmd connCreator command = (r, [.executeCmd conn command]) := by
  simp only [executeCmd, found]

theorem executeCmd_of_lookup_nil (closed : r.conns.lookup command.connID = some none) :
    r.executeCmd connCreator command = (r, []) := by
  simp only [executeCmd, closed]

theorem closeConn_of_lookup_some {conn : Conn} (found : r.conns.lookup connID = some (some conn)) :
    r.closeConn connID =
      { r with conns := r.conns.insert connID none, connCount := r.connCount - 1 } := by
  simp only [closeConn, found]

theorem closeConn_of_not_open (shut : ∀ conn, r.conns.lookup connID ≠ some (some conn)) :
    r.closeConn connID = r := by
  unfold closeConn
  split
  · exact absurd ‹_› (shut _)
  · rfl

@[simp] theorem start_conns (metaCmds : Nat) : (r.start metaCmds).conns = ∅ := rfl

@[simp] theorem start_metaCmds (metaCmds : Nat) : (r.start metaCmds).metaCmds = metaCmds := rfl

@[simp] theorem stop_conns (err : Option String) : (r.stop err).conns = r.conns := by
  unfold stop; split <;> cases err <;> rfl

@[simp] theorem stop_connCount (err : Option String) : (r.stop err).connCount = r.connCount := by
  unfold stop; split <;> cases err <;> rfl

@[simp] theorem stop_metaCmds (err : Option String) : (r.stop err).metaCmds = r.metaCmds := by
  unfold stop; split <;> cases err <;> rfl

@[simp] theorem executeCmd_fst_metaCmds :
    (r.executeCmd connCreator command).1.metaCmds = r.metaCmds := by
  unfold executeCmd; split <;> rfl

@[simp] theorem executeCmd_fst_running :
    (r.executeCmd connCreator command).1.running = r.running := by
  unfold executeCmd; split <;> rfl

@[simp] theorem executeCmd_fst_err : (r.executeCmd connCreator command).1.err = r.err := by
  unfold executeCmd; split <;> rfl

@[simp] theorem executeCmd_fst_progress :
    (r.executeCmd connCreator command).1.progress = r.progress := by
  unfold executeCmd; split <;> rfl

@[simp] theorem stop_pacer (err : Option String) : (r.stop err).pacer = r.pacer := by
  unfold stop; split <;> cases err <;> rfl

@[simp] theorem closeConn_pacer : (r.closeConn connID).pacer = r.pacer := by
  unfold closeConn; split <;> rfl

@[simp] theorem progressOf_fst_pacer : r.progressOf.1.pacer = r.pacer := by
  unfold progressOf; split <;> rfl

@[simp] theorem progressOf_fst_conns : r.progressOf.1.conns = r.conns := by
  unfold progressOf; split <;> rfl

@[simp] theorem progressOf_fst_connCount : r.progressOf.1.connCount = r.connCount := by
  unfold progressOf; split <;> rfl

@[simp] theorem progressOf_fst_metaCmds : r.progressOf.1.metaCmds = r.metaCmds := by
  unfold progressOf; split <;> rfl

end Spec

/-- One atomic step; `none` when the event cannot happen in the current state. -/
def step (connCreator : UInt64 → Conn) (r : Replay Conn) :
    Event → Option (Replay Conn × List (Call Conn))
  | .loopCheck =>
    match r.pacer with
    | .atLoopHead =>
      some ({ r with pacer := if r.cancelled then .stopped else .decoding }, [])
    | _ => none
  | .decode command =>
    match r.pacer with
    | .decoding =>
      -- Replayer always uses the same username. It has no passwords for other users.
      if command.type = comChangeUser then
        some ({ r with filteredCmds := r.filteredCmds + 1, pacer := .atLoopHead }, [])
      else some ({ r with pacer := .pacing command }, [])
    | _ => none
  | .decodeFails err =>
    match r.pacer with
    | .decoding => some ({ r.stop err with pacer := .stopped }, [])
    | _ => none
  | .dispatch =>
    match r.pacer with
    | .pacing command =>
      if r.cancelled then some ({ r with pacer := .stopped }, [])
      else
        let (r, calls) := executeCmd connCreator { r with replayedCmds := r.replayedCmds + 1 } command
        some ({ r with pacer := .atLoopHead }, calls)
    | _ => none
  | .closeEvent connID => some (r.closeConn connID, [])
  | .stop err => some (r.stop err, [])
  | .close => some (r.stop (some "shutting down"), [])
  | .progress =>
    let (r, value, err) := r.progressOf
    some (r, [.progress value err])

/-- A run of events from a state: the final state and the calls made, in order. -/
def run (connCreator : UInt64 → Conn) (r : Replay Conn) :
    List Event → Option (Replay Conn × List (Call Conn))
  | [] => some (r, [])
  | event :: rest => do
    let (r, calls) ← r.step connCreator event
    let (r, later) ← run connCreator r rest
    pure (r, calls ++ later)

/-- The command a step hands to `executeCmd`: the one the pacer holds, at a dispatch that finds
the job not cancelled. -/
def dispatchedBy (r : Replay Conn) : Event → List Command
  | .dispatch =>
    match r.pacer with
    | .pacing command => if r.cancelled then [] else [command]
    | _ => []
  | _ => []

/-- What `observe` reports of each step of a run, in order. -/
def observed {O : Type} (observe : Replay Conn → Event → List O) (connCreator : UInt64 → Conn) :
    Replay Conn → List Event → List O
  | _, [] => []
  | r, event :: rest =>
    match r.step connCreator event with
    | some (next, _) => observe r event ++ observed observe connCreator next rest
    | none => []

section StepSpec

variable {connCreator : UInt64 → Conn} {r next : Replay Conn} {event : Event}
  {emitted : List (Call Conn)}

/-- `executeCmd` reads only the connection table of the state. -/
theorem executeCmd_table (connCreator : UInt64 → Conn) (r r' : Replay Conn)
    (conns : r'.conns = r.conns)
    (count : r'.connCount = r.connCount) (command : Command) :
    (r'.executeCmd connCreator command).1.conns = (r.executeCmd connCreator command).1.conns ∧
      (r'.executeCmd connCreator command).1.connCount =
        (r.executeCmd connCreator command).1.connCount ∧
      (r'.executeCmd connCreator command).2 = (r.executeCmd connCreator command).2 := by
  unfold executeCmd
  rw [conns, count]
  split <;> simp only [conns, count, and_self]

/-- What a step does to the connection table and which calls it makes: a dispatch that finds
the job running runs `executeCmd` on the command it dispatches, a close event runs `closeConn`,
and every other step leaves the table alone and makes at most a `Progress` call. -/
theorem step_connections (stepped : r.step connCreator event = some (next, emitted)) :
    (∃ command, r.dispatchedBy event = [command] ∧
      next.conns = (r.executeCmd connCreator command).1.conns ∧
      next.connCount = (r.executeCmd connCreator command).1.connCount ∧
      emitted = (r.executeCmd connCreator command).2) ∨
    (∃ connID, r.dispatchedBy event = [] ∧ next = r.closeConn connID ∧ emitted = []) ∨
    (r.dispatchedBy event = [] ∧ next.conns = r.conns ∧ next.connCount = r.connCount ∧
      ∀ call ∈ emitted, ∃ value err, call = .progress value err) := by
  have quiet : ∀ {next : Replay Conn}, next.conns = r.conns → next.connCount = r.connCount →
      r.dispatchedBy event = [] → (r.dispatchedBy event = [] ∧ next.conns = r.conns ∧
        next.connCount = r.connCount ∧ ∀ call ∈ ([] : List (Call Conn)),
          ∃ value err, call = .progress value err) :=
    fun conns count none => ⟨none, conns, count, by simp⟩
  cases event with
  | loopCheck =>
    simp only [step] at stepped
    split at stepped <;> cases stepped
    exact .inr (.inr (quiet rfl rfl rfl))
  | decode command =>
    simp only [step] at stepped
    split at stepped
    · split at stepped <;> cases stepped <;> exact .inr (.inr (quiet rfl rfl rfl))
    · cases stepped
  | decodeFails err =>
    simp only [step] at stepped
    split at stepped <;> cases stepped
    exact .inr (.inr (quiet (stop_conns err) (stop_connCount err) rfl))
  | dispatch =>
    simp only [step] at stepped
    split at stepped
    · rename_i command pacing
      split at stepped <;> rename_i cancelled <;> cases stepped
      · exact .inr (.inr (quiet rfl rfl (by simp only [dispatchedBy, pacing, cancelled, if_true])))
      · obtain ⟨conns, count, calls⟩ :=
          executeCmd_table connCreator r { r with replayedCmds := r.replayedCmds + 1 } rfl rfl command
        exact .inl ⟨command, by simp [dispatchedBy, pacing, cancelled],
          conns, count, calls⟩
    · cases stepped
  | closeEvent connID =>
    cases stepped
    exact .inr (.inl ⟨connID, rfl, rfl, rfl⟩)
  | stop _ | close =>
    cases stepped
    exact .inr (.inr (quiet (stop_conns _) (stop_connCount _) rfl))
  | progress =>
    cases stepped
    exact .inr (.inr ⟨rfl, progressOf_fst_conns, progressOf_fst_connCount, by simp⟩)

end StepSpec

section Runs

variable {connCreator : UInt64 → Conn}

theorem run_cons_eq_some {r final : Replay Conn} {event : Event} {rest : List Event}
    {calls : List (Call Conn)} :
    r.run connCreator (event :: rest) = some (final, calls) ↔
      ∃ next emitted later, r.step connCreator event = some (next, emitted) ∧
        next.run connCreator rest = some (final, later) ∧ calls = emitted ++ later := by
  simp only [run, Option.bind_eq_bind, Option.bind_eq_some, Option.pure_def, Option.some.injEq,
    Prod.exists]
  constructor
  · rintro ⟨next, emitted, stepped, final', later, ran, same⟩
    obtain ⟨rfl, rfl⟩ := Prod.mk.inj same
    exact ⟨next, emitted, later, stepped, ran, rfl⟩
  · rintro ⟨next, emitted, later, stepped, ran, rfl⟩
    exact ⟨next, emitted, stepped, final, later, ran, rfl⟩

theorem observed_cons {O : Type} {observe : Replay Conn → Event → List O} {r next : Replay Conn}
    {event : Event} {emitted : List (Call Conn)} (rest : List Event)
    (stepped : r.step connCreator event = some (next, emitted)) :
    observed observe connCreator r (event :: rest) =
      observe r event ++ observed observe connCreator next rest := by
  simp only [observed, stepped]

/-- A property of the state, the calls made so far and the observations so far that every step
keeps holds after every run. -/
theorem run_invariant {O : Type} (observe : Replay Conn → Event → List O)
    (Inv : Replay Conn → List (Call Conn) → List O → Prop)
    (preserved : ∀ r calls seen event next emitted, Inv r calls seen →
      r.step connCreator event = some (next, emitted) →
        Inv next (calls ++ emitted) (seen ++ observe r event)) :
    ∀ (events : List Event) (r final : Replay Conn) calls seen later, Inv r calls seen →
      r.run connCreator events = some (final, later) →
        Inv final (calls ++ later) (seen ++ observed observe connCreator r events)
  | [], r, final, calls, seen, later, holds, ran => by
    simp only [run, Option.some.injEq, Prod.mk.injEq] at ran
    obtain ⟨rfl, rfl⟩ := ran
    simpa [observed] using holds
  | event :: rest, r, final, calls, seen, later, holds, ran => by
    obtain ⟨next, emitted, afterwards, stepped, ranRest, rfl⟩ := run_cons_eq_some.mp ran
    have after := run_invariant observe Inv preserved rest next final _ _ afterwards
      (preserved r calls seen event next emitted holds stepped) ranRest
    simpa only [observed_cons rest stepped, List.append_assoc] using after

end Runs

end Replay

end TiProxy.SqlReplay
