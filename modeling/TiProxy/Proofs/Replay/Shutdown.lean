import TiProxy.Model.Replay.Replay
import Mathlib.Tactic.NormNum

/-! # A stopped replay job keeps its outcome

`Stop`, `Close` and the end or failure of the input stop the job: `Stop` cancels the context,
records the error, and clears the start time, so every later `Stop` returns at once. Whatever the
goroutines do afterwards, until the next `Start`, the job stays stopped with the error it stopped
with: a `Close` after a failure does not replace the failure by "shutting down", and a job that
reached the end of its input keeps its nil error.

The model makes the pacer's check of the context and its call of `executeCmd` one step, while the
code checks the context before it takes the lock, so a command that passed the check may still be
executed after `Stop`. Nothing here depends on that: no step but `Stop` writes the error or the
start time.

The progress is not part of that outcome. `Stop` with a nil error records and logs progress 1,
but `Progress()` recomputes the decoded count over `meta.Cmds` whenever `meta.Cmds` is positive,
unclamped, and `Start` resets neither the counters nor the error.
-/

namespace TiProxy.SqlReplay

/-- The events that stop the job: `Stop`, `Close`, and a failed decode. -/
def Event.stops : Event → Bool
  | .decodeFails _ | .stop _ | .close => true
  | _ => false

namespace Replay

variable {Conn : Type} {connCreator : UInt64 → Conn} {r next : Replay Conn} {event : Event}
  {emitted : List (Call Conn)}

/-- `executeCmd` changes only the connection table. -/
theorem executeCmd_fst_eq (command : Command) : ∃ conns connCount,
    (r.executeCmd connCreator command).1 = { r with conns := conns, connCount := connCount } := by
  unfold executeCmd
  split
  · exact ⟨_, _, rfl⟩
  · exact ⟨r.conns, r.connCount, rfl⟩
  · exact ⟨r.conns, r.connCount, rfl⟩

/-- A close event changes only the connection table. -/
theorem closeConn_eq (connID : UInt64) :
    ∃ conns connCount, r.closeConn connID = { r with conns := conns, connCount := connCount } := by
  unfold closeConn
  split
  · exact ⟨_, _, rfl⟩
  · exact ⟨r.conns, r.connCount, rfl⟩

/-- `Progress` changes only the progress. -/
theorem progressOf_fst_eq (r : Replay Conn) : ∃ progress, r.progressOf.1 = { r with progress } := by
  unfold progressOf
  split
  · exact ⟨_, rfl⟩
  · exact ⟨r.progress, rfl⟩

theorem stop_of_not_running (idle : r.running = false) (err : Option String) : r.stop err = r := by
  simp [stop, idle]

/-- From `Start` on, the job runs exactly while its context is not cancelled. -/
def RunFlags (r : Replay Conn) : Prop := r.running = !r.cancelled

/-- A stopped job: its context is cancelled and it no longer runs. -/
structure Stopped (r : Replay Conn) : Prop where
  cancelled : r.cancelled = true
  idle : r.running = false

theorem Stopped.runFlags (stopped : Stopped r) : RunFlags r := by
  rw [RunFlags, stopped.cancelled, stopped.idle]
  rfl

/-- `Stop` leaves the job stopped, whether it was running or had stopped before. -/
theorem stopped_stop (flags : RunFlags r) (err : Option String) : Stopped (r.stop err) := by
  cases running : r.running
  · rw [stop_of_not_running running]
    rw [RunFlags, running] at flags
    exact ⟨by simpa using flags.symm, running⟩
  · unfold stop
    rw [if_neg (by simp [running])]
    cases err <;> exact ⟨rfl, rfl⟩

/-- What a step does to the job's flags and error: a step that stops the job leaves them as
`Stop` does, and every other step keeps them. -/
theorem step_flags (stepped : r.step connCreator event = some (next, emitted)) :
    ∃ s : Replay Conn, (if event.stops then ∃ err, s = r.stop err else s = r) ∧
      next.running = s.running ∧ next.cancelled = s.cancelled ∧ next.err = s.err := by
  cases event with
  | stop err | close =>
    cases stepped
    exact ⟨_, ⟨_, rfl⟩, rfl, rfl, rfl⟩
  | decodeFails err =>
    simp only [step] at stepped
    split at stepped <;> cases stepped
    exact ⟨_, ⟨err, rfl⟩, rfl, rfl, rfl⟩
  | loopCheck | decode =>
    simp only [step] at stepped
    repeat' split at stepped
    all_goals first | cases stepped; exact ⟨r, rfl, rfl, rfl, rfl⟩ | cases stepped
  | dispatch =>
    simp only [step] at stepped
    split at stepped
    · split at stepped <;> cases stepped
      · exact ⟨r, rfl, rfl, rfl, rfl⟩
      · obtain ⟨conns, connCount, same⟩ :=
          @executeCmd_fst_eq _ connCreator { r with replayedCmds := r.replayedCmds + 1 } ‹_›
        rw [same]
        exact ⟨r, rfl, rfl, rfl, rfl⟩
    · cases stepped
  | closeEvent connID =>
    cases stepped
    obtain ⟨conns, connCount, same⟩ := closeConn_eq (r := r) connID
    rw [same]
    exact ⟨r, rfl, rfl, rfl, rfl⟩
  | progress =>
    simp only [step, Option.some.injEq, Prod.mk.injEq] at stepped
    obtain ⟨rfl, -⟩ := stepped
    obtain ⟨progress, same⟩ := progressOf_fst_eq r
    rw [same]
    exact ⟨r, rfl, rfl, rfl, rfl⟩

/-- A step that stops the job leaves it stopped. -/
theorem stopped_of_stops (flags : RunFlags r) (stops : event.stops = true)
    (stepped : r.step connCreator event = some (next, emitted)) : Stopped next := by
  obtain ⟨s, chosen, running, cancelled, -⟩ := step_flags stepped
  rw [if_pos stops] at chosen
  obtain ⟨err, rfl⟩ := chosen
  exact ⟨cancelled.trans (stopped_stop flags err).cancelled, running.trans (stopped_stop flags err).idle⟩

/-- Every step keeps the flags in step with each other. -/
theorem runFlags_step (flags : RunFlags r)
    (stepped : r.step connCreator event = some (next, emitted)) : RunFlags next := by
  obtain ⟨s, chosen, running, cancelled, -⟩ := step_flags stepped
  have kept : RunFlags s := by
    split at chosen
    · obtain ⟨err, rfl⟩ := chosen
      exact (stopped_stop flags err).runFlags
    · exact chosen ▸ flags
  rw [RunFlags, running, cancelled]
  exact kept

/-- From a stopped job, a step keeps it stopped with its error: a later `Stop` changes nothing. -/
theorem step_of_stopped (stopped : Stopped r)
    (stepped : r.step connCreator event = some (next, emitted)) :
    Stopped next ∧ next.err = r.err := by
  obtain ⟨s, chosen, running, cancelled, err⟩ := step_flags stepped
  have same : s = r := by
    split at chosen
    · obtain ⟨e, rfl⟩ := chosen
      exact stop_of_not_running stopped.idle e
    · exact chosen
  subst same
  exact ⟨⟨cancelled.trans stopped.cancelled, running.trans stopped.idle⟩, err⟩

/-- Over every run from a stopped job. -/
theorem run_of_stopped (events : List Event) {final : Replay Conn} {later : List (Call Conn)}
    (stopped : Stopped r) (ran : r.run connCreator events = some (final, later)) :
    Stopped final ∧ final.err = r.err :=
  run_invariant (O := Unit) (fun _ _ => []) (fun s _ _ => Stopped s ∧ s.err = r.err)
    (fun _ _ _ _ _ _ ⟨stopped, err⟩ stepped =>
      (step_of_stopped stopped stepped).imp_right fun err' => err'.trans err)
    events r final [] [] later ⟨stopped, rfl⟩ ran

theorem runFlags_run {events : List Event} {final : Replay Conn} {calls : List (Call Conn)}
    (metaCmds : Nat)
    (ran : (({} : Replay Conn).start metaCmds).run connCreator events = some (final, calls)) :
    RunFlags final :=
  run_invariant (O := Unit) (fun _ _ => []) (fun s _ _ => RunFlags s)
    (fun _ _ _ _ _ _ flags stepped => runFlags_step flags stepped) events
    (({} : Replay Conn).start metaCmds) final [] [] calls rfl ran

/-- Once `Stop`, `Close`, or the end or failure of the input has stopped a replay job, whatever
the goroutines do next, in any interleaving: the job stays stopped, and its error stays the one
that step left. -/
theorem stopped_job_keeps_outcome (connCreator : UInt64 → Conn) (metaCmds : Nat)
    (before after : List Event) (stopping : Event) (stops : stopping.stops = true)
    (r next final : Replay Conn) (calls emitted later : List (Call Conn))
    (reached : (({} : Replay Conn).start metaCmds).run connCreator before = some (r, calls))
    (stopped : r.step connCreator stopping = some (next, emitted))
    (ran : next.run connCreator after = some (final, later)) :
    final.running = false ∧ final.cancelled = true ∧ final.err = next.err :=
  have kept := run_of_stopped after (stopped_of_stops (runFlags_run metaCmds reached) stops stopped) ran
  ⟨kept.1.idle, kept.1.cancelled, kept.2⟩

theorem stopped_job_keeps_outcome_close_after_failure :
    ∃ r next final calls emitted later,
      (({} : Replay Unit).start 1).run (fun _ => ())
          [.loopCheck, .decode ⟨1, 3, []⟩, .dispatch, .stop (some "connection refused")] =
          some (r, calls) ∧
        r.step (fun _ => ()) .close = some (next, emitted) ∧
        next.run (fun _ => ()) [.loopCheck, .closeEvent 1, .progress, .close] =
          some (final, later) ∧
        final.running = false ∧ final.cancelled = true ∧ final.err = next.err :=
  ⟨_, _, _, _, _, _, rfl, rfl, rfl,
    stopped_job_keeps_outcome (fun _ => ()) 1
      [.loopCheck, .decode ⟨1, 3, []⟩, .dispatch, .stop (some "connection refused")]
      [.loopCheck, .closeEvent 1, .progress, .close] .close rfl _ _ _ _ _ _ rfl rfl rfl⟩

/-! ## The progress a job reports -/

/-- `Progress()` returns the decoded count over `meta.Cmds` whenever `meta.Cmds` is positive,
whatever `Stop` recorded. -/
theorem progressOf_snd_of_counters (metaCmds decoded : Nat) (meta : r.metaCmds = metaCmds)
    (counted : r.replayedCmds + r.filteredCmds = decoded) (positive : 0 < metaCmds) :
    r.progressOf.2 = ((decoded : ℚ) / metaCmds, r.err) := by
  unfold progressOf ratio
  rw [if_pos (meta ▸ positive : r.metaCmds > 0), meta, counted]

/-- With `meta.Cmds = 2`, one replayed command and then the end of the input, `Stop(nil)` records
and logs progress 1, but `Progress()` returns 1/2 with a nil error; a new `Start` resets neither
the counters nor the error, so the new job's `Progress()` returns 1/2 before it decodes anything.
With `meta.Cmds = 1` and two replayed commands, `Progress()` returns 2. -/
theorem progress_disagrees_with_stop :
    (∃ r calls, (({} : Replay Unit).start 2).run (fun _ => ())
        [.loopCheck, .decode ⟨1, 3, []⟩, .dispatch, .loopCheck, .decodeFails none] =
          some (r, calls) ∧
      r.running = false ∧ r.err = none ∧ r.progress = 1 ∧ r.progressOf.2 = (1 / 2, none) ∧
      (r.start 2).progressOf.2 = (1 / 2, none)) ∧
    ∃ r calls, (({} : Replay Unit).start 1).run (fun _ => ())
        [.loopCheck, .decode ⟨1, 3, []⟩, .dispatch, .loopCheck, .decode ⟨1, 3, []⟩, .dispatch] =
          some (r, calls) ∧ r.progressOf.2 = (2, none) := by
  refine ⟨⟨_, _, rfl, rfl, rfl, rfl, ?_, ?_⟩, _, _, rfl, ?_⟩ <;>
    refine (progressOf_snd_of_counters _ _ (by rfl) (by rfl) (by decide)).trans
      (Prod.ext ?_ rfl) <;>
    norm_num [start]

end Replay

end TiProxy.SqlReplay
