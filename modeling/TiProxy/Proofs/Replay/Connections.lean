import TiProxy.Model.Replay.Replay

/-! # The connections of a replay job

`executeCmd` creates a connection for the first command of a connection ID and keeps it in
`conns`; `readCloseCh` replaces a closed connection by a nil entry, a tombstone that makes
`executeCmd` drop every later command of that ID. Over every interleaving of the two, the
connection table of one replay job satisfies `ConnTable`: each ID was created once iff it has an
entry, `connCount` counts the non-nil entries, and an ID without a tombstone has received exactly
its dispatched commands. A close event only writes a tombstone over an open connection, so a close
event for an ID that has no connection yet leaves nothing that rejects its later commands.
-/

namespace TiProxy.SqlReplay

variable {Conn : Type}

/-- The connection ID a call creates a connection for. -/
def Call.created? : Call Conn → Option UInt64
  | .connCreator connID => some connID
  | .executeCmd _ _ => none
  | .progress _ _ => none

/-- The connection and the command of an `ExecuteCmd` call of a command of `connID`. -/
def Call.executedFor (connID : UInt64) : Call Conn → Option (Conn × Command)
  | .connCreator _ => none
  | .executeCmd conn command => if command.connID = connID then some (conn, command) else none
  | .progress _ _ => none

/-- The number of non-nil entries of a connection table. -/
def liveCount (conns : AList (fun _ : UInt64 => Option Conn)) : Nat :=
  conns.entries.countP fun entry => entry.2.isSome

theorem liveCount_insert_of_not_mem {conns : AList (fun _ : UInt64 => Option Conn)}
    {connID : UInt64} (fresh : connID ∉ conns) (conn : Conn) :
    liveCount (conns.insert connID (some conn)) = liveCount conns + 1 := by
  rw [liveCount, liveCount, AList.insert_entries_of_neg fresh, List.countP_cons]
  rfl

private theorem countP_kerase_of_live {connID : UInt64} {conn : Conn} :
    ∀ {entries : List (Σ _ : UInt64, Option Conn)}, entries.dlookup connID = some (some conn) →
      (entries.kerase connID).countP (fun entry => entry.2.isSome) + 1 =
        entries.countP fun entry => entry.2.isSome
  | [], found => by simp at found
  | ⟨key, value⟩ :: rest, found => by
    by_cases same : connID = key
    · subst same
      simp only [List.dlookup_cons_eq, Option.some.injEq] at found
      simp [List.kerase_cons_eq, found]
    · rw [List.dlookup_cons_ne rest ⟨key, value⟩ same] at found
      rw [List.kerase_cons_ne same, List.countP_cons, List.countP_cons, ← countP_kerase_of_live found]
      omega

theorem liveCount_insert_nil {conns : AList (fun _ : UInt64 => Option Conn)} {connID : UInt64}
    {conn : Conn} (found : conns.lookup connID = some (some conn)) :
    liveCount (conns.insert connID none) + 1 = liveCount conns := by
  simpa [liveCount, AList.insert_entries, List.countP_cons] using countP_kerase_of_live found

/-- The command the pacer holds. -/
def Pacer.held : Pacer → List Command
  | .pacing command => [command]
  | _ => []

/-- The command a step decodes. -/
def Event.decoded : Event → List Command
  | .decode command => [command]
  | _ => []

/-- The decoded commands that the pacer does not filter. -/
def replayable (commands : List Command) : List Command :=
  commands.filter fun command => command.type ≠ comChangeUser

namespace Replay

variable {connCreator : UInt64 → Conn}

/-- The bookkeeping of the connection table after a run that made the calls `calls` and
dispatched the commands `dispatched`. -/
structure ConnTable (connCreator : UInt64 → Conn) (r : Replay Conn) (calls : List (Call Conn))
    (dispatched : List Command) : Prop where
  /-- A connection ID has been created once if it has an entry, and never otherwise. -/
  created : ∀ connID, calls.countP (fun call => call.created? = some connID) =
    if connID ∈ r.conns then 1 else 0
  /-- `connCount` is the number of open connections. -/
  counted : r.connCount = liveCount r.conns
  /-- An open connection is the one `connCreator` made for its ID. -/
  own : ∀ connID conn, r.conns.lookup connID = some (some conn) → conn = connCreator connID
  /-- An ID without a tombstone has been handed each of its dispatched commands, in order. -/
  executed : ∀ connID, r.conns.lookup connID ≠ some none →
    calls.filterMap (Call.executedFor connID) =
      (dispatched.filter fun command => command.connID = connID).map (connCreator connID, ·)

variable {r next : Replay Conn} {calls emitted : List (Call Conn)} {dispatched : List Command}

theorem ConnTable.start (metaCmds : Nat) :
    ConnTable connCreator (({} : Replay Conn).start metaCmds) [] [] where
  created connID := by simp
  counted := rfl
  own connID conn found := by simp at found
  executed connID _ := rfl

/-- `Progress` calls do not touch the bookkeeping. -/
theorem ConnTable.append_progress (holds : ConnTable connCreator r calls dispatched)
    (progress : ∀ call ∈ emitted, ∃ value err, call = .progress value err) :
    ConnTable connCreator r (calls ++ emitted) dispatched where
  created connID := by
    rw [List.countP_append, holds.created, List.countP_eq_zero.mpr fun call member => by
      obtain ⟨value, err, rfl⟩ := progress call member
      simp [Call.created?], Nat.add_zero]
  counted := holds.counted
  own := holds.own
  executed connID alive := by
    rw [List.filterMap_append, holds.executed connID alive,
      List.filterMap_eq_nil_iff.mpr fun call member => by
        obtain ⟨value, err, rfl⟩ := progress call member
        rfl, List.append_nil]

/-- The bookkeeping reads only the connection table. -/
theorem ConnTable.of_table (holds : ConnTable connCreator r calls dispatched)
    (conns : next.conns = r.conns) (count : next.connCount = r.connCount) :
    ConnTable connCreator next calls dispatched where
  created connID := conns ▸ holds.created connID
  counted := by rw [count, conns, holds.counted]
  own connID conn found := holds.own connID conn (conns ▸ found)
  executed connID alive := holds.executed connID (conns ▸ alive)

theorem ConnTable.closeConn (holds : ConnTable connCreator r calls dispatched) (connID : UInt64) :
    ConnTable connCreator (r.closeConn connID) calls dispatched := by
  by_cases live : ∃ conn, r.conns.lookup connID = some (some conn)
  · obtain ⟨conn, found⟩ := live
    rw [closeConn_of_lookup_some found]
    have present : connID ∈ r.conns := AList.lookup_isSome.mp (by simp [found])
    refine ⟨fun other => ?_, ?_, fun other conn' found' => ?_, fun other alive => ?_⟩
    · rw [holds.created]
      by_cases same : other = connID
      · simp [same, present]
      · simp [AList.mem_insert, same]
    · have := liveCount_insert_nil found
      simp only [holds.counted]
      omega
    · by_cases same : other = connID
      · subst same
        simp at found'
      · exact holds.own other conn' (by rwa [AList.lookup_insert_ne same] at found')
    · by_cases same : other = connID
      · subst same
        simp at alive
      · exact holds.executed other (by rwa [AList.lookup_insert_ne same] at alive)
  · rw [closeConn_of_not_open fun conn found => live ⟨conn, found⟩]
    exact holds

theorem ConnTable.executeCmd (holds : ConnTable connCreator r calls dispatched)
    (command : Command) :
    ConnTable connCreator (r.executeCmd connCreator command).1
      (calls ++ (r.executeCmd connCreator command).2) (dispatched ++ [command]) := by
  have others : ∀ connID, connID ≠ command.connID →
      (dispatched ++ [command]).filter (fun command => command.connID = connID) =
        dispatched.filter fun command => command.connID = connID := fun connID other => by
    simp [List.filter_append, other.symm]
  cases found : r.conns.lookup command.connID with
  | none =>
    rw [executeCmd_of_lookup_none found]
    have fresh : command.connID ∉ r.conns := AList.lookup_eq_none.mp found
    refine ⟨fun connID => ?_, ?_, fun connID conn live => ?_, fun connID alive => ?_⟩
    · rw [List.countP_append, holds.created]
      by_cases same : connID = command.connID
      · simp [same, fresh, Call.created?]
      · simp [AList.mem_insert, same, Call.created?, Ne.symm same]
    · simp [liveCount_insert_of_not_mem fresh, holds.counted]
    · by_cases same : connID = command.connID
      · subst same
        simp only [AList.lookup_insert, Option.some.injEq] at live
        exact live.symm
      · exact holds.own connID conn (by rwa [AList.lookup_insert_ne same] at live)
    · rw [List.filterMap_append]
      by_cases same : connID = command.connID
      · subst same
        rw [holds.executed _ (by simp [found])]
        simp [Call.executedFor, List.filter_append]
      · rw [holds.executed connID (by rwa [AList.lookup_insert_ne same] at alive), others connID same]
        simp [Call.executedFor, Ne.symm same]
  | some entry =>
    cases entry with
    | none =>
      rw [executeCmd_of_lookup_nil found]
      refine ⟨by simpa using holds.created, holds.counted, holds.own, fun connID alive => ?_⟩
      have same : connID ≠ command.connID := fun same => alive (same ▸ found)
      rw [List.append_nil, holds.executed connID alive, others connID same]
    | some conn =>
      rw [executeCmd_of_lookup_some found]
      have owned := holds.own _ conn found
      refine ⟨fun connID => ?_, holds.counted, holds.own, fun connID alive => ?_⟩
      · rw [List.countP_append, holds.created]
        simp [Call.created?]
      · rw [List.filterMap_append, holds.executed connID alive]
        by_cases same : connID = command.connID
        · subst same
          simp [Call.executedFor, List.filter_append, owned]
        · rw [others connID same]
          simp [Call.executedFor, Ne.symm same]

/-- Every step keeps the bookkeeping of the connection table. -/
theorem ConnTable.step (holds : ConnTable connCreator r calls dispatched) {event : Event}
    (stepped : r.step connCreator event = some (next, emitted)) :
    ConnTable connCreator next (calls ++ emitted) (dispatched ++ r.dispatchedBy event) := by
  rcases step_connections stepped with
    ⟨command, dispatch, conns, count, rfl⟩ | ⟨connID, none, rfl, rfl⟩ | ⟨none, conns, count, progress⟩
  · rw [dispatch]
    exact (holds.executeCmd command).of_table conns count
  · rw [none, List.append_nil, List.append_nil]
    exact holds.closeConn connID
  · rw [none, List.append_nil]
    exact (holds.append_progress progress).of_table conns count

/-- The bookkeeping holds after every run of a new replay job. -/
theorem ConnTable.run {metaCmds : Nat} {events : List Event} {final : Replay Conn}
    {calls : List (Call Conn)}
    (ran : (({} : Replay Conn).start metaCmds).run connCreator events = some (final, calls)) :
    ConnTable connCreator final calls
      (observed dispatchedBy connCreator (({} : Replay Conn).start metaCmds) events) := by
  simpa using run_invariant dispatchedBy (ConnTable connCreator)
    (fun _ _ _ _ _ _ holds stepped => holds.step stepped) events _ final [] [] calls
    (ConnTable.start metaCmds) ran

/-- A tombstone stays, and no step creates a connection for its ID or executes one of its
commands. -/
theorem step_keeps_tombstone {connID : UInt64} {event : Event}
    (closed : r.conns.lookup connID = some none)
    (stepped : r.step connCreator event = some (next, emitted)) :
    next.conns.lookup connID = some none ∧
      ∀ call ∈ emitted, call.created? ≠ some connID ∧ call.executedFor connID = none := by
  rcases step_connections stepped with
    ⟨command, -, conns, -, rfl⟩ | ⟨other, -, rfl, rfl⟩ | ⟨-, conns, -, progress⟩
  · rw [conns]
    by_cases same : command.connID = connID
    · rw [executeCmd_of_lookup_nil (same ▸ closed)]
      exact ⟨closed, by simp⟩
    · cases found : r.conns.lookup command.connID with
      | none =>
        rw [executeCmd_of_lookup_none found]
        simp [AList.lookup_insert_ne (Ne.symm same), closed, Call.created?, Call.executedFor, same]
      | some entry =>
        cases entry with
        | none => rw [executeCmd_of_lookup_nil found]; exact ⟨closed, by simp⟩
        | some conn =>
          rw [executeCmd_of_lookup_some found]
          simp [closed, Call.created?, Call.executedFor, same]
  · by_cases same : other = connID
    · rw [closeConn_of_not_open fun conn found => by rw [same, closed] at found; cases found]
      exact ⟨closed, by simp⟩
    · refine ⟨?_, by simp⟩
      unfold closeConn
      split
      · rw [AList.lookup_insert_ne (Ne.symm same), closed]
      · exact closed
  · refine ⟨conns ▸ closed, fun call member => ?_⟩
    obtain ⟨value, err, rfl⟩ := progress call member
    exact ⟨by simp [Call.created?], rfl⟩

/-- From a state with a tombstone for `connID`, no run creates a connection for `connID` or
executes one of its commands. -/
theorem run_keeps_tombstone {connID : UInt64} {events : List Event} {final : Replay Conn}
    {later : List (Call Conn)} (closed : r.conns.lookup connID = some none)
    (ran : r.run connCreator events = some (final, later)) :
    ∀ call ∈ later, call.created? ≠ some connID ∧ call.executedFor connID = none := by
  have kept := run_invariant (O := Unit) (fun _ _ => [])
    (fun (r : Replay Conn) calls _ => r.conns.lookup connID = some none ∧
      ∀ call ∈ calls, call.created? ≠ some connID ∧ call.executedFor connID = none)
    (fun _ _ _ _ _ _ holds stepped => by
      obtain ⟨closed', quiet⟩ := step_keeps_tombstone holds.1 stepped
      refine ⟨closed', fun call member => ?_⟩
      rcases List.mem_append.mp member with earlier | now
      · exact holds.2 call earlier
      · exact quiet call now)
    events r final [] [] later ⟨closed, by simp⟩ ran
  simpa using kept.2

/-- The pacer dispatches, and then holds, decoded commands other than `ComChangeUser`, each at
most once and in decode order. -/
theorem step_dispatch_order {dispatched decodes : List Command} {event : Event}
    (order : (dispatched ++ r.pacer.held).Sublist (replayable decodes))
    (stepped : r.step connCreator event = some (next, emitted)) :
    (dispatched ++ r.dispatchedBy event ++ next.pacer.held).Sublist
      (replayable (decodes ++ event.decoded)) := by
  have idle : ∀ {pacer : Pacer}, pacer.held = [] → r.pacer.held = [] →
      (dispatched ++ [] ++ pacer.held).Sublist (replayable (decodes ++ [])) := fun none before => by
    simpa [none, before] using order
  cases event with
  | loopCheck =>
    simp only [step] at stepped
    split at stepped <;> cases stepped
    rename_i atHead
    exact idle (by split <;> rfl) (by rw [atHead]; rfl)
  | decode command =>
    simp only [step] at stepped
    split at stepped
    · rename_i decoding
      have before : r.pacer.held = [] := by rw [decoding]; rfl
      rw [before, List.append_nil] at order
      split at stepped <;> rename_i filtered <;> cases stepped
      · simpa [replayable, Event.decoded, Pacer.held, dispatchedBy, filtered] using order
      · simpa [replayable, Event.decoded, Pacer.held, dispatchedBy, filtered] using
          order.append (List.Sublist.refl [command])
    · cases stepped
  | decodeFails err =>
    simp only [step] at stepped
    split at stepped <;> cases stepped
    rename_i decoding
    exact idle rfl (by rw [decoding]; rfl)
  | dispatch =>
    simp only [step] at stepped
    split at stepped
    · rename_i command pacing
      rw [pacing] at order
      split at stepped <;> rename_i cancelled <;> cases stepped
      · simpa [dispatchedBy, pacing, cancelled, Pacer.held, Event.decoded] using
          (List.sublist_append_left dispatched [command]).trans order
      · simpa [dispatchedBy, pacing, cancelled, Pacer.held, Event.decoded] using order
    · cases stepped
  | closeEvent _ | stop _ | close =>
    cases stepped
    simpa [dispatchedBy, Event.decoded] using order
  | progress =>
    simp only [step, Option.some.injEq, Prod.mk.injEq] at stepped
    obtain ⟨rfl, -⟩ := stepped
    simpa [dispatchedBy, Event.decoded] using order

theorem run_dispatch_order :
    ∀ (events : List Event) (dispatched decodes : List Command) {r final : Replay Conn}
      {calls : List (Call Conn)},
      (dispatched ++ r.pacer.held).Sublist (replayable decodes) →
      r.run connCreator events = some (final, calls) →
      (dispatched ++ observed dispatchedBy connCreator r events ++ final.pacer.held).Sublist
        (replayable (decodes ++ events.flatMap Event.decoded))
  | [], dispatched, decodes, r, final, calls, order, ran => by
    simp only [run, Option.some.injEq, Prod.mk.injEq] at ran
    obtain ⟨rfl, rfl⟩ := ran
    simpa [observed] using order
  | event :: rest, dispatched, decodes, r, final, calls, order, ran => by
    obtain ⟨next, emitted, later, stepped, ranRest, rfl⟩ := run_cons_eq_some.mp ran
    simpa [observed_cons rest stepped, List.append_assoc] using
      run_dispatch_order rest (dispatched ++ r.dispatchedBy event) (decodes ++ event.decoded)
        (step_dispatch_order order stepped) ranRest

/-- A close event for a connection ID that has no connection yet is dropped, so the first command
of that ID that the pacer dispatches afterwards still creates a connection and executes. -/
theorem closeEvent_before_first_command_creates :
    ((({} : Replay Unit).start 1).run (fun _ => ())
        [.closeEvent 7, .loopCheck, .decode ⟨7, 3, []⟩, .dispatch]).map
      (fun result => result.2.map fun call => (call.created?, (call.executedFor 7).isSome)) =
      some [(some 7, false), (none, true)] := by
  decide

/-- Over every run of a new replay job, whatever the interleaving of dispatches and close events:
each connection ID is created at most once; once a close event has been handled while its ID had
an open connection, no later call creates a connection for that ID or executes one of its
commands; an ID without a tombstone has been handed exactly its dispatched commands, which are
decoded commands other than `ComChangeUser`, in decode order; and `connCount` is the number of
open connections. -/
theorem connections_of_run (connCreator : UInt64 → Conn) (metaCmds : Nat) (events : List Event)
    (r : Replay Conn) (calls : List (Call Conn))
    (ran : (({} : Replay Conn).start metaCmds).run connCreator events = some (r, calls)) :
    (∀ connID, calls.countP (fun call => call.created? = some connID) ≤ 1) ∧
    (∀ connID conn more final later, r.conns.lookup connID = some (some conn) →
      r.run connCreator (.closeEvent connID :: more) = some (final, later) →
      ∀ call ∈ later, call.created? ≠ some connID ∧ call.executedFor connID = none) ∧
    (∀ connID, r.conns.lookup connID ≠ some none →
      calls.filterMap (Call.executedFor connID) =
        ((observed dispatchedBy connCreator (({} : Replay Conn).start metaCmds) events).filter
          fun command => command.connID = connID).map (connCreator connID, ·)) ∧
    (observed dispatchedBy connCreator (({} : Replay Conn).start metaCmds) events).Sublist
      (replayable (events.flatMap Event.decoded)) ∧
    r.connCount = liveCount r.conns := by
  have table := ConnTable.run ran
  refine ⟨fun connID => ?_, fun connID conn more final later live closing => ?_, table.executed,
    ?_, table.counted⟩
  · rw [table.created connID]
    split <;> omega
  · obtain ⟨closed, emitted, rest, stepped, ranRest, rfl⟩ := run_cons_eq_some.mp closing
    cases stepped
    intro call member
    exact run_keeps_tombstone (by rw [closeConn_of_lookup_some live]; simp) ranRest call member
  · have order := run_dispatch_order events [] [] (by simp [start, Pacer.held]) ran
    simpa using (List.sublist_append_left _ _).trans order

theorem connections_of_run_after_close :
    ∃ r calls, (({} : Replay Unit).start 2).run (fun _ => ())
        [.loopCheck, .decode ⟨7, 3, []⟩, .dispatch, .closeEvent 7,
          .loopCheck, .decode ⟨7, 3, [1]⟩, .dispatch] = some (r, calls) ∧
      (∀ connID, calls.countP (fun call => call.created? = some connID) ≤ 1) ∧
      (∀ connID conn more final later, r.conns.lookup connID = some (some conn) →
        r.run (fun _ => ()) (.closeEvent connID :: more) = some (final, later) →
        ∀ call ∈ later, call.created? ≠ some connID ∧ call.executedFor connID = none) ∧
      (∀ connID, r.conns.lookup connID ≠ some none →
        calls.filterMap (Call.executedFor connID) =
          ((observed dispatchedBy (fun _ => ()) (({} : Replay Unit).start 2)
              [.loopCheck, .decode ⟨7, 3, []⟩, .dispatch, .closeEvent 7,
                .loopCheck, .decode ⟨7, 3, [1]⟩, .dispatch]).filter
            fun command => command.connID = connID).map (((fun _ => ()) : UInt64 → Unit) connID, ·)) ∧
      (observed dispatchedBy (fun _ => ()) (({} : Replay Unit).start 2)
          [.loopCheck, .decode ⟨7, 3, []⟩, .dispatch, .closeEvent 7,
            .loopCheck, .decode ⟨7, 3, [1]⟩, .dispatch]).Sublist
        (replayable ([Event.loopCheck, .decode ⟨7, 3, []⟩, .dispatch, .closeEvent 7,
          .loopCheck, .decode ⟨7, 3, [1]⟩, .dispatch].flatMap Event.decoded)) ∧
      r.connCount = liveCount r.conns :=
  ⟨_, _, rfl, connections_of_run _ _ _ _ _ rfl⟩

end Replay

end TiProxy.SqlReplay
