import Transducer.Proofs.Walk
import Transducer.Sink.Recorder

/-!
# Replaying a journal

An event that no rule handles leaves nothing behind in a machine. So the events
that were handled can be fed to a new machine without the others, and it does
the same again.

* `Machine.Echoes`: a machine that has made the moves of another one, and
  nothing else.
* `Machine.Echoes.step_of_some`, `Machine.Echoes.step_of_none`: the echo follows
  a step that moves, and need not follow one that does not.
* `Machine.Echoes.feed`: so it follows a run on the events that were handled.
* `Table.Draft.replay_of_journal`: a machine that is fed the events of a journal
  writes this journal again.
-/

namespace Transducer

variable {S E A K : Type}

namespace Outcome

/-- The events whose outcomes are moves. -/
def fired (events : List E) (outcomes : List (Outcome S E)) : List E :=
  ((events.zip outcomes).filter fun x => x.2.didMove).map Prod.fst

theorem fired_map_event (outcomes : List (Outcome S E)) :
    fired (outcomes.map event) outcomes = (outcomes.filter didMove).map event := by
  induction outcomes with
  | nil => rfl
  | cons outcome rest ih =>
      cases outcome with
      | moved source target event => exact congrArg (event :: ·) ih
      | unhandled state event => exact ih

end Outcome

variable [DecidableEq S] [Hashable S] [DecidableEq E] [Hashable E]

/-- The second machine got to where the first one is by the same moves. It
performed the same actions, but it was never given an event that it did not
handle. Both report to recorders of one kind. -/
structure Machine.Echoes (recorder : Recorder S E A K) (m echo : Machine S E A K) : Prop where
  table : echo.table = m.table
  sink : m.sink = recorder.sink
  echoSink : echo.sink = recorder.sink
  state : echo.state = m.state
  calls : recorder.calls echo.receiver = (recorder.calls m.receiver).filter Signal.isPerform
  journal : echo.journal.map Journal.outcomes = m.journal.map Journal.outcomes

namespace Machine

variable [Named S] [Named E] {recorder : Recorder S E A K} {m echo : Machine S E A K}
  {arrival again : Arrival E} {r : Rule S E A}

/-! ## Steps of a machine that reports to a recorder -/

theorem step_recorded_of_some (sink : m.sink = recorder.sink)
    (found : m.table.lookup m.state arrival.event = some r) :
    ∃ k, recorder.calls k = recorder.calls m.receiver ++ r.actions.map .perform ∧
      (m.step arrival).machine =
        { m with
          state := r.target
          receiver := k
          journal := m.journal.map
            (·.push ⟨m.state, r.target, arrival.event, arrival.time⟩) } ∧
      (m.step arrival).result = some (.moved m.state r.target arrival.event) := by
  obtain ⟨k, performed, called⟩ := recorder.calls_performAll r.actions m.receiver
  rw [step_of_some found, fire, sink, performed]
  exact ⟨k, called, by rw [← sink], rfl⟩

theorem step_recorded_of_none (sink : m.sink = recorder.sink)
    (missing : m.table.lookup m.state arrival.event = none) :
    ∃ k, recorder.calls k = recorder.calls m.receiver ++ [.unhandled m.state arrival.event] ∧
      (m.step arrival).machine = { m with receiver := k } ∧
      (m.step arrival).result = some (.unhandled m.state arrival.event) := by
  obtain ⟨k, refused, called⟩ := recorder.calls_unhandled m.state arrival.event m.receiver
  rw [step_of_none missing, refuse, sink, refused]
  exact ⟨k, called, by rw [← sink], rfl⟩

/-- A recorder never aborts, so a run always comes to its end. -/
theorem exists_outcomes_of_recorded (sink : m.sink = recorder.sink) (arrivals : List (Arrival E)) :
    ∃ outcomes, (m.feed arrivals).result = some outcomes := by
  induction arrivals generalizing m with
  | nil => exact ⟨[], rfl⟩
  | cons arrival rest ih =>
      obtain ⟨others, completedOthers⟩ := ih (m := (m.step arrival).machine)
        (by rw [sink_step]; exact sink)
      have completed : ∃ first, (m.step arrival).result = some first := by
        cases found : m.table.lookup m.state arrival.event with
        | none =>
            obtain ⟨_, _, _, result⟩ := step_recorded_of_none sink found
            exact ⟨_, result⟩
        | some r =>
            obtain ⟨_, _, _, result⟩ := step_recorded_of_some sink found
            exact ⟨_, result⟩
      obtain ⟨first, result⟩ := completed
      rw [feed_of_some rest result, completedOthers]
      exact ⟨first :: others, rfl⟩

namespace Echoes

/-! ## Following a run -/

/-- The echo makes the move that the machine makes. -/
theorem step_of_some (echoes : m.Echoes recorder echo)
    (found : m.table.lookup m.state arrival.event = some r) (event : again.event = arrival.event) :
    (echo.step again).result = some (.moved m.state r.target arrival.event) ∧
      (m.step arrival).machine.Echoes recorder (echo.step again).machine := by
  have foundAgain : echo.table.lookup echo.state again.event = some r := by
    rw [echoes.table, echoes.state, event, found]
  obtain ⟨k, called, after, _⟩ := step_recorded_of_some echoes.sink found
  obtain ⟨k', called', after', result'⟩ := step_recorded_of_some echoes.echoSink foundAgain
  rw [echoes.state, event] at result'
  refine ⟨result', ?_⟩
  rw [after, after']
  refine ⟨echoes.table, echoes.sink, echoes.echoSink, rfl, ?_, ?_⟩
  · rw [called', called, echoes.calls, List.filter_append, Signal.filter_map_perform fun _ => rfl]
  · rw [Journal.map_outcomes_push, Journal.map_outcomes_push, echoes.journal, echoes.state, event]
    rfl

/-- When the machine does not move, the echo is an echo of it as it is. -/
theorem step_of_none (echoes : m.Echoes recorder echo)
    (missing : m.table.lookup m.state arrival.event = none) :
    (m.step arrival).machine.Echoes recorder echo := by
  obtain ⟨k, called, after, _⟩ := step_recorded_of_none echoes.sink missing
  rw [after]
  refine ⟨echoes.table, echoes.sink, echoes.echoSink, echoes.state, ?_, echoes.journal⟩
  rw [called, echoes.calls, List.filter_append]
  exact (List.append_nil _).symm

/-- The echo answers the events that were handled as the machine did, whenever
it gets them. -/
theorem feed (echoes : m.Echoes recorder echo) {arrivals others : List (Arrival E)}
    {outcomes : List (Outcome S E)} (completed : (m.feed arrivals).result = some outcomes)
    (events : others.map Arrival.event = (outcomes.filter Outcome.didMove).map Outcome.event) :
    (echo.feed others).result = some (outcomes.filter Outcome.didMove) ∧
      (m.feed arrivals).machine.Echoes recorder (echo.feed others).machine := by
  induction arrivals generalizing m echo outcomes others with
  | nil =>
      cases completed
      rw [List.filter_nil, List.map_nil, List.map_eq_nil_iff] at events
      rw [events]
      exact ⟨rfl, echoes⟩
  | cons arrival rest ih =>
      obtain ⟨first, remaining, head, tail, rfl⟩ := result_feed_cons completed
      rw [feed_of_some rest head]
      cases found : m.table.lookup m.state arrival.event with
      | none =>
          obtain ⟨_, _, _, result⟩ := step_recorded_of_none echoes.sink found
          rw [head, Option.some.injEq] at result
          subst result
          obtain ⟨answered, atEnd⟩ := ih (echoes.step_of_none found) tail events
          exact ⟨answered, atEnd⟩
      | some r =>
          obtain ⟨_, _, _, result⟩ := step_recorded_of_some echoes.sink found
          rw [head, Option.some.injEq] at result
          subst result
          obtain ⟨again, othersRest, rfl, event, events⟩ := List.map_eq_cons_iff.mp events
          obtain ⟨moved, stillEchoes⟩ := echoes.step_of_some found event
          obtain ⟨answered, atEnd⟩ := ih stillEchoes tail events
          rw [feed_of_some othersRest moved, answered]
          exact ⟨rfl, atEnd⟩

end Echoes

end Machine

/-- A machine that records has handled the events that its journal lists. Fed to
a new machine over the same table, they are all handled again, so nothing is
reported as unhandled. The outcomes, the final state, the actions and the
journal are then those of the first run without its unhandled events, and the
path is the same. -/
theorem Table.Draft.replay_of_journal [Named S] [Named E] (draft : Table.Draft S E A)
    (t : Table S E A) (built : draft.build = .ok t) (recorder : Recorder S E A K) (state : S)
    (arrivals : List (Arrival E)) :
    let m := Machine.startRecording t recorder.sink recorder.blank state
    let run := m.feed arrivals
    ∃ outcomes journal, run.result = some outcomes ∧ run.machine.journal = some journal ∧
      journal.events = Outcome.fired (arrivals.map Arrival.event) outcomes ∧
      ∀ others : List (Arrival E), others.map Arrival.event = journal.events →
        let again := m.feed others
        again.result = some (outcomes.filter Outcome.didMove) ∧
        again.machine.state = run.machine.state ∧
        recorder.calls again.machine.receiver =
          (recorder.calls run.machine.receiver).filter Signal.isPerform ∧
        ∃ journal', again.machine.journal = some journal' ∧
          journal'.outcomes = journal.outcomes ∧ journal'.path = journal.path := by
  intro m run
  have sink : m.sink = recorder.sink := rfl
  have fresh : m.journal = some .empty := rfl
  obtain ⟨outcomes, completed⟩ := Machine.exists_outcomes_of_recorded sink arrivals
  -- The journal lists the moves of the run.
  obtain ⟨moves, trip, named⟩ := m.trip_feed (coherent_of_build built) arrivals
  obtain ⟨journal, recorded, list⟩ := trip.exists_journal fresh
  have told : journal.outcomes = outcomes.filter Outcome.didMove := by
    rw [Journal.outcomes, list]
    exact named outcomes completed
  have events : journal.events = (outcomes.filter Outcome.didMove).map Outcome.event := by
    rw [← Journal.map_event_outcomes, told]
  refine ⟨outcomes, journal, completed, recorded, ?_, ?_⟩
  · rw [events, ← Machine.map_event_of_feed completed, Outcome.fired_map_event]
  · intro others same again
    have echoes : m.Echoes recorder m := by
      refine ⟨rfl, rfl, rfl, rfl, ?_, rfl⟩
      rw [show recorder.calls m.receiver = [] from recorder.calls_blank]
      rfl
    obtain ⟨answered, atEnd⟩ := echoes.feed completed (same.trans events)
    have journals := atEnd.journal
    rw [recorded, Option.map_some, Option.map_eq_some_iff] at journals
    obtain ⟨journal', recordedAgain, toldAgain⟩ := journals
    exact ⟨answered, atEnd.state, atEnd.calls, journal', recordedAgain, toldAgain,
      Journal.path_eq_of_outcomes toldAgain⟩

/-- An alarm of the turnstile. The coin and the first reset are refused, and the
new machine does not get them. -/
theorem Table.Draft.replay_of_turnstile_journal :
    let m := Machine.startRecording Turnstile.table Recorder.list.sink Recorder.list.blank .locked0
    let run := m.feed [⟨.reset, default⟩, ⟨.pass, default⟩, ⟨.coin, default⟩, ⟨.reset, default⟩]
    let again := m.feed [⟨.pass, default⟩, ⟨.reset, default⟩]
    run.machine.receiver = [.unhandled .locked0 .reset, .perform .alarmOn,
      .unhandled .alarming .coin, .perform .alarmOff, .perform .lock] ∧
    again.result =
      some [.moved .locked0 .alarming .pass, .moved .alarming .locked0 .reset] ∧
    again.machine.receiver = [.perform .alarmOn, .perform .alarmOff, .perform .lock] := by
  intro m run again
  have follows : m.Follows ⟨Turnstile.rules, fun action calls => calls ++ [.perform action],
      fun state event calls => calls ++ [.unhandled state event]⟩ :=
    ⟨coherent_of_build Turnstile.build_rules, rfl, rfl⟩
  have agrees := follows.feed_agrees
    [⟨.reset, default⟩, ⟨.pass, default⟩, ⟨.coin, default⟩, ⟨.reset, default⟩]
  have receiver : run.machine.receiver = [.unhandled .locked0 .reset, .perform .alarmOn,
      .unhandled .alarming .coin, .perform .alarmOff, .perform .lock] := by
    rw [agrees.receiver]
    decide
  obtain ⟨outcomes, journal, completed, _, events, replay⟩ :=
    replay_of_journal _ _ Turnstile.build_rules Recorder.list .locked0
      [⟨.reset, default⟩, ⟨.pass, default⟩, ⟨.coin, default⟩, ⟨.reset, default⟩]
  have outcomesEq : outcomes = [.unhandled .locked0 .reset, .moved .locked0 .alarming .pass,
      .unhandled .alarming .coin, .moved .alarming .locked0 .reset] := by
    rw [Option.some.inj (completed.symm.trans agrees.result)]
    decide
  rw [outcomesEq] at events replay
  obtain ⟨answered, _, calls, _⟩ :=
    replay [⟨.pass, default⟩, ⟨.reset, default⟩] events.symm
  refine ⟨receiver, answered, calls.trans ?_⟩
  exact congrArg (List.filter Signal.isPerform) receiver

end Transducer
