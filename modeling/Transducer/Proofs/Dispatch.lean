import Transducer.Interpreter
import Transducer.Machine.Session
import Transducer.Proofs.Coherence
import Transducer.Turnstile.Rules

/-!
# Dispatch

What one step can do to a machine, and how whole runs of it compare with a plain
reading of the rules.

* `Machine.step_cases`: a step moves, is refused or aborts, and what it leaves
  in each case.
* `Machine.feed_keeps`: what holds after every step holds after many.
* `Machine.Follows.step_agrees`, `Machine.Follows.feed_agrees`: over a coherent
  table, and with a sink that does not abort, a machine does what an interpreter
  of the rules does.
* `Machine.Follows.after_deliveries`: how the events are cut into commands makes
  no difference.
* `Table.Draft.session_reads_rules`: all of this for a table that a draft made.
-/

namespace Transducer

variable {S E A K : Type} [DecidableEq S] [Hashable S] [DecidableEq E] [Hashable E]

namespace Machine

variable [Named S] [Named E]

/-! ## One step -/

theorem step_of_some {m : Machine S E A K} {arrival : Arrival E} {r : Rule S E A}
    (found : m.table.lookup m.state arrival.event = some r) :
    m.step arrival = m.fire arrival r := by
  rw [step, found]

theorem step_of_none {m : Machine S E A K} {arrival : Arrival E}
    (missing : m.table.lookup m.state arrival.event = none) :
    m.step arrival = m.refuse arrival.event := by
  rw [step, missing]

/-- The three things that a step can do. A move changes the state and the
journal. Otherwise at most the receiver is another one afterwards. -/
theorem step_cases (m : Machine S E A K) (arrival : Arrival E) :
    (∃ r k, m.table.lookup m.state arrival.event = some r ∧
      (m.step arrival).machine =
        { m with
          state := r.target
          receiver := k
          journal := m.journal.map
            (·.push ⟨m.state, r.target, arrival.event, arrival.time⟩) } ∧
      (m.step arrival).result = some (.moved m.state r.target arrival.event)) ∨
    (∃ k, m.table.lookup m.state arrival.event = none ∧
      (m.step arrival).machine = { m with receiver := k } ∧
      (m.step arrival).result = some (.unhandled m.state arrival.event)) ∨
    (∃ k, (m.step arrival).machine = { m with receiver := k } ∧
      (m.step arrival).result = none) := by
  cases found : m.table.lookup m.state arrival.event with
  | none =>
      rw [step_of_none found, refuse]
      cases m.sink.unhandled m.state arrival.event m.receiver with
      | done k => exact .inr (.inl ⟨k, rfl, rfl, rfl⟩)
      | aborted k => exact .inr (.inr ⟨k, rfl, rfl⟩)
  | some r =>
      rw [step_of_some found, fire]
      rcases m.sink.performAll r.actions m.receiver with ⟨completed, k | k⟩
      · exact .inl ⟨r, k, rfl, rfl, rfl⟩
      · exact .inr (.inr ⟨k, rfl, rfl⟩)

@[simp]
theorem table_step (m : Machine S E A K) (arrival : Arrival E) :
    (m.step arrival).machine.table = m.table := by
  obtain ⟨r, k, _, after, _⟩ | ⟨k, _, after, _⟩ | ⟨k, after, _⟩ := m.step_cases arrival <;>
    rw [after]

@[simp]
theorem sink_step (m : Machine S E A K) (arrival : Arrival E) :
    (m.step arrival).machine.sink = m.sink := by
  obtain ⟨r, k, _, after, _⟩ | ⟨k, _, after, _⟩ | ⟨k, after, _⟩ := m.step_cases arrival <;>
    rw [after]

theorem feed_of_none {m : Machine S E A K} {arrival : Arrival E} (rest : List (Arrival E))
    (aborted : (m.step arrival).result = none) :
    m.feed (arrival :: rest) = ⟨(m.step arrival).machine, (m.step arrival).signals, none⟩ := by
  rw [feed, aborted]

theorem feed_of_some {m : Machine S E A K} {arrival : Arrival E} {outcome : Outcome S E}
    (rest : List (Arrival E)) (completed : (m.step arrival).result = some outcome) :
    m.feed (arrival :: rest) =
      ⟨((m.step arrival).machine.feed rest).machine,
        (m.step arrival).signals ++ ((m.step arrival).machine.feed rest).signals,
        ((m.step arrival).machine.feed rest).result.map (outcome :: ·)⟩ := by
  rw [feed, completed]

/-- What every step keeps, many events keep, also when one of them aborts. -/
theorem feed_keeps {P : Machine S E A K → Prop}
    (keeps : ∀ m arrival, P m → P (m.step arrival).machine) {m : Machine S E A K} (holds : P m)
    (arrivals : List (Arrival E)) : P (m.feed arrivals).machine := by
  induction arrivals generalizing m with
  | nil => exact holds
  | cons arrival rest ih =>
      have stepped := keeps m arrival holds
      cases completed : (m.step arrival).result with
      | none =>
          rw [feed_of_none rest completed]
          exact stepped
      | some outcome =>
          rw [feed_of_some rest completed]
          exact ih stepped

@[simp]
theorem table_feed (m : Machine S E A K) (arrivals : List (Arrival E)) :
    (m.feed arrivals).machine.table = m.table :=
  feed_keeps (P := fun other => other.table = m.table)
    (fun other arrival same => (table_step other arrival).trans same) rfl arrivals

/-- The outcome of a step tells the state that the machine is left in, and the
event. -/
theorem outcome_of_step {m : Machine S E A K} {arrival : Arrival E} {outcome : Outcome S E}
    (completed : (m.step arrival).result = some outcome) :
    outcome.state = (m.step arrival).machine.state ∧ outcome.event = arrival.event := by
  obtain ⟨r, k, _, after, result⟩ | ⟨k, _, after, result⟩ | ⟨k, after, result⟩ :=
    m.step_cases arrival
  · rw [completed, Option.some.injEq] at result
    rw [after, result]
    exact ⟨rfl, rfl⟩
  · rw [completed, Option.some.injEq] at result
    rw [after, result]
    exact ⟨rfl, rfl⟩
  · rw [completed] at result
    contradiction

/-- Many events come to their end when the first and the others do. -/
theorem result_feed_cons {m : Machine S E A K} {arrival : Arrival E} {rest : List (Arrival E)}
    {outcomes : List (Outcome S E)}
    (completed : (m.feed (arrival :: rest)).result = some outcomes) :
    ∃ first others, (m.step arrival).result = some first ∧
      ((m.step arrival).machine.feed rest).result = some others ∧
      outcomes = first :: others := by
  cases head : (m.step arrival).result with
  | none =>
      rw [feed_of_none rest head] at completed
      contradiction
  | some first =>
      rw [feed_of_some rest head] at completed
      obtain ⟨others, tail, equal⟩ := Option.map_eq_some_iff.mp completed
      exact ⟨first, others, rfl, tail, equal.symm⟩

/-- There is one outcome for each event, in order. -/
theorem map_event_of_feed {m : Machine S E A K} {arrivals : List (Arrival E)}
    {outcomes : List (Outcome S E)} (completed : (m.feed arrivals).result = some outcomes) :
    outcomes.map Outcome.event = arrivals.map Arrival.event := by
  induction arrivals generalizing m outcomes with
  | nil =>
      cases completed
      rfl
  | cons arrival rest ih =>
      obtain ⟨first, others, head, tail, rfl⟩ := result_feed_cons completed
      rw [List.map_cons, List.map_cons, (outcome_of_step head).2, ih tail]

theorem length_of_feed {m : Machine S E A K} {arrivals : List (Arrival E)}
    {outcomes : List (Outcome S E)} (completed : (m.feed arrivals).result = some outcomes) :
    outcomes.length = arrivals.length := by
  have lengths := congrArg List.length (map_event_of_feed completed)
  rwa [List.length_map, List.length_map] at lengths

/-- The outcome of every one of many events tells the state after it, with the
events up to it. -/
theorem state_of_feed {m : Machine S E A K} {arrivals : List (Arrival E)}
    {outcomes : List (Outcome S E)} (completed : (m.feed arrivals).result = some outcomes)
    {n : Nat} {outcome : Outcome S E} (reported : outcomes[n]? = some outcome) :
    outcome.state = (m.feed (arrivals.take (n + 1))).machine.state := by
  induction arrivals generalizing m outcomes n with
  | nil =>
      cases completed
      contradiction
  | cons arrival rest ih =>
      obtain ⟨first, others, head, tail, rfl⟩ := result_feed_cons completed
      rw [List.take_succ_cons, feed_of_some _ head]
      cases n with
      | zero =>
          rw [List.getElem?_cons_zero, Option.some.injEq] at reported
          subst reported
          exact (outcome_of_step head).1
      | succ n =>
          rw [List.getElem?_cons_succ] at reported
          exact ih tail reported

end Machine

/-! ## Machines and interpreters -/

/-- A run that came to its end, with the state, the receiver and the answer of a
reading. -/
structure Run.Agrees {α : Type} (run : Run S E A K α) (reading : Reading S K α) : Prop where
  state : run.machine.state = reading.state
  receiver : run.machine.receiver = reading.receiver
  result : run.result = some reading.answer

/-- The machine goes by the rules that the interpreter reads, and its sink does
to the receiver what the interpreter does. -/
structure Machine.Follows (m : Machine S E A K) (i : Interpreter S E A K) : Prop where
  coherent : m.table.Coherent
  rules : m.table.rules.toList = i.rules
  sink : m.sink = .total i.perform i.unhandled

namespace Machine

variable [Named S] [Named E] {m : Machine S E A K} {i : Interpreter S E A K}

namespace Follows

omit [Named S] [Named E] in
/-- To follow an interpreter is a matter of the table and the sink alone. -/
theorem congr (follows : m.Follows i) {other : Machine S E A K} (table : other.table = m.table)
    (sink : other.sink = m.sink) : other.Follows i := by
  refine ⟨?_, ?_, ?_⟩
  · rw [table]
    exact follows.coherent
  · rw [table]
    exact follows.rules
  · rw [sink]
    exact follows.sink

theorem step (follows : m.Follows i) (arrival : Arrival E) :
    (m.step arrival).machine.Follows i :=
  follows.congr (table_step m arrival) (sink_step m arrival)

theorem feed (follows : m.Follows i) (arrivals : List (Arrival E)) :
    (m.feed arrivals).machine.Follows i :=
  feed_keeps (P := (Follows · i)) (fun _ arrival before => before.step arrival) follows arrivals

omit [Named S] [Named E] in
/-- The machine finds the rule that the interpreter finds. -/
theorem lookup (follows : m.Follows i) (state : S) (event : E) :
    m.table.lookup state event =
      i.rules.find? fun r => r.source = state ∧ r.event = event := by
  rw [← follows.rules]
  exact follows.coherent.lookup_eq_find? state event

theorem step_agrees (follows : m.Follows i) (arrival : Arrival E) :
    (m.step arrival).Agrees (i.step m.state m.receiver arrival.event) := by
  rw [Interpreter.step, ← follows.lookup]
  cases found : m.table.lookup m.state arrival.event with
  | none =>
      rw [step_of_none found, refuse, follows.sink]
      exact ⟨rfl, rfl, rfl⟩
  | some r =>
      rw [step_of_some found, fire, follows.sink, Sink.performAll_total]
      exact ⟨rfl, rfl, rfl⟩

/-- The sink is called as the interpreter says, with log lines in between. -/
theorem calls_step (follows : m.Follows i) (arrival : Arrival E) :
    (m.step arrival).signals.filter Signal.isCall = i.calls m.state arrival.event := by
  rw [Interpreter.calls, ← follows.lookup]
  cases found : m.table.lookup m.state arrival.event with
  | none =>
      rw [step_of_none found, refuse, follows.sink]
      rfl
  | some r =>
      rw [step_of_some found, fire, follows.sink, Sink.performAll_total]
      simp [Signal.isCall]

theorem feed_agrees (follows : m.Follows i) (arrivals : List (Arrival E)) :
    (m.feed arrivals).Agrees (i.run m.state m.receiver (arrivals.map Arrival.event)) := by
  induction arrivals generalizing m with
  | nil => exact ⟨rfl, rfl, rfl⟩
  | cons arrival rest ih =>
      -- The others are read from where the first event leaves the machine,
      -- which is where it leaves the interpreter.
      have first := follows.step_agrees arrival
      have others := ih (follows.step arrival)
      rw [first.state, first.receiver] at others
      rw [feed_of_some rest first.result, List.map_cons, Interpreter.run]
      refine ⟨others.state, others.receiver, ?_⟩
      rw [others.result, Option.map_some]

/-- A command that hands over events does what a feed of the same events
does. -/
theorem execute_delivery (follows : m.Follows i) (delivery : Delivery E) :
    (m.execute delivery.command).machine = (m.feed delivery.arrivals).machine ∧
    (m.feed delivery.arrivals).result =
      some ((m.execute delivery.command).result.elim [] Answer.reported) := by
  cases delivery with
  | one arrival =>
      have agrees := follows.step_agrees arrival
      rw [Delivery.arrivals, feed_of_some [] agrees.result, Delivery.command, execute]
      refine ⟨rfl, ?_⟩
      rw [agrees.result]
      rfl
  | batch arrivals =>
      have agrees := follows.feed_agrees arrivals
      rw [Delivery.arrivals, Delivery.command, execute]
      refine ⟨rfl, ?_⟩
      rw [agrees.result]
      rfl

/-- Events may be cut into commands in any way. -/
theorem after_deliveries (follows : m.Follows i) (deliveries : List (Delivery E)) :
    m.after (deliveries.map Delivery.command) =
      (m.feed (deliveries.flatMap Delivery.arrivals)).machine ∧
    (m.feed (deliveries.flatMap Delivery.arrivals)).result =
      some (m.outcomes (deliveries.map Delivery.command)) := by
  induction deliveries generalizing m with
  | nil => exact ⟨rfl, rfl⟩
  | cons delivery rest ih =>
      -- The first command is a feed of its own events, so the two feeds join
      -- into one.
      obtain ⟨machine, result⟩ := follows.execute_delivery delivery
      obtain ⟨restMachine, restResult⟩ := ih (follows.feed delivery.arrivals)
      rw [List.map_cons, List.flatMap_cons, feed_append m _ _ _ result, after_cons,
        outcomes_cons, machine]
      refine ⟨restMachine, ?_⟩
      simp only [restResult, Option.map_some]

end Follows

end Machine

/-- A machine over the table of a draft reads the rules of the draft, whatever
the receiver does and however the events are cut into commands: there is one
outcome for each event, the outcomes, the state and the receiver are those of
the interpreter, and each outcome tells the state after its event. -/
theorem Table.Draft.session_reads_rules [Named S] [Named E] (draft : Table.Draft S E A)
    (t : Table S E A) (built : draft.build = .ok t) (perform : A → K → K)
    (unhandled : S → E → K → K) (state : S) (receiver : K) (journal : Option (Journal S E))
    (deliveries : List (Delivery E)) :
    let m : Machine S E A K := ⟨t, .total perform unhandled, state, receiver, journal⟩
    let commands := deliveries.map Delivery.command
    let arrivals := deliveries.flatMap Delivery.arrivals
    let i : Interpreter S E A K := ⟨draft.rules.toList, perform, unhandled⟩
    let reading := i.run state receiver (arrivals.map Arrival.event)
    m.outcomes commands = reading.answer ∧
    (m.after commands).state = reading.state ∧
    (m.after commands).receiver = reading.receiver ∧
    (m.outcomes commands).length = arrivals.length ∧
    (∀ n outcome, (m.outcomes commands)[n]? = some outcome →
      outcome.state = (m.feed (arrivals.take (n + 1))).machine.state) ∧
    m.after commands = (m.feed arrivals).machine ∧
    (m.feed arrivals).result = some (m.outcomes commands) := by
  intro m commands arrivals i reading
  have follows : m.Follows i :=
    ⟨coherent_of_build built, by rw [rules_of_build built], rfl⟩
  have agrees : (m.feed arrivals).Agrees reading := follows.feed_agrees arrivals
  obtain ⟨machine, result⟩ := follows.after_deliveries deliveries
  have answer : m.outcomes commands = reading.answer :=
    Option.some.inj (result.symm.trans agrees.result)
  refine ⟨answer, ?_, ?_, Machine.length_of_feed result, ?_, machine, result⟩
  · exact (congrArg Machine.state machine).trans agrees.state
  · exact (congrArg Machine.receiver machine).trans agrees.receiver
  · intro n outcome reported
    exact Machine.state_of_feed result reported

/-- The turnstile refuses a reset, takes two coins in one go and lets one
passage through. -/
theorem Table.Draft.session_reads_turnstile_rules :
    let m : Machine Turnstile.State Turnstile.Event Turnstile.Action (List Turnstile.Action) :=
      ⟨Turnstile.table, .total (fun a done => done ++ [a]) (fun _ _ done => done), .locked0, [],
        none⟩
    let commands := [.one ⟨.reset, default⟩, .batch [⟨.coin, default⟩, ⟨.coin, default⟩],
      .batch [], .one ⟨.pass, default⟩].map Delivery.command
    m.outcomes commands =
      [.unhandled .locked0 .reset, .moved .locked0 .locked1 .coin,
        .moved .locked1 .unlocked .coin, .moved .unlocked .locked0 .pass] ∧
    (m.after commands).state = .locked0 ∧
    (m.after commands).receiver = [.unlock, .lock] := by
  obtain ⟨outcomes, state, receiver, _⟩ := session_reads_rules _ _ Turnstile.build_rules
    (fun a done => done ++ [a]) (fun _ _ done => done) .locked0 [] none
    [.one ⟨.reset, default⟩, .batch [⟨.coin, default⟩, ⟨.coin, default⟩], .batch [],
      .one ⟨.pass, default⟩]
  exact ⟨outcomes, state, receiver⟩

end Transducer
