import Transducer.Machine.Session
import Transducer.Proofs.Dispatch

/-!
# Lent receivers

A receiver may stay with its owner while a machine works on it. The machine then
does exactly what it does with a receiver of its own, and in the hands of the
owner nothing changes but the receiver.

* `Place.Lawful`: a place gives back what was put there, and holds nothing else.
* `Machine.lent`: the same machine with its receiver in a place. It makes no
  difference whether the receiver is lent before or after: `Machine.step_lent`,
  `Machine.feed_lent`, `Machine.execute_lent`, `Machine.session_lent`,
  `Machine.after_lent`.
-/

namespace Transducer

variable {S E A K W : Type}

structure Place.Lawful (place : Place W K) : Prop where
  get_set : ∀ k w, place.get (place.set k w) = k
  set_get : ∀ w, place.set (place.get w) w = w
  set_set : ∀ k k' w, place.set k' (place.set k w) = place.set k' w

/-! ## Calls on a lent receiver -/

/-- What was in the place before does not matter to what is put there. -/
theorem Place.Lawful.map_set {place : Place W K} (lawful : place.Lawful) (call : Call K) (k : K)
    (w : W) : call.map (place.set · (place.set k w)) = call.map (place.set · w) := by
  cases call with
  | done next => exact congrArg Call.done (lawful.set_set k next w)
  | aborted next => exact congrArg Call.aborted (lawful.set_set k next w)

namespace Sink

variable {place : Place W K}

theorem perform_lend (lawful : place.Lawful) (sink : Sink S E A K) (action : A) (k : K) (w : W) :
    (sink.lend place).perform action (place.set k w) =
      (sink.perform action k).map (place.set · w) := by
  show (sink.perform action (place.get (place.set k w))).map (place.set · (place.set k w)) = _
  rw [lawful.get_set, lawful.map_set]

theorem unhandled_lend (lawful : place.Lawful) (sink : Sink S E A K) (state : S) (event : E) (k : K)
    (w : W) :
    (sink.lend place).unhandled state event (place.set k w) =
      (sink.unhandled state event k).map (place.set · w) := by
  show (sink.unhandled state event (place.get (place.set k w))).map
    (place.set · (place.set k w)) = _
  rw [lawful.get_set, lawful.map_set]

theorem performAll_lend (lawful : place.Lawful) (sink : Sink S E A K) (actions : List A) (k : K)
    (w : W) :
    (sink.lend place).performAll actions (place.set k w) =
      ((sink.performAll actions k).1, (sink.performAll actions k).2.map (place.set · w)) := by
  induction actions generalizing k with
  | nil => rfl
  | cons action rest ih =>
      rw [performAll, performAll, perform_lend lawful]
      cases sink.perform action k with
      | aborted next => rfl
      | done next =>
          simp only [Call.map]
          rw [ih]
          rfl

end Sink

/-! ## Machines -/

/-- The same command for a machine with a lent receiver. An edit reaches the
receiver in its place. -/
def Machine.Command.lend (place : Place W K) : Command E K → Command E W
  | .step arrival => .step arrival
  | .feed arrivals => .feed arrivals
  | .journal => .journal
  | .takeJournal => .takeJournal
  | .editReceiver edit => .editReceiver fun w => place.set (edit (place.get w)) w

variable [DecidableEq S] [Hashable S] [DecidableEq E] [Hashable E]

/-- The same machine, but its receiver is in a place of an owner. -/
def Machine.lent (m : Machine S E A K) (place : Place W K) (w : W) : Machine S E A W :=
  ⟨m.table, m.sink.lend place, m.state, place.set m.receiver w, m.journal⟩

def Run.lent {α : Type} (run : Run S E A K α) (place : Place W K) (w : W) : Run S E A W α :=
  ⟨run.machine.lent place w, run.signals, run.result⟩

def Machine.Exchange.lent (place : Place W K) (w : W) (x : Exchange S E A K) : Exchange S E A W :=
  ⟨x.command.lend place, x.run.lent place w⟩

namespace Machine

variable [Named S] [Named E] {place : Place W K}

theorem refuse_lent (lawful : place.Lawful) (m : Machine S E A K) (w : W) (event : E) :
    (m.lent place w).refuse event = (m.refuse event).lent place w := by
  simp only [refuse, lent, Sink.unhandled_lend lawful]
  cases m.sink.unhandled m.state event m.receiver with
  | done k => rfl
  | aborted k => rfl

theorem fire_lent (lawful : place.Lawful) (m : Machine S E A K) (w : W) (arrival : Arrival E)
    (r : Rule S E A) : (m.lent place w).fire arrival r = (m.fire arrival r).lent place w := by
  simp only [fire, lent, Sink.performAll_lend lawful]
  rcases m.sink.performAll r.actions m.receiver with ⟨completed, k | k⟩
  · rfl
  · rfl

theorem step_lent (lawful : place.Lawful) (m : Machine S E A K) (w : W) (arrival : Arrival E) :
    (m.lent place w).step arrival = (m.step arrival).lent place w := by
  have lookup : (m.lent place w).table.lookup (m.lent place w).state arrival.event =
      m.table.lookup m.state arrival.event :=
    rfl
  cases found : m.table.lookup m.state arrival.event with
  | none =>
      rw [step_of_none found, step_of_none (lookup.trans found)]
      exact refuse_lent lawful m w arrival.event
  | some r =>
      rw [step_of_some found, step_of_some (lookup.trans found)]
      exact fire_lent lawful m w arrival r

theorem feed_lent (lawful : place.Lawful) (m : Machine S E A K) (w : W)
    (arrivals : List (Arrival E)) :
    (m.lent place w).feed arrivals = (m.feed arrivals).lent place w := by
  induction arrivals generalizing m with
  | nil => rfl
  | cons arrival rest ih =>
      have first := step_lent lawful m w arrival
      have result : ((m.lent place w).step arrival).result = (m.step arrival).result := by
        rw [first, Run.lent]
      cases completed : (m.step arrival).result with
      | none =>
          rw [feed_of_none rest completed, feed_of_none rest (result.trans completed), first]
          rfl
      | some outcome =>
          rw [feed_of_some rest completed, feed_of_some rest (result.trans completed), first]
          simp only [Run.lent, ih]

theorem execute_lent (lawful : place.Lawful) (m : Machine S E A K) (w : W) (command : Command E K) :
    (m.lent place w).execute (command.lend place) = (m.execute command).lent place w := by
  cases command with
  | step arrival =>
      simp only [Command.lend, execute, step_lent lawful]
      rfl
  | feed arrivals =>
      simp only [Command.lend, execute, feed_lent lawful]
      rfl
  | journal => rfl
  | takeJournal => rfl
  | editReceiver edit =>
      simp only [Command.lend, execute, editReceiver, Run.lent, lent, lawful.get_set,
        lawful.set_set]

/-- A machine with a lent receiver has the same exchanges, and at every point
its owner holds the receiver that the machine would have. -/
theorem session_lent (lawful : place.Lawful) (m : Machine S E A K) (w : W)
    (commands : List (Command E K)) :
    (m.lent place w).session (commands.map (Command.lend place)) =
      (m.session commands).map (Exchange.lent place w) := by
  induction commands generalizing m with
  | nil => rfl
  | cons command rest ih =>
      have first := execute_lent lawful m w command
      rw [List.map_cons, session, session, List.map_cons, first]
      exact congrArg (_ :: ·) (ih (m.execute command).machine)

theorem after_lent (lawful : place.Lawful) (m : Machine S E A K) (w : W)
    (commands : List (Command E K)) :
    (m.lent place w).after (commands.map (Command.lend place)) =
      (m.after commands).lent place w := by
  induction commands generalizing m with
  | nil => rfl
  | cons command rest ih =>
      rw [List.map_cons, after_cons, after_cons, execute_lent lawful]
      exact ih (m.execute command).machine

end Machine

end Transducer
