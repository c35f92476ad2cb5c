import Transducer.Proofs.Dispatch
import Transducer.Turnstile.Session

/-!
# How a turnstile reacts

A turnstile does what its seven rules say, whichever operation brings an event
to it and whatever its controls do to the receiver.

* `Turnstile.react`: what the rules say about an event in a state.
* `Turnstile.execute_reacts`: what a command does to the state, and the outcome
  that it returns.
* `Turnstile.map_event_outcomes`: a session returns one outcome for each event.
-/

namespace Transducer.Turnstile

variable {K : Type}

/-! ## One event -/

/-- The outcome that the rules give an event in a state. -/
def react (state : State) (event : Event) : Outcome State Event :=
  match rules.find? (·.applies state event) with
  | some r => .moved state r.target event
  | none => .unhandled state event

theorem event_react (state : State) (event : Event) : (react state event).event = event := by
  unfold react
  split <;> rfl

def Controls.interpreter (controls : Controls K) : Interpreter State Event Action K :=
  ⟨rules, controls.perform, controls.unhandled⟩

theorem find?_interpreter (controls : Controls K) (state : State) (event : Event) :
    (controls.interpreter.rules.find? fun r => r.source = state ∧ r.event = event) =
      rules.find? (·.applies state event) :=
  rfl

theorem step_interpreter (controls : Controls K) (state : State) (receiver : K) (event : Event) :
    (controls.interpreter.step state receiver event).answer = react state event ∧
      (controls.interpreter.step state receiver event).state = (react state event).state := by
  rw [Interpreter.step, react, find?_interpreter]
  cases rules.find? (·.applies state event) with
  | none => exact ⟨rfl, rfl⟩
  | some r => exact ⟨rfl, rfl⟩

variable {controls : Controls K} {t : Turnstile K}

theorem step_reacts (follows : t.machine.Follows controls.interpreter) (arrival : Arrival Event) :
    (t.step arrival).result = some (react t.state arrival.event) ∧
      (t.step arrival).turnstile.state = (react t.state arrival.event).state := by
  have agrees := follows.step_agrees arrival
  obtain ⟨answer, state⟩ :=
    step_interpreter controls t.state t.machine.receiver arrival.event
  exact ⟨agrees.result.trans (congrArg some answer), agrees.state.trans state⟩

/-- A command that brings an event about has the outcome that the rules give.
The other commands leave the state as it is and return no outcome. -/
theorem execute_reacts (follows : t.machine.Follows controls.interpreter) (command : Command K) :
    (t.execute command).turnstile.machine.Follows controls.interpreter ∧
      (t.execute command).result.elim [] Machine.Answer.reported =
        (command.event?.map (react t.state)).toList ∧
      (t.execute command).turnstile.state =
        (command.event?.map (react t.state)).elim t.state Outcome.state := by
  have handled (arrival : Arrival Event) :
      ((t.step arrival).answer.turnstile.machine.Follows controls.interpreter ∧
        (t.step arrival).answer.result.elim [] Machine.Answer.reported =
          [react t.state arrival.event] ∧
        (t.step arrival).answer.turnstile.state = (react t.state arrival.event).state) := by
    obtain ⟨result, state⟩ := step_reacts follows arrival
    refine ⟨follows.step arrival, ?_, state⟩
    rw [Reply.answer, result]
    rfl
  cases command with
  | coin time => exact handled ⟨.coin, time⟩
  | pass time => exact handled ⟨.pass, time⟩
  | reset time => exact handled ⟨.reset, time⟩
  | step arrival => exact handled arrival
  | journal => exact ⟨follows, rfl, rfl⟩
  | takeJournal => exact ⟨follows.congr rfl rfl, rfl, rfl⟩
  | editReceiver edit => exact ⟨follows.congr rfl rfl, rfl, rfl⟩

/-! ## Sessions -/

/-- A turnstile that was just set up follows its rules, with any controls and
any journal. -/
theorem follows_initial (controls : Controls K) (receiver : K)
    (journal : Option (Journal State Event)) :
    (Machine.mk table controls.sink .locked0 receiver journal).Follows controls.interpreter :=
  ⟨Table.Draft.coherent_of_build build_rules, rfl, rfl⟩

theorem follows_after (follows : t.machine.Follows controls.interpreter)
    (commands : List (Command K)) : (t.after commands).machine.Follows controls.interpreter := by
  induction commands generalizing t with
  | nil => exact follows
  | cons command rest ih => exact ih (execute_reacts follows command).1

/-- There is one outcome for each event that a command brings about. -/
theorem map_event_outcomes (follows : t.machine.Follows controls.interpreter)
    (commands : List (Command K)) :
    (t.outcomes commands).map Outcome.event = commands.filterMap Command.event? := by
  induction commands generalizing t with
  | nil => rfl
  | cons command rest ih =>
      obtain ⟨stillFollows, reported, _⟩ := execute_reacts follows command
      rw [outcomes_cons, List.map_append, ih stillFollows, reported]
      cases brought : command.event? with
      | none =>
          rw [List.filterMap_cons_none brought]
          rfl
      | some event =>
          rw [List.filterMap_cons_some brought]
          show [(react t.state event).event] ++ _ = event :: _
          rw [event_react, List.singleton_append]

end Transducer.Turnstile
