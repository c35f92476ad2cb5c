import Transducer.Proofs.Reaction

/-!
# The course of events

What a turnstile does in a session depends on the events alone. How they were
brought about, what was asked in between and what the controls do to the
receiver makes no difference.

* `Turnstile.performs`: the actions that the rules give an event in a state.
* `Turnstile.finish`, `Turnstile.course`, `Turnstile.performance`: the state,
  the outcomes and the actions that a list of events leads to.
* `Turnstile.session_follows_course`: a session takes this course.
* `Turnstile.Watches`: a turnstile with watched controls beside one without.
* `Turnstile.Watches.receiver_after`, `Turnstile.Watches.session`: the calls on
  the controls in a session are the actions that its events lead to, and
  watching makes no difference.
-/

namespace Transducer.Turnstile

variable {K : Type}

/-! ## Events without a turnstile -/

/-- The actions that the rules give an event in a state. -/
def performs (state : State) (event : Event) : List Action :=
  match rules.find? (·.applies state event) with
  | some r => r.actions
  | none => []

/-- The state that events lead to. -/
def finish (state : State) (events : List Event) : State :=
  events.foldl (fun state event => (react state event).state) state

/-- The outcomes of events. -/
def course (state : State) : List Event → List (Outcome State Event)
  | [] => []
  | event :: rest => react state event :: course (react state event).state rest

/-- The actions that events lead to. -/
def performance (state : State) : List Event → List Action
  | [] => []
  | event :: rest => performs state event ++ performance (react state event).state rest

theorem finish_cons (state : State) (event : Event) (rest : List Event) :
    finish state (event :: rest) = finish (react state event).state rest :=
  rfl

theorem finish_append (state : State) (events others : List Event) :
    finish state (events ++ others) = finish (finish state events) others :=
  List.foldl_append

theorem performance_append (state : State) (events others : List Event) :
    performance state (events ++ others) =
      performance state events ++ performance (finish state events) others := by
  induction events generalizing state with
  | nil => rfl
  | cons event rest ih =>
      rw [List.cons_append, performance, performance, ih, List.append_assoc, finish_cons]

/-! ## Sessions -/

/-- The state and the outcomes of a session are those of its events. -/
theorem session_follows_course {controls : Controls K} {t : Turnstile K}
    (follows : t.machine.Follows controls.interpreter) (commands : List (Command K)) :
    let events := commands.filterMap Command.event?
    (t.after commands).state = finish t.state events ∧
      t.outcomes commands = course t.state events := by
  induction commands generalizing t with
  | nil => exact ⟨rfl, rfl⟩
  | cons command rest ih =>
      obtain ⟨stillFollows, reported, state⟩ := execute_reacts follows command
      obtain ⟨restState, restOutcomes⟩ := ih stillFollows
      rw [after_cons, outcomes_cons, restState, restOutcomes, reported, state]
      cases brought : command.event? with
      | none =>
          rw [List.filterMap_cons_none brought]
          exact ⟨rfl, rfl⟩
      | some event =>
          rw [List.filterMap_cons_some brought]
          exact ⟨rfl, rfl⟩

/-! ## Watched controls

Controls that are watched do the same as the ones behind them, and what they
write down are the actions that the rules give. -/

theorem perform_watched (controls : Controls K) (action : Action) (w : Watched K) :
    controls.watched.perform action w =
      ⟨controls.perform action w.receiver, w.calls ++ [action]⟩ := by
  cases action <;> rfl

theorem foldl_perform_watched (controls : Controls K) (actions : List Action) (w : Watched K) :
    actions.foldl (fun w action => controls.watched.perform action w) w =
      ⟨actions.foldl (fun k action => controls.perform action k) w.receiver,
        w.calls ++ actions⟩ := by
  induction actions generalizing w with
  | nil =>
      rw [List.append_nil]
      rfl
  | cons action rest ih =>
      rw [List.foldl_cons, ih, perform_watched, List.append_assoc]
      rfl

theorem receiver_step_watched (controls : Controls K) (state : State) (w : Watched K)
    (event : Event) :
    (controls.watched.interpreter.step state w event).receiver =
      ⟨(controls.interpreter.step state w.receiver event).receiver,
        w.calls ++ performs state event⟩ := by
  rw [Interpreter.step, Interpreter.step, performs, find?_interpreter, find?_interpreter]
  cases rules.find? (·.applies state event) with
  | none =>
      rw [List.append_nil]
      rfl
  | some r => exact foldl_perform_watched controls r.actions w

/-- The turnstile with the watched controls has come as far as the one
without. -/
structure Watches (controls : Controls K) (t : Turnstile (Watched K)) (u : Turnstile K) :
    Prop where
  follows : t.machine.Follows controls.watched.interpreter
  plain : u.machine.Follows controls.interpreter
  state : t.state = u.state
  receiver : t.receiver.receiver = u.receiver

namespace Watches

variable {controls : Controls K} {t : Turnstile (Watched K)} {u : Turnstile K}

theorem initial (controls : Controls K) (receiver : K) (journal : Option (Journal State Event)) :
    Watches controls ⟨⟨table, controls.watched.sink, .locked0, ⟨receiver, []⟩, journal⟩⟩
      ⟨⟨table, controls.sink, .locked0, receiver, journal⟩⟩ :=
  ⟨follows_initial _ _ _, follows_initial _ _ _, rfl, rfl⟩

/-- As long as nothing is called, nothing is written down. -/
theorem receiver_untouched (watches : Watches controls t u) :
    t.receiver = ⟨u.receiver, t.receiver.calls ++ []⟩ := by
  rw [List.append_nil, ← watches.receiver]

theorem receiver_step (watches : Watches controls t u) (arrival : Arrival Event) :
    (t.step arrival).turnstile.receiver =
      ⟨(u.step arrival).turnstile.receiver,
        t.receiver.calls ++ performs u.state arrival.event⟩ := by
  have watched := (watches.follows.step_agrees arrival).receiver
  have plain := (watches.plain.step_agrees arrival).receiver
  have sameState : t.machine.state = u.machine.state := watches.state
  have sameReceiver : t.machine.receiver.receiver = u.machine.receiver := watches.receiver
  rw [receiver_step_watched, sameState, sameReceiver, ← plain] at watched
  exact watched

/-- A command has the same effect on the receiver behind the watched controls,
and the actions of its event are written down. -/
theorem receiver_execute (watches : Watches controls t u) (command : Command K) :
    (t.execute (command.lend Watched.place)).turnstile.receiver =
      ⟨(u.execute command).turnstile.receiver,
        t.receiver.calls ++ (command.event?.map (performs u.state)).getD []⟩ := by
  cases command with
  | coin time => exact watches.receiver_step ⟨.coin, time⟩
  | pass time => exact watches.receiver_step ⟨.pass, time⟩
  | reset time => exact watches.receiver_step ⟨.reset, time⟩
  | step arrival => exact watches.receiver_step arrival
  | journal => exact watches.receiver_untouched
  | takeJournal => exact watches.receiver_untouched
  | editReceiver edit =>
      show Watched.mk (edit t.receiver.receiver) t.receiver.calls =
        ⟨edit u.receiver, t.receiver.calls ++ []⟩
      rw [List.append_nil, watches.receiver]

theorem execute (watches : Watches controls t u) (command : Command K) :
    Watches controls (t.execute (command.lend Watched.place)).turnstile
      (u.execute command).turnstile := by
  obtain ⟨follows, _, state⟩ := execute_reacts watches.follows (command.lend Watched.place)
  obtain ⟨plain, _, plainState⟩ := execute_reacts watches.plain command
  refine ⟨follows, plain, ?_, ?_⟩
  · rw [state, plainState, Command.event?_lend, watches.state]
  · rw [watches.receiver_execute]

theorem receiver_after (watches : Watches controls t u) (commands : List (Command K)) :
    (t.after (commands.map (Command.lend Watched.place))).receiver =
      ⟨(u.after commands).receiver,
        t.receiver.calls ++ performance u.state (commands.filterMap Command.event?)⟩ := by
  induction commands generalizing t u with
  | nil => exact watches.receiver_untouched
  | cons command rest ih =>
      have state := (execute_reacts watches.plain command).2.2
      rw [List.map_cons, after_cons, after_cons, ih (watches.execute command),
        watches.receiver_execute, List.append_assoc, state]
      cases brought : command.event? with
      | none =>
          rw [List.filterMap_cons_none brought]
          rfl
      | some event =>
          rw [List.filterMap_cons_some brought]
          rfl

/-- From the initial state, the calls on the controls are the actions that the
events lead to. -/
theorem calls_after (watches : Watches controls t u) (initial : u.state = .locked0)
    (blank : t.receiver.calls = []) (commands : List (Command K)) :
    (t.after (commands.map (Command.lend Watched.place))).receiver.calls =
      performance .locked0 (commands.filterMap Command.event?) := by
  rw [watches.receiver_after, initial, blank]
  rfl

/-- Watching makes no difference to a session. -/
theorem session (watches : Watches controls t u) (commands : List (Command K)) :
    let lent := commands.map (Command.lend Watched.place)
    (t.after lent).state = (u.after commands).state ∧
      t.outcomes lent = u.outcomes commands ∧
      (t.after lent).receiver.receiver = (u.after commands).receiver := by
  intro lent
  have events : lent.filterMap Command.event? = commands.filterMap Command.event? := by
    rw [List.filterMap_map]
    exact congrArg (commands.filterMap ·) (funext (Command.event?_lend Watched.place))
  obtain ⟨state, outcomes⟩ := session_follows_course watches.follows lent
  obtain ⟨plainState, plainOutcomes⟩ := session_follows_course watches.plain commands
  refine ⟨?_, ?_, ?_⟩
  · rw [state, plainState, events, watches.state]
  · rw [outcomes, plainOutcomes, events, watches.state]
  · rw [watches.receiver_after]

end Watches

end Transducer.Turnstile
