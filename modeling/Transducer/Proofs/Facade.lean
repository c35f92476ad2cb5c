import Transducer.Proofs.Lending
import Transducer.Turnstile.Demo
import Transducer.Turnstile.Session

/-!
# A turnstile is a machine

A turnstile has operations of its own and hands its actions on to six controls.
All this comes to is a machine over the rules of the manual, whose sink does
what the actions are named after. A turnstile that works on a lent receiver is
the same machine, with the receiver in the hands of its owner.

* `Turnstile.manual`, `Turnstile.Controls.sinkByName`: what users are told about
  the turnstile, its rules and the names of the operations that the actions
  stand for.
* `Turnstile.build_manual`, `Turnstile.sinkByName_eq`: the rules and the
  controls are those of the manual.
* `Turnstile.run_execute`, `Turnstile.map_run_replies`,
  `Turnstile.machine_after`: an operation is a command to the machine, and a
  session is a session with the machine.
* `Turnstile.sink_lend`: lent controls make a lent sink.
* `Turnstile.facade_refines_machine`: what can be seen of a turnstile is what
  can be seen of the machine.
-/

namespace Transducer

variable {K W : Type}

/-- The same view of a machine whose receiver is lent. -/
def Machine.View.lent {S E A : Type} (place : Place W K) (w : W) (view : View S E A K) :
    View S E A W :=
  { view with receiver := place.set view.receiver w }

namespace Turnstile

/-! ## The manual -/

/-- The rules, row by row, as users are told. -/
def manual : List (Table.Draft.Call State Event Action) := [
  .declare .locked0 .coin .locked1 [],
  .declare .locked1 .coin .unlocked [.unlock],
  .declare .unlocked .coin .unlocked [.thankYou],
  .declare .locked0 .pass .alarming [.alarmOn],
  .declare .locked1 .pass .alarming [.alarmOn],
  .declare .unlocked .pass .locked0 [.lock],
  .declare .alarming .reset .locked0 [.alarmOff, .lock]]

namespace Controls

/-- The operation that goes by a name. -/
def operation? (controls : Controls K) (name : String) : Option (K → K) :=
  [("unlock", controls.unlock), ("lock", controls.lock), ("alarmOn", controls.alarmOn),
    ("alarmOff", controls.alarmOff), ("thankyou", controls.thankYou)].lookup name

/-- A sink that does for an action what goes by the name of the action. -/
def sinkByName (controls : Controls K) : Sink State Event Action K where
  perform action k :=
    match controls.operation? (Named.name action) with
    | some operation => .done (operation k)
    | none => .aborted k
  unhandled state event k := .done (controls.unhandled state event k)

end Controls

theorem build_manual : (Table.Draft.ofCalls manual).build = .ok table :=
  build_rules

theorem sinkByName_eq (controls : Controls K) : controls.sinkByName = controls.sink := by
  have performs : controls.sinkByName.perform = controls.sink.perform := by
    funext action k
    cases action <;> rfl
  exact congrArg (Sink.mk · controls.sink.unhandled) performs

/-! ## Operations and sessions -/

def Reply.run {α : Type} (reply : Reply K α) : Run State Event Action K α :=
  ⟨reply.turnstile.machine, reply.signals, reply.result⟩

/-- An operation of a turnstile is a command to its machine. -/
theorem run_execute (t : Turnstile K) (command : Command K) :
    (t.execute command).run = t.machine.execute command.plain := by
  cases command <;> rfl

theorem map_run_replies (t : Turnstile K) (commands : List (Command K)) :
    (t.replies commands).map Reply.run =
      (t.machine.session (commands.map Command.plain)).map Machine.Exchange.run := by
  induction commands generalizing t with
  | nil => rfl
  | cons command rest ih =>
      have first := run_execute t command
      have machine : (t.execute command).turnstile.machine =
          (t.machine.execute command.plain).machine :=
        congrArg Run.machine first
      rw [replies, List.map_cons, List.map_cons, Machine.session, List.map_cons, first, ih, machine]

theorem machine_after (t : Turnstile K) (commands : List (Command K)) :
    (t.after commands).machine = t.machine.after (commands.map Command.plain) := by
  induction commands generalizing t with
  | nil => rfl
  | cons command rest ih =>
      rw [after_cons, ih, List.map_cons, Machine.after_cons, ← run_execute]
      rfl

/-- What can be seen of a turnstile can be seen of its machine. -/
theorem map_view_replies (t : Turnstile K) (commands : List (Command K)) :
    (t.replies commands).map Reply.view =
      (t.machine.session (commands.map Command.plain)).map Machine.Exchange.view := by
  have runs := congrArg (List.map fun run : Run State Event Action K _ =>
    (⟨run.result, run.signals, run.machine.state, run.machine.receiver, run.machine.journal⟩ :
      Machine.View State Event Action K)) (map_run_replies t commands)
  rw [List.map_map, List.map_map] at runs
  exact runs

/-! ## Lent receivers -/

theorem map_plain_lend (place : Place W K) (commands : List (Command K)) :
    (commands.map (Command.lend place)).map Command.plain =
      (commands.map Command.plain).map (Machine.Command.lend place) := by
  rw [List.map_map, List.map_map]
  refine List.map_congr_left ?_
  intro command _
  cases command <;> rfl

theorem sink_lend (controls : Controls K) (place : Place W K) :
    (controls.lend place).sink = controls.sink.lend place := by
  have performs : (controls.lend place).sink.perform = (controls.sink.lend place).perform := by
    funext action w
    cases action <;> rfl
  exact congrArg (Sink.mk · (controls.sink.lend place).unhandled) performs

/-! ## Turnstiles from the start -/

/-- A turnstile that was just set up, with or without a journal. -/
def launch (recording : Bool) (controls : Controls K) (receiver : K) : Turnstile K :=
  if recording then startRecording controls receiver else start controls receiver

theorem machine_launch (recording : Bool) (controls : Controls K) (receiver : K) :
    (launch recording controls receiver).machine =
      if recording then Machine.startRecording table controls.sinkByName receiver .locked0
      else Machine.start table controls.sinkByName receiver .locked0 := by
  rw [sinkByName_eq]
  cases recording with
  | false => rfl
  | true => rfl

theorem machine_launch_lend {place : Place W K} (lawful : place.Lawful) (recording : Bool)
    (controls : Controls K) (w : W) :
    (launch recording (controls.lend place) w).machine =
      (launch recording controls (place.get w)).machine.lent place w := by
  cases recording with
  | false =>
      simp only [launch, start, Machine.start, Machine.lent, sink_lend, lawful.set_get,
        Bool.false_eq_true, if_false]
  | true =>
      simp only [launch, startRecording, Machine.startRecording, Machine.lent, sink_lend,
        lawful.set_get, if_true]

/-- Whatever the controls do and whatever is asked of a turnstile: after every
operation its answer, its signals, its state, its receiver and its journal are
those of a machine over the rules of the manual, which starts locked without a
coin and whose sink does for each action what the action is named after. If the
receiver is lent to the turnstile, the same holds of the receiver in its place,
and nothing else in the hands of the owner changes. A coin, a passage and a
reset are steps with the event of this name. -/
theorem facade_refines_machine (recording : Bool) (controls : Controls K) (receiver : K)
    (commands : List (Command K)) :
    ∃ plain, (Table.Draft.ofCalls manual).build = .ok plain ∧
      let m := if recording then Machine.startRecording plain controls.sinkByName receiver .locked0
        else Machine.start plain controls.sinkByName receiver .locked0
      let plainCommands := commands.map Command.plain
      let t := launch recording controls receiver
      ((t.replies commands).map Reply.view =
          (m.session plainCommands).map Machine.Exchange.view ∧
        (t.after commands).state = (m.after plainCommands).state ∧
        (t.after commands).journal = (m.after plainCommands).journal ∧
        (t.after commands).receiver = (m.after plainCommands).receiver) ∧
      (∀ (W : Type) (place : Place W K), place.Lawful → ∀ w, place.get w = receiver →
        let lent := launch recording (controls.lend place) w
        let lentCommands := commands.map (Command.lend place)
        (lent.replies lentCommands).map Reply.view =
          (m.session plainCommands).map (fun x => x.view.lent place w) ∧
        (lent.after lentCommands).state = (m.after plainCommands).state ∧
        (lent.after lentCommands).journal = (m.after plainCommands).journal ∧
        (lent.after lentCommands).receiver = place.set (m.after plainCommands).receiver w) ∧
      ∀ (other : Turnstile K) (time : Instant),
        other.coin time = other.step ⟨.coin, time⟩ ∧
        other.pass time = other.step ⟨.pass, time⟩ ∧
        other.reset time = other.step ⟨.reset, time⟩ := by
  refine ⟨table, build_manual, ?_⟩
  intro m plainCommands t
  have machine : t.machine = m := machine_launch recording controls receiver
  refine ⟨?_, ?_, fun other time => ⟨rfl, rfl, rfl⟩⟩
  · have final : (t.after commands).machine = m.after plainCommands := by
      rw [machine_after, machine]
    refine ⟨?_, congrArg Machine.state final, congrArg Machine.journal final,
      congrArg Machine.receiver final⟩
    rw [map_view_replies, machine]
  · rintro W place lawful w rfl lent lentCommands
    have lentMachine : lent.machine = m.lent place w := by
      rw [← machine]
      exact machine_launch_lend lawful recording controls w
    have final : (lent.after lentCommands).machine = (m.after plainCommands).lent place w := by
      rw [machine_after, lentMachine, map_plain_lend, Machine.after_lent lawful]
    refine ⟨?_, congrArg Machine.state final, congrArg Machine.journal final,
      congrArg Machine.receiver final⟩
    rw [map_view_replies, lentMachine, map_plain_lend, Machine.session_lent lawful, List.map_map]
    rfl

/-- The lines of the demonstration, kept beside a page number. -/
def page : Place (Nat × List String) (List String) :=
  ⟨Prod.snd, fun lines book => (book.1, lines)⟩

/-- A turnstile writes its lines on a page of somebody else's book, and the page
is torn out in between. -/
theorem lent_console_refines_machine :
    page.Lawful ∧
    ∃ plain, (Table.Draft.ofCalls manual).build = .ok plain ∧
      let m := Machine.startRecording plain Demo.console.sinkByName [] .locked0
      let t := launch true (Demo.console.lend page) (7, [])
      let commands : List (Command (List String)) :=
        [.coin .epoch, .pass .epoch, .editReceiver fun _ => [], .step ⟨.coin, .epoch⟩,
          .takeJournal, .reset .epoch]
      (t.after (commands.map (Command.lend page))).receiver =
        (7, (m.after (commands.map Command.plain)).receiver) := by
  have lawful : page.Lawful := ⟨fun _ _ => rfl, fun _ => rfl, fun _ _ _ => rfl⟩
  obtain ⟨plain, built, _, lent, _⟩ := facade_refines_machine true Demo.console []
    [.coin .epoch, .pass .epoch, .editReceiver fun _ => [], .step ⟨.coin, .epoch⟩, .takeJournal,
      .reset .epoch]
  refine ⟨lawful, plain, built, ?_⟩
  intro m t commands
  exact (lent _ page lawful (7, []) rfl).2.2.2

end Turnstile

end Transducer
