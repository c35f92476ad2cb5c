import Transducer.Machine.Session
import Transducer.Turnstile

/-!
# Sessions with a turnstile

Everything that can be asked of a turnstile is a command, and the answers are
those of a machine. A session is a list of commands that are executed on one
turnstile, each on what the one before it left.

* `Turnstile.execute`: what a command does.
* `Turnstile.replies`, `Turnstile.after`, `Turnstile.outcomes`: what became of a
  session.
* `Turnstile.Controls.watched`: controls that can be asked afterwards which
  operations were called.
-/

namespace Transducer.Turnstile

/-! ## Commands -/

inductive Command (K : Type) where
  | coin (time : Instant)
  | pass (time : Instant)
  | reset (time : Instant)
  | step (arrival : Arrival Event)
  | journal
  | takeJournal
  /-- Changes the receiver behind the turnstile's back. -/
  | editReceiver (edit : K → K)

variable {K W : Type}

def Reply.answer (reply : Reply K (Outcome State Event)) : Reply K (Machine.Answer State Event) :=
  ⟨reply.turnstile, reply.signals, reply.result.map .outcome⟩

def execute (t : Turnstile K) : Command K → Reply K (Machine.Answer State Event)
  | .coin time => (t.coin time).answer
  | .pass time => (t.pass time).answer
  | .reset time => (t.reset time).answer
  | .step arrival => (t.step arrival).answer
  | .journal => ⟨t, [], some (.journal t.journal)⟩
  | .takeJournal =>
      let (rest, taken) := t.takeJournal
      ⟨rest, [], some (.journal taken)⟩
  | .editReceiver edit => ⟨t.editReceiver edit, [], some .edited⟩

/-- The event that a command brings about, if it brings one about. -/
def Command.event? : Command K → Option Event
  | .coin _ => some .coin
  | .pass _ => some .pass
  | .reset _ => some .reset
  | .step arrival => some arrival.event
  | .journal | .takeJournal | .editReceiver _ => none

/-- The command that does to a machine what this one does to a turnstile. -/
def Command.plain : Command K → Machine.Command Event K
  | .coin time => .step ⟨.coin, time⟩
  | .pass time => .step ⟨.pass, time⟩
  | .reset time => .step ⟨.reset, time⟩
  | .step arrival => .step arrival
  | .journal => .journal
  | .takeJournal => .takeJournal
  | .editReceiver edit => .editReceiver edit

/-- The same command for a turnstile whose receiver is kept in a place of its
owner. -/
def Command.lend (place : Place W K) : Command K → Command W
  | .coin time => .coin time
  | .pass time => .pass time
  | .reset time => .reset time
  | .step arrival => .step arrival
  | .journal => .journal
  | .takeJournal => .takeJournal
  | .editReceiver edit => .editReceiver fun w => place.set (edit (place.get w)) w

@[simp]
theorem Command.event?_lend (place : Place W K) (command : Command K) :
    (command.lend place).event? = command.event? := by
  cases command <;> rfl

/-- What can be seen of a turnstile after a command. -/
def Reply.view (reply : Reply K (Machine.Answer State Event)) : Machine.View State Event Action K :=
  ⟨reply.result, reply.signals, reply.turnstile.state, reply.turnstile.receiver,
    reply.turnstile.journal⟩

/-! ## Sessions -/

def replies (t : Turnstile K) : List (Command K) → List (Reply K (Machine.Answer State Event))
  | [] => []
  | command :: rest =>
      let reply := t.execute command
      reply :: reply.turnstile.replies rest

def after (t : Turnstile K) (commands : List (Command K)) : Turnstile K :=
  commands.foldl (fun t command => (t.execute command).turnstile) t

/-- All outcomes that were returned in a session. -/
def outcomes (t : Turnstile K) : List (Command K) → List (Outcome State Event)
  | [] => []
  | command :: rest =>
      let reply := t.execute command
      reply.result.elim [] Machine.Answer.reported ++ reply.turnstile.outcomes rest

@[simp]
theorem after_cons (t : Turnstile K) (command : Command K) (rest : List (Command K)) :
    t.after (command :: rest) = (t.execute command).turnstile.after rest :=
  rfl

@[simp]
theorem outcomes_cons (t : Turnstile K) (command : Command K) (rest : List (Command K)) :
    t.outcomes (command :: rest) =
      (t.execute command).result.elim [] Machine.Answer.reported ++
        (t.execute command).turnstile.outcomes rest :=
  rfl

/-! ## Watching the controls -/

/-- A receiver, and the operations that were called on it, oldest first. An
operation is written down as the action of the same name. That an event had no
rule is passed on, but not written down. -/
structure Watched (K : Type) where
  receiver : K
  calls : List Action

/-- Where the receiver is kept. -/
def Watched.place : Place (Watched K) K where
  get w := w.receiver
  set k w := { w with receiver := k }

/-- Controls that write down every operation as it is called, and then pass it
on. -/
def Controls.watched (controls : Controls K) : Controls (Watched K) where
  unlock w := ⟨controls.unlock w.receiver, w.calls ++ [.unlock]⟩
  lock w := ⟨controls.lock w.receiver, w.calls ++ [.lock]⟩
  alarmOn w := ⟨controls.alarmOn w.receiver, w.calls ++ [.alarmOn]⟩
  alarmOff w := ⟨controls.alarmOff w.receiver, w.calls ++ [.alarmOff]⟩
  thankYou w := ⟨controls.thankYou w.receiver, w.calls ++ [.thankYou]⟩
  unhandled state event w := ⟨controls.unhandled state event w.receiver, w.calls⟩

end Transducer.Turnstile
