import Transducer.Machine

/-!
# Sessions

Everything that can be asked of a running machine is a command. A command is
answered, and it may change the machine. A session is a list of commands that
are executed on one machine, each on what the one before it left. A command that
aborts does not end the session.

* `Machine.execute`: what a command does.
* `Machine.session`: every command of a session with its run.
* `Machine.after`: the machine at the end.
* `Machine.View`: what can be seen of a machine after a command.
* `Delivery`: the two ways to hand over events.
-/

namespace Transducer

/-! ## Commands -/

namespace Machine

inductive Command (E K : Type) where
  | step (arrival : Arrival E)
  | feed (arrivals : List (Arrival E))
  | journal
  | takeJournal
  /-- Changes the receiver behind the machine's back. -/
  | editReceiver (edit : K → K)

inductive Answer (S E : Type) where
  | outcome (outcome : Outcome S E)
  | outcomes (outcomes : List (Outcome S E))
  | journal (journal : Option (Journal S E))
  | edited

variable {S E A K : Type} [DecidableEq S] [Hashable S] [DecidableEq E] [Hashable E]
variable [Named S] [Named E]

def execute (m : Machine S E A K) : Command E K → Run S E A K (Answer S E)
  | .step arrival =>
      let run := m.step arrival
      ⟨run.machine, run.signals, run.result.map .outcome⟩
  | .feed arrivals =>
      let run := m.feed arrivals
      ⟨run.machine, run.signals, run.result.map .outcomes⟩
  | .journal => ⟨m, [], some (.journal m.journal)⟩
  | .takeJournal =>
      let (rest, taken) := m.takeJournal
      ⟨rest, [], some (.journal taken)⟩
  | .editReceiver edit => ⟨m.editReceiver edit, [], some .edited⟩

end Machine

/-! ## Sessions -/

/-- A way to hand over events: one of them, or several in one go. -/
inductive Delivery (E : Type) where
  | one (arrival : Arrival E)
  | batch (arrivals : List (Arrival E))

namespace Delivery

variable {E K : Type}

def arrivals : Delivery E → List (Arrival E)
  | .one arrival => [arrival]
  | .batch arrivals => arrivals

def command : Delivery E → Machine.Command E K
  | .one arrival => .step arrival
  | .batch arrivals => .feed arrivals

end Delivery

namespace Machine

variable {S E A K : Type}

/-- The outcomes that an answer reports. -/
def Answer.reported : Answer S E → List (Outcome S E)
  | .outcome o => [o]
  | .outcomes os => os
  | .journal _ | .edited => []

variable [DecidableEq S] [Hashable S] [DecidableEq E] [Hashable E]

variable (S E A K) in
/-- A command and the run that it led to. -/
structure Exchange where
  command : Command E K
  run : Run S E A K (Answer S E)

variable (S E A K) in
omit [DecidableEq S] [Hashable S] [DecidableEq E] [Hashable E] in
/-- What can be seen of a machine after a command. -/
structure View where
  answer : Option (Answer S E)
  signals : List (Signal S E A)
  state : S
  receiver : K
  journal : Option (Journal S E)

namespace Exchange

def view (x : Exchange S E A K) : View S E A K :=
  ⟨x.run.result, x.run.signals, x.run.machine.state, x.run.machine.receiver, x.run.machine.journal⟩

/-- The outcomes that were returned. There are none if the command aborted. -/
def reported (x : Exchange S E A K) : List (Outcome S E) :=
  x.run.result.elim [] Answer.reported

/-- The moves that were handed over with a journal. -/
def taken (x : Exchange S E A K) : List (Move S E) :=
  match x.command, x.run.result with
  | .takeJournal, some (.journal (some journal)) => journal.toList
  | _, _ => []

/-- The state from which the journal goes on: the one after the exchange if it
took the journal, and otherwise the given one. -/
def origin (state : S) (x : Exchange S E A K) : S :=
  match x.command with
  | .takeJournal => x.run.machine.state
  | _ => state

/-- The state in which the journal was last taken, or the given one if it never
was. -/
def lastTaken (state : S) (exchanges : List (Exchange S E A K)) : S :=
  exchanges.foldl origin state

theorem taken_of_ne {x : Exchange S E A K} (other : x.command ≠ .takeJournal) : x.taken = [] := by
  unfold taken
  split
  · contradiction
  · rfl

theorem origin_of_ne {x : Exchange S E A K} (other : x.command ≠ .takeJournal) (state : S) :
    origin state x = state := by
  unfold origin
  split
  · contradiction
  · rfl

end Exchange

variable [Named S] [Named E]

def session (m : Machine S E A K) : List (Command E K) → List (Exchange S E A K)
  | [] => []
  | command :: rest =>
      let run := m.execute command
      ⟨command, run⟩ :: run.machine.session rest

def after (m : Machine S E A K) (commands : List (Command E K)) : Machine S E A K :=
  commands.foldl (fun m command => (m.execute command).machine) m

/-- All outcomes that were returned in a session. -/
def outcomes (m : Machine S E A K) (commands : List (Command E K)) : List (Outcome S E) :=
  (m.session commands).flatMap Exchange.reported

@[simp]
theorem after_nil (m : Machine S E A K) : m.after [] = m :=
  rfl

@[simp]
theorem after_cons (m : Machine S E A K) (command : Command E K) (rest : List (Command E K)) :
    m.after (command :: rest) = (m.execute command).machine.after rest :=
  rfl

@[simp]
theorem outcomes_nil (m : Machine S E A K) : m.outcomes [] = [] :=
  rfl

@[simp]
theorem outcomes_cons (m : Machine S E A K) (command : Command E K) (rest : List (Command E K)) :
    m.outcomes (command :: rest) =
      (m.execute command).result.elim [] Answer.reported ++
        (m.execute command).machine.outcomes rest :=
  rfl

end Machine

end Transducer
