import Transducer.Journal
import Transducer.Log
import Transducer.Sink
import Transducer.Table.Draft

/-!
# Machines

A machine is in one state of a table, and every event that arrives takes it one
step further:

* If the table has a rule for the event in the current state, the actions of the
  rule are performed in order. Only then does the machine move to the target of
  the rule and write the move into its journal, if it keeps one.
* Otherwise the sink is told, and the machine stays where it is.

`Machine.step` takes one step and `Machine.feed` a list of them. Both return a
`Run`: the machine afterwards, the signals that went out on the way, and a
result unless the sink aborted.

* `Machine.feed_append`: how events are grouped does not matter.
* `Machine.Setup`: how a machine is set up.
-/

namespace Transducer

/-- An event and the time it arrives. -/
structure Arrival (E : Type) where
  event : E
  time : Instant

inductive Outcome (S E : Type) where
  | moved (source target : S) (event : E)
  | unhandled (state : S) (event : E)
deriving DecidableEq, Repr

namespace Outcome

variable {S E : Type}

/-- The state that the machine was left in. -/
def state : Outcome S E → S
  | .moved _ target _ => target
  | .unhandled state _ => state

/-- The event that was handled or was not. -/
def event : Outcome S E → E
  | .moved _ _ event | .unhandled _ event => event

def didMove : Outcome S E → Bool
  | .moved .. => true
  | .unhandled .. => false

def wasUnhandled (o : Outcome S E) : Bool :=
  !o.didMove

end Outcome

/-- What goes out of a machine: log lines, and calls that the sink completed. -/
inductive Signal (S E A : Type) where
  | log (line : LogLine)
  | perform (action : A)
  | unhandled (state : S) (event : E)
deriving DecidableEq, Repr

namespace Signal

variable {S E A : Type}

/-- Whether the sink was called, which it is not for a log line. -/
def isCall : Signal S E A → Bool
  | .log _ => false
  | .perform _ | .unhandled _ _ => true

/-- A test that all performed actions pass removes none of them. -/
@[simp]
theorem filter_map_perform {test : Signal S E A → Bool} (passes : ∀ action, test (.perform action))
    (actions : List A) : (actions.map perform).filter test = actions.map perform := by
  rw [List.filter_eq_self]
  intro signal member
  obtain ⟨action, _, rfl⟩ := List.mem_map.mp member
  exact passes action

end Signal

structure Machine (S E A K : Type) [DecidableEq S] [Hashable S] [DecidableEq E] [Hashable E] where
  table : Table S E A
  sink : Sink S E A K
  state : S
  receiver : K
  /-- The moves since the journal was last taken, or nothing if moves are not
  recorded. -/
  journal : Option (Journal S E)

structure Run (S E A K α : Type) [DecidableEq S] [Hashable S] [DecidableEq E] [Hashable E] where
  machine : Machine S E A K
  signals : List (Signal S E A)
  /-- Nothing if a call on the sink aborted. -/
  result : Option α

namespace Machine

variable {S E A K : Type} [DecidableEq S] [Hashable S] [DecidableEq E] [Hashable E]

def start (table : Table S E A) (sink : Sink S E A K) (receiver : K) (state : S) :
    Machine S E A K :=
  ⟨table, sink, state, receiver, none⟩

def startRecording (table : Table S E A) (sink : Sink S E A K) (receiver : K) (state : S) :
    Machine S E A K :=
  ⟨table, sink, state, receiver, some .empty⟩

def editReceiver (m : Machine S E A K) (edit : K → K) : Machine S E A K :=
  { m with receiver := edit m.receiver }

/-- The journal, and the machine with an empty one in its place. -/
def takeJournal (m : Machine S E A K) : Machine S E A K × Option (Journal S E) :=
  ({ m with journal := m.journal.map fun _ => .empty }, m.journal)

variable [Named S] [Named E]

/-- What an event does that has no rule in the current state. -/
def refuse (m : Machine S E A K) (event : E) : Run S E A K (Outcome S E) :=
  let line := .log (.eventUnhandled (Named.name m.state) (Named.name event))
  match m.sink.unhandled m.state event m.receiver with
  | .done k =>
      ⟨{ m with receiver := k }, [line, .unhandled m.state event],
        some (.unhandled m.state event)⟩
  | .aborted k => ⟨{ m with receiver := k }, [line], none⟩

/-- What an event does that has the given rule. -/
def fire (m : Machine S E A K) (arrival : Arrival E) (rule : Rule S E A) :
    Run S E A K (Outcome S E) :=
  let event := arrival.event
  let opening := .log (.ruleMatched (Named.name m.state) (Named.name event)
    rule.actions.length rule.isSelfLoop)
  match m.sink.performAll rule.actions m.receiver with
  | (completed, .done k) =>
      let move := ⟨m.state, rule.target, event, arrival.time⟩
      let closing := .log (.moveCompleted (Named.name m.state) (Named.name rule.target)
        (Named.name event))
      ⟨{ m with state := rule.target, receiver := k, journal := m.journal.map (·.push move) },
        opening :: completed.map .perform ++ [closing],
        some (.moved m.state rule.target event)⟩
  | (completed, .aborted k) =>
      ⟨{ m with receiver := k }, opening :: completed.map .perform, none⟩

def step (m : Machine S E A K) (arrival : Arrival E) : Run S E A K (Outcome S E) :=
  match m.table.lookup m.state arrival.event with
  | some rule => m.fire arrival rule
  | none => m.refuse arrival.event

/-- Steps through events in order. After a step that aborted, the events behind
it are left. -/
def feed (m : Machine S E A K) : List (Arrival E) → Run S E A K (List (Outcome S E))
  | [] => ⟨m, [], some []⟩
  | arrival :: rest =>
      let first := m.step arrival
      match first.result with
      | none => ⟨first.machine, first.signals, none⟩
      | some outcome =>
          let others := first.machine.feed rest
          ⟨others.machine, first.signals ++ others.signals, others.result.map (outcome :: ·)⟩

/-- Events may be fed in one go or in two, unless the sink aborts on the way. -/
theorem feed_append (m : Machine S E A K) (first rest : List (Arrival E))
    (outcomes : List (Outcome S E)) (completed : (m.feed first).result = some outcomes) :
    m.feed (first ++ rest) =
      let run := m.feed first
      let others := run.machine.feed rest
      ⟨others.machine, run.signals ++ others.signals, others.result.map (outcomes ++ ·)⟩ := by
  induction first generalizing m outcomes with
  | nil =>
      simp only [feed, Option.some.injEq] at completed
      subst completed
      simp [feed]
  | cons arrival first ih =>
      cases head : (m.step arrival).result with
      | none => simp [feed, head] at completed
      | some outcome =>
          simp only [feed, head, Option.map_eq_some_iff] at completed
          obtain ⟨others, completed, rfl⟩ := completed
          have tail := ih (m.step arrival).machine others completed
          simp [feed, head, tail, Function.comp_def]

end Machine

/-! ## Setting up a machine -/

namespace Machine

/-- The start state and the choice to record are given one by one, in any order
and any number of times. The last of each counts. Without a start state there is
no machine. -/
structure Setup (S : Type) where
  initial : Option S := none
  recording : Bool := false
deriving DecidableEq, Repr

namespace Setup

variable {S E A K : Type}

inductive Call (S : Type) where
  | initial (state : S)
  | recording (enabled : Bool)
deriving DecidableEq, Repr

def apply (setup : Setup S) : Call S → Setup S
  | .initial state => { setup with initial := some state }
  | .recording enabled => { setup with recording := enabled }

def ofCalls (calls : List (Call S)) : Setup S :=
  calls.foldl apply {}

variable [DecidableEq S] [Hashable S] [DecidableEq E] [Hashable E]

def build (setup : Setup S) (table : Table S E A) (sink : Sink S E A K) (receiver : K) :
    Except BuildError (Machine S E A K) :=
  match setup.initial with
  | none => .error .noInitialState
  | some state =>
      if setup.recording then .ok (startRecording table sink receiver state)
      else .ok (start table sink receiver state)

end Setup

end Machine

end Transducer
