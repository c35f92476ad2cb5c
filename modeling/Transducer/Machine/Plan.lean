import Transducer.Machine

/-!
# Plans

What a machine does when an event arrives, as a list of single tasks in their
order. Carrying out the plan for an event comes to the same as `Machine.step`.
But a plan can be cut at every place between two tasks, and then one can see
what the machine is like there.

* `Machine.plan`: the tasks for an event.
* `Machine.carryOut`: the tasks one after the other, up to the first that
  aborts.
-/

namespace Transducer

inductive Task (S E A : Type) where
  | report (line : LogLine)
  | perform (action : A)
  /-- Tells the sink about an event that has no rule. -/
  | refuse (state : S) (event : E)
  | enter (state : S)
  | write (move : Move S E)
deriving DecidableEq

namespace Task

variable {S E A : Type}

/-- Whether the state or the journal is another one after the task. -/
def changes : Task S E A → Bool
  | .enter _ | .write _ => true
  | .report _ | .perform _ | .refuse _ _ => false

/-- Whether the sink is called, which may abort. -/
def calls : Task S E A → Bool
  | .perform _ | .refuse _ _ => true
  | .report _ | .enter _ | .write _ => false

end Task

namespace Machine

variable {S E A K : Type} [DecidableEq S] [Hashable S] [DecidableEq E] [Hashable E]

/-- What a call on the sink does to the machine. The signal goes out if the call
is completed. -/
def finishCall (m : Machine S E A K) (signal : Signal S E A) : Call K → Run S E A K Unit
  | .done k => ⟨{ m with receiver := k }, [signal], some ()⟩
  | .aborted k => ⟨{ m with receiver := k }, [], none⟩

def undertake (m : Machine S E A K) : Task S E A → Run S E A K Unit
  | .report line => ⟨m, [.log line], some ()⟩
  | .perform action => m.finishCall (.perform action) (m.sink.perform action m.receiver)
  | .refuse state event =>
      m.finishCall (.unhandled state event) (m.sink.unhandled state event m.receiver)
  | .enter state => ⟨{ m with state := state }, [], some ()⟩
  | .write move => ⟨{ m with journal := m.journal.map (·.push move) }, [], some ()⟩

/-- Undertakes tasks in order. After one that aborted, the tasks behind it are
left. -/
def carryOut (m : Machine S E A K) : List (Task S E A) → Run S E A K Unit
  | [] => ⟨m, [], some ()⟩
  | task :: rest =>
      let first := m.undertake task
      match first.result with
      | none => first
      | some () =>
          let others := first.machine.carryOut rest
          ⟨others.machine, first.signals ++ others.signals, others.result⟩

variable [Named S] [Named E]

/-- The actions of the rule come first. Only then does the machine enter the
target and write down the move. -/
def plan (m : Machine S E A K) (arrival : Arrival E) : List (Task S E A) :=
  let event := arrival.event
  match m.table.lookup m.state event with
  | some rule =>
      .report (.ruleMatched (Named.name m.state) (Named.name event) rule.actions.length
        rule.isSelfLoop) ::
      rule.actions.map .perform ++
      [.enter rule.target, .write ⟨m.state, rule.target, event, arrival.time⟩,
        .report (.moveCompleted (Named.name m.state) (Named.name rule.target) (Named.name event))]
  | none =>
      [.report (.eventUnhandled (Named.name m.state) (Named.name event)), .refuse m.state event]

end Machine

end Transducer
