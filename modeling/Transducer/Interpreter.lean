import Transducer.Machine

/-!
# Interpreters

The plainest reading of a list of rules. For every event the list is scanned for
the rule to follow, and only the state and the receiver are kept. There is no
index, no journal and no log, and a receiver cannot abort.
-/

namespace Transducer

structure Interpreter (S E A K : Type) where
  rules : List (Rule S E A)
  perform : A → K → K
  unhandled : S → E → K → K

/-- The state and the receiver that a reading ends with, and what it
answered. -/
structure Reading (S K α : Type) where
  state : S
  receiver : K
  answer : α

namespace Interpreter

variable {S E A K : Type} [DecidableEq S] [DecidableEq E]

def step (i : Interpreter S E A K) (state : S) (receiver : K) (event : E) :
    Reading S K (Outcome S E) :=
  match i.rules.find? fun r => r.source = state ∧ r.event = event with
  | some r =>
      ⟨r.target, r.actions.foldl (fun k a => i.perform a k) receiver,
        .moved state r.target event⟩
  | none => ⟨state, i.unhandled state event receiver, .unhandled state event⟩

def run (i : Interpreter S E A K) (state : S) (receiver : K) :
    List E → Reading S K (List (Outcome S E))
  | [] => ⟨state, receiver, []⟩
  | event :: rest =>
      let first := i.step state receiver event
      let others := i.run first.state first.receiver rest
      { others with answer := first.answer :: others.answer }

/-- The calls that an event leads to: the actions of its rule, or the one that
tells that it has none. -/
def calls (i : Interpreter S E A K) (state : S) (event : E) : List (Signal S E A) :=
  match i.rules.find? fun r => r.source = state ∧ r.event = event with
  | some r => r.actions.map .perform
  | none => [.unhandled state event]

omit [DecidableEq S] [DecidableEq E] in
/-- What a signal does to the receiver. A log line does nothing. -/
def receive (i : Interpreter S E A K) (receiver : K) : Signal S E A → K
  | .log _ => receiver
  | .perform action => i.perform action receiver
  | .unhandled state event => i.unhandled state event receiver

/-- The calls are all that happens to the receiver. -/
theorem receiver_step (i : Interpreter S E A K) (state : S) (receiver : K) (event : E) :
    (i.step state receiver event).receiver = (i.calls state event).foldl i.receive receiver := by
  unfold step calls
  cases i.rules.find? fun r => r.source = state ∧ r.event = event with
  | none => rfl
  | some r =>
      rw [List.foldl_map]
      rfl

/-- The calls that events lead to, oldest first. -/
def trace (i : Interpreter S E A K) (state : S) (receiver : K) : List E → List (Signal S E A)
  | [] => []
  | event :: rest =>
      let first := i.step state receiver event
      i.calls state event ++ i.trace first.state first.receiver rest

theorem receiver_run (i : Interpreter S E A K) (state : S) (receiver : K) (events : List E) :
    (i.run state receiver events).receiver =
      (i.trace state receiver events).foldl i.receive receiver := by
  induction events generalizing state receiver with
  | nil => rfl
  | cons event rest ih =>
      rw [run, trace, List.foldl_append, ← receiver_step]
      exact ih _ _

end Interpreter

end Transducer
