/-!
# Sinks

A machine does not act on the world itself. It calls a sink, which passes what
is to be done to a receiver. The receiver is any value, and a call replaces it
by another one.

A call may abort. The receiver is then left as the call left it, and nothing
after the call happens.

* `Sink.performAll`: the actions of a rule, one after the other, up to the first
  that aborts.
* `Sink.total`: a sink from two functions that never abort.
* `Sink.lend`: the same sink for a receiver that stays in its owner's hands.
-/

namespace Transducer

/-- How a call on a sink ended, with the receiver after it. -/
inductive Call (K : Type) where
  | done (receiver : K)
  | aborted (receiver : K)
deriving DecidableEq, Repr

namespace Call

variable {K L : Type}

def receiver : Call K → K
  | .done k | .aborted k => k

def map (f : K → L) : Call K → Call L
  | .done k => .done (f k)
  | .aborted k => .aborted (f k)

end Call

structure Sink (S E A K : Type) where
  perform : A → K → Call K
  /-- What happens to an event that no rule handles in the current state. -/
  unhandled : S → E → K → Call K

/-- Where in a larger value `W` a receiver is kept. -/
structure Place (W K : Type) where
  get : W → K
  set : K → W → W

namespace Sink

variable {S E A K W : Type}

def total (perform : A → K → K) (unhandled : S → E → K → K) : Sink S E A K where
  perform a k := .done (perform a k)
  unhandled s e k := .done (unhandled s e k)

/-- A sink whose receiver is kept in a place of its owner. Every call reads the
receiver there and puts it back. -/
def lend (sink : Sink S E A K) (place : Place W K) : Sink S E A W where
  perform a w := (sink.perform a (place.get w)).map (place.set · w)
  unhandled s e w := (sink.unhandled s e (place.get w)).map (place.set · w)

/-- Performs actions in order. The result holds the actions that were completed,
which are all of them unless one aborted. -/
def performAll (sink : Sink S E A K) : List A → K → List A × Call K
  | [], k => ([], .done k)
  | a :: rest, k =>
      match sink.perform a k with
      | .aborted k => ([], .aborted k)
      | .done k =>
          let (completed, last) := performAll sink rest k
          (a :: completed, last)

theorem performAll_total (perform : A → K → K) (unhandled : S → E → K → K) (actions : List A)
    (k : K) :
    (total perform unhandled).performAll actions k =
      (actions, .done (actions.foldl (fun k a => perform a k) k)) := by
  induction actions generalizing k with
  | nil => rfl
  | cons a rest ih =>
      have := ih (perform a k)
      simp_all [performAll, total]

/-- Actions that came to their end were all performed. -/
theorem completed_of_done {sink : Sink S E A K} {actions completed : List A} {k next : K}
    (done : sink.performAll actions k = (completed, .done next)) : completed = actions := by
  induction actions generalizing k completed with
  | nil =>
      cases done
      rfl
  | cons action rest ih =>
      rw [performAll] at done
      cases performed : sink.perform action k with
      | aborted middle =>
          rw [performed] at done
          cases done
      | done middle =>
          rcases others : sink.performAll rest middle with ⟨completedRest, last⟩
          simp only [performed, others] at done
          cases done
          rw [ih others]

end Sink

end Transducer
