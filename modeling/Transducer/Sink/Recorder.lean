import Transducer.Machine

/-!
# Recorders

A recorder is a sink that remembers how it was called. What its receiver is made
of does not matter, as long as the calls can be read from it.
-/

namespace Transducer

variable {S E A K : Type}

def Signal.isPerform : Signal S E A → Bool
  | .perform _ => true
  | .log _ | .unhandled _ _ => false

/-- A sink that never aborts, with a receiver that keeps the calls. -/
structure Recorder (S E A K : Type) where
  sink : Sink S E A K
  /-- A receiver that was not called yet. -/
  blank : K
  /-- The calls that a receiver got, oldest first. -/
  calls : K → List (Signal S E A)
  calls_blank : calls blank = []
  calls_perform : ∀ action k, ∃ next, sink.perform action k = .done next ∧
    calls next = calls k ++ [.perform action]
  calls_unhandled : ∀ state event k, ∃ next, sink.unhandled state event k = .done next ∧
    calls next = calls k ++ [.unhandled state event]

namespace Recorder

/-- The receiver is the list of calls and nothing else. -/
def list : Recorder S E A (List (Signal S E A)) where
  sink := .total (fun action calls => calls ++ [.perform action])
    (fun state event calls => calls ++ [.unhandled state event])
  blank := []
  calls := id
  calls_blank := rfl
  calls_perform _ _ := ⟨_, rfl, rfl⟩
  calls_unhandled _ _ _ := ⟨_, rfl, rfl⟩

theorem calls_performAll (recorder : Recorder S E A K) (actions : List A) (k : K) :
    ∃ next, recorder.sink.performAll actions k = (actions, .done next) ∧
      recorder.calls next = recorder.calls k ++ actions.map .perform := by
  induction actions generalizing k with
  | nil => exact ⟨k, rfl, (List.append_nil _).symm⟩
  | cons action rest ih =>
      obtain ⟨middle, performed, called⟩ := recorder.calls_perform action k
      obtain ⟨next, others, calledOthers⟩ := ih middle
      refine ⟨next, ?_, ?_⟩
      · rw [Sink.performAll, performed]
        simp only [others]
      · rw [calledOthers, called, List.append_assoc, List.map_cons, List.singleton_append]

end Recorder

end Transducer
