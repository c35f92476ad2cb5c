/-!
# Rules

A rule says what a machine does in one state on one event: which actions it
performs, in which order, and which state it goes to.
-/

namespace Transducer

structure Rule (S E A : Type) where
  source : S
  event : E
  target : S
  actions : List A
deriving DecidableEq, Repr

namespace Rule

variable {S E A : Type}

/-- What selects a rule. -/
def key (r : Rule S E A) : S × E :=
  (r.source, r.event)

def applies [DecidableEq S] [DecidableEq E] (r : Rule S E A) (state : S) (event : E) : Bool :=
  r.source = state ∧ r.event = event

@[simp]
theorem applies_iff [DecidableEq S] [DecidableEq E] (r : Rule S E A) (state : S) (event : E) :
    r.applies state event = true ↔ r.key = (state, event) := by
  simp [applies, key]

def isSelfLoop [DecidableEq S] (r : Rule S E A) : Bool :=
  r.source = r.target

/-- The same rule over other symbols. -/
def map {S' E' A' : Type} (f : S → S') (g : E → E') (h : A → A') (r : Rule S E A) :
    Rule S' E' A' :=
  ⟨f r.source, g r.event, f r.target, r.actions.map h⟩

end Rule

end Transducer
