import Transducer.Machine
import Transducer.Table.Draft

/-!
# Renamings

A renaming gives other symbols to the states, events and actions of a table, of
any other type. What differed before differs afterwards, except for actions,
which no part of a machine compares. Nothing is asked of the names that the new
symbols are shown under.

* `Renaming`: the three maps.
* `Renaming.draft`, `Renaming.rule`, `Renaming.outcome`, `Renaming.signal`: what
  they do to larger values.
* `Renaming.Mirrors`: one sink does to renamed calls what another one does to
  the calls themselves.
-/

namespace Transducer

structure Renaming (S E A S' E' A' : Type) where
  state : S → S'
  event : E → E'
  action : A → A'
  state_injective : Function.Injective state
  event_injective : Function.Injective event

/-- The calls ended alike, with receivers that are related. -/
inductive Call.Matches {K L : Type} (related : K → L → Prop) : Call K → Call L → Prop
  | done {k : K} {k' : L} : related k k' → Matches related (.done k) (.done k')
  | aborted {k : K} {k' : L} : related k k' → Matches related (.aborted k) (.aborted k')

namespace Renaming

variable {S E A S' E' A' K L : Type} (ρ : Renaming S E A S' E' A')

def rule : Rule S E A → Rule S' E' A' :=
  Rule.map ρ.state ρ.event ρ.action

def draft (d : Table.Draft S E A) : Table.Draft S' E' A' :=
  ⟨d.rules.map ρ.rule⟩

def outcome : Outcome S E → Outcome S' E'
  | .moved source target event => .moved (ρ.state source) (ρ.state target) (ρ.event event)
  | .unhandled state event => .unhandled (ρ.state state) (ρ.event event)

/-- A log line holds no symbols, only their names, and is left as it is. -/
def signal : Signal S E A → Signal S' E' A'
  | .log line => .log line
  | .perform action => .perform (ρ.action action)
  | .unhandled state event => .unhandled (ρ.state state) (ρ.event event)

/-- A call and the renamed call end alike on receivers that are related, and
leave them related. -/
structure Mirrors (related : K → L → Prop) (sink : Sink S E A K) (sink' : Sink S' E' A' L) :
    Prop where
  perform : ∀ action k k', related k k' →
    (sink.perform action k).Matches related (sink'.perform (ρ.action action) k')
  unhandled : ∀ state event k k', related k k' →
    (sink.unhandled state event k).Matches related
      (sink'.unhandled (ρ.state state) (ρ.event event) k')

end Renaming

end Transducer
