import Transducer.Document.Codec
import Transducer.Rule

/-!
# Rules as documents

A rule is written as an object with the fields `from`, `event`, `to` and
`actions`. It is read from such an object, or from the list of these four in
that order.

The fields of an object are decoded in the order of their keys, and only then is
a missing field reported. Fields with other keys are ignored.
-/

namespace Transducer.Rule

variable {S E A : Type} [Codec S] [Codec E] [Codec A]

def encode (r : Rule S E A) : Document :=
  .object [
    ("from", Codec.encode r.source),
    ("event", Codec.encode r.event),
    ("to", Codec.encode r.target),
    ("actions", Codec.encode r.actions)]

def decodeFields (fields : List (String × Document)) : Except DecodeError (Rule S E A) := do
  let actions? ← Codec.field? fields "actions"
  let event? ← Codec.field? fields "event"
  let source? ← Codec.field? fields "from"
  let target? ← Codec.field? fields "to"
  let source ← Codec.require "from" source?
  let event ← Codec.require "event" event?
  let target ← Codec.require "to" target?
  let actions ← Codec.require "actions" actions?
  return ⟨source, event, target, actions⟩

def decodeItems (expected : Expectation) (items : List Document) :
    Except DecodeError (Rule S E A) := do
  let (source, rest) ← Codec.item items.length expected items
  let (event, rest) ← Codec.item items.length expected rest
  let (target, rest) ← Codec.item items.length expected rest
  let (actions, rest) ← Codec.item items.length expected rest
  Codec.noMore items.length rest
  return ⟨source, event, target, actions⟩

def decode : Document → Except DecodeError (Rule S E A)
  | .object fields => decodeFields fields
  | .list items => decodeItems (.recordItems "TransitionEntry" 4) items
  | d => .error (.invalidType d (.record "TransitionEntry"))

/-- The bare form of a rule: only the list. -/
def decodeTuple : Document → Except DecodeError (Rule S E A)
  | .list items => decodeItems (.tuple 4) items
  | d => .error (.invalidType d (.tuple 4))

instance : Codec (Rule S E A) :=
  ⟨encode, decode⟩

end Transducer.Rule
