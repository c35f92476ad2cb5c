import Transducer.Document.Codec
import Transducer.Instant.Parser
import Transducer.Instant.Printer
import Transducer.Journal

/-!
# Journals as documents

A journal is written as an object with the field `transitions`, a list of moves.
A move is an object with the fields `from`, `to`, `event` and `timestamp`. Both
are also read from the list of their fields in that order. Object fields are
decoded in the order of their keys, and only then is a missing field reported.
-/

namespace Transducer

instance : Codec Instant where
  encode t := .text t.render
  decode
    | .text s =>
        match Instant.parse? s with
        | some t => .ok t
        | none => .error .timestamp
    | d => .error (.invalidType d .instant)

variable {S E : Type} [Codec S] [Codec E]

namespace Move

def encode (m : Move S E) : Document :=
  .object [
    ("from", Codec.encode m.source),
    ("to", Codec.encode m.target),
    ("event", Codec.encode m.event),
    ("timestamp", Codec.encode m.time)]

def decode : Document → Except DecodeError (Move S E)
  | .object fields => do
      let event? ← Codec.field? fields "event"
      let source? ← Codec.field? fields "from"
      let time? ← Codec.field? fields "timestamp"
      let target? ← Codec.field? fields "to"
      let source ← Codec.require "from" source?
      let target ← Codec.require "to" target?
      let event ← Codec.require "event" event?
      let time ← Codec.require "timestamp" time?
      return ⟨source, target, event, time⟩
  | .list items => do
      let expected := Expectation.recordItems "StateTransition" 4
      let (source, rest) ← Codec.item items.length expected items
      let (target, rest) ← Codec.item items.length expected rest
      let (event, rest) ← Codec.item items.length expected rest
      let (time, rest) ← Codec.item items.length expected rest
      Codec.noMore items.length rest
      return ⟨source, target, event, time⟩
  | d => .error (.invalidType d (.record "StateTransition"))

instance : Codec (Move S E) :=
  ⟨encode, decode⟩

end Move

namespace Journal

def encode (j : Journal S E) : Document :=
  .object [("transitions", Codec.encode j.toList)]

def decode : Document → Except DecodeError (Journal S E)
  | .object fields => do
      let moves? ← Codec.field? fields "transitions"
      let moves : List (Move S E) ← Codec.require "transitions" moves?
      return ⟨moves.toArray⟩
  | .list items => do
      let (moves, rest) ← Codec.item items.length (.recordItems "StateHistory" 1) items
      Codec.noMore items.length rest
      return ⟨(moves : List (Move S E)).toArray⟩
  | d => .error (.invalidType d (.record "StateHistory"))

instance : Codec (Journal S E) :=
  ⟨encode, decode⟩

end Journal

end Transducer
