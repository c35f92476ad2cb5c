import Transducer.Machine

/-!
# Records

Somebody who watches the log of a machine and its sink at the same time can
write one record of both: log lines as they are shown, with their level, message
and fields, and in between the calls on the sink.

* `Record.Block`: what is written down about one event.
* `Record.cut`: divides a record into its blocks.
-/

namespace Transducer

namespace Record

inductive Entry (S E A : Type) where
  | line (level : LogLevel) (message : String) (fields : List (String × Document))
  | perform (action : A)
  | unhandled (state : S) (event : E)

/-- A rule fired, or there was no rule for an event in a state. -/
inductive Block (S E A : Type) where
  | fired (rule : Rule S E A)
  | refused (state : S) (event : E)

variable {S E A : Type}

namespace Entry

/-- Whether the sink was called, which it is not for a log line. -/
def isCall : Entry S E A → Bool
  | .line .. => false
  | .perform _ | .unhandled _ _ => true

/-- How many entries follow in the block that this entry begins. The line for a
rule that was found tells how many actions there will be, and one more line
closes the block. -/
def announced : Entry S E A → Nat
  | .line _ message fields =>
      if message = "transition matched" then
        match fields.lookup "actions" with
        | some (.int actions) => actions.toNat + 1
        | _ => 0
      else if message = "unhandled transition" then 1
      else 0
  | .perform _ | .unhandled _ _ => 0

end Entry

namespace Block

def outcome : Block S E A → Outcome S E
  | .fired r => .moved r.source r.target r.event
  | .refused state event => .unhandled state event

/-- Whether a table gives occasion for the block. -/
def Of [DecidableEq S] [Hashable S] [DecidableEq E] [Hashable E] (t : Table S E A) :
    Block S E A → Prop
  | .fired r => r ∈ t.rules.toList
  | .refused state event => ∀ r ∈ t.rules.toList, r.key ≠ (state, event)

instance [DecidableEq S] [Hashable S] [DecidableEq E] [Hashable E] [DecidableEq A] (t : Table S E A)
    (block : Block S E A) : Decidable (block.Of t) :=
  match block with
  | .fired r => inferInstanceAs (Decidable (r ∈ t.rules.toList))
  | .refused state event =>
      inferInstanceAs (Decidable (∀ r ∈ t.rules.toList, r.key ≠ (state, event)))

/-- Symbols are shown by name, but whether a rule is a loop is told by the
identity of its states. -/
def entries [DecidableEq S] [Named S] [Named E] : Block S E A → List (Entry S E A)
  | .fired r =>
      [.line .trace "transition matched"
        [("state", .text (Named.name r.source)), ("event", .text (Named.name r.event)),
          ("actions", .int r.actions.length), ("self_loop", .bool (r.source = r.target))]] ++
      r.actions.map .perform ++
      [.line .debug "transition complete"
        [("from", .text (Named.name r.source)), ("to", .text (Named.name r.target)),
          ("event", .text (Named.name r.event))]]
  | .refused state event =>
      [.line .debug "unhandled transition"
        [("state", .text (Named.name state)), ("event", .text (Named.name event))],
        .unhandled state event]

end Block

/-- Divides a record into blocks. The first entry of a block tells where the
block ends. -/
def cut : List (Entry S E A) → List (List (Entry S E A))
  | [] => []
  | entry :: rest => (entry :: rest.take entry.announced) :: cut (rest.drop entry.announced)
termination_by record => record.length
decreasing_by
  rw [List.length_drop, List.length_cons]
  omega

end Record

variable {S E A : Type}

def LogLine.entry (line : LogLine) : Record.Entry S E A :=
  .line line.level line.message line.fields

def Signal.entry : Signal S E A → Record.Entry S E A
  | .log line => line.entry
  | .perform action => .perform action
  | .unhandled state event => .unhandled state event

end Transducer
