import Transducer.Document

/-!
# Log lines

What the library reports while it works. Symbols appear in log lines by their
names.
-/

namespace Transducer

inductive LogLevel where
  | trace
  | debug
deriving DecidableEq, Repr

inductive LogLine where
  | tableBuilt (rules : Nat)
  /-- A rule was found for the event, and its actions are about to be
  performed. -/
  | ruleMatched (state event : String) (actions : Nat) (selfLoop : Bool)
  /-- The actions of a rule were performed, and the machine has moved. -/
  | moveCompleted (source target event : String)
  | eventUnhandled (state event : String)
deriving DecidableEq, Repr

namespace LogLine

def level : LogLine → LogLevel
  | .ruleMatched .. => .trace
  | .tableBuilt .. | .moveCompleted .. | .eventUnhandled .. => .debug

def message : LogLine → String
  | .tableBuilt .. => "transition table built"
  | .ruleMatched .. => "transition matched"
  | .moveCompleted .. => "transition complete"
  | .eventUnhandled .. => "unhandled transition"

def fields : LogLine → List (String × Document)
  | .tableBuilt rules => [("transitions", .int rules)]
  | .ruleMatched state event actions selfLoop =>
      [("state", .text state), ("event", .text event), ("actions", .int actions),
        ("self_loop", .bool selfLoop)]
  | .moveCompleted source target event =>
      [("from", .text source), ("to", .text target), ("event", .text event)]
  | .eventUnhandled state event => [("state", .text state), ("event", .text event)]

end LogLine

def LogLevel.name : LogLevel → String
  | .trace => "TRACE"
  | .debug => "DEBUG"

end Transducer
