import Transducer.Turnstile

/-!
# A turnstile at work

A fixed series of events, and the transcript of what the turnstile does about
each of them.
-/

namespace Transducer.Turnstile.Demo

/-- Writes every operation down as a line. -/
def console : Controls (List String) :=
  let say (line : String) (lines : List String) := lines ++ ["  -> " ++ line]
  { unlock := say "unlock"
    lock := say "lock"
    alarmOn := say "alarm on"
    alarmOff := say "alarm off"
    thankYou := say "thank you"
    unhandled := fun state event =>
      say s!"ignored {Named.name event} while {Named.name state}" }

def script : List Event :=
  [.coin, .coin, .coin, .pass, .pass, .coin, .reset, .reset]

/-- Announces the event and the state it arrives in, then lets the turnstile
work. -/
def play (t : Turnstile (List String)) (event : Event) : Turnstile (List String) :=
  let announced := t.editReceiver (· ++ [s!"{Named.name event} (in {Named.name t.state})"])
  (announced.step ⟨event, .epoch⟩).turnstile

def lines : List String :=
  let t := script.foldl play (startRecording console [])
  let path := (t.journal.map Journal.path).getD []
  ["=== Two-Coin Turnstile Example ===", ""] ++ t.receiver ++
    ["", s!"Final state: {Named.name t.state}",
      "Path: " ++ " -> ".intercalate (path.map Named.name), "",
      "=== Example Complete ==="]

def transcript : String :=
  String.join (lines.map (· ++ "\n"))

end Transducer.Turnstile.Demo
