import Transducer.Machine
import Transducer.Turnstile.Rules

/-!
# The two-coin turnstile

A turnstile is a machine over the rules of `Turnstile.rules` that starts locked,
with no coin inserted. What it does to the gate and the alarm is given by
`Turnstile.Controls`, six operations on any receiver.
-/

namespace Transducer

namespace Turnstile

/-- What a turnstile can do to its receiver. -/
structure Controls (K : Type) where
  unlock : K → K
  lock : K → K
  alarmOn : K → K
  alarmOff : K → K
  thankYou : K → K
  unhandled : State → Event → K → K

namespace Controls

variable {K W : Type}

def perform (controls : Controls K) : Action → K → K
  | .unlock => controls.unlock
  | .lock => controls.lock
  | .alarmOn => controls.alarmOn
  | .alarmOff => controls.alarmOff
  | .thankYou => controls.thankYou

def sink (controls : Controls K) : Sink State Event Action K :=
  .total controls.perform controls.unhandled

/-- The same controls for a receiver that stays in its owner's hands. -/
def lend (controls : Controls K) (place : Place W K) : Controls W where
  unlock w := place.set (controls.unlock (place.get w)) w
  lock w := place.set (controls.lock (place.get w)) w
  alarmOn w := place.set (controls.alarmOn (place.get w)) w
  alarmOff w := place.set (controls.alarmOff (place.get w)) w
  thankYou w := place.set (controls.thankYou (place.get w)) w
  unhandled s e w := place.set (controls.unhandled s e (place.get w)) w

end Controls

end Turnstile

structure Turnstile (K : Type) where
  machine : Machine Turnstile.State Turnstile.Event Turnstile.Action K

namespace Turnstile

variable {K : Type}

def start (controls : Controls K) (receiver : K) : Turnstile K :=
  ⟨.start table controls.sink receiver .locked0⟩

def startRecording (controls : Controls K) (receiver : K) : Turnstile K :=
  ⟨.startRecording table controls.sink receiver .locked0⟩

def state (t : Turnstile K) : State :=
  t.machine.state

def receiver (t : Turnstile K) : K :=
  t.machine.receiver

def editReceiver (t : Turnstile K) (edit : K → K) : Turnstile K :=
  ⟨t.machine.editReceiver edit⟩

def journal (t : Turnstile K) : Option (Journal State Event) :=
  t.machine.journal

def takeJournal (t : Turnstile K) : Turnstile K × Option (Journal State Event) :=
  let (machine, taken) := t.machine.takeJournal
  (⟨machine⟩, taken)

/-- What became of a turnstile, what went out, and the result. -/
structure Reply (K α : Type) where
  turnstile : Turnstile K
  signals : List (Signal State Event Action)
  result : Option α

def step (t : Turnstile K) (arrival : Arrival Event) : Reply K (Outcome State Event) :=
  let run := t.machine.step arrival
  ⟨⟨run.machine⟩, run.signals, run.result⟩

def coin (t : Turnstile K) (time : Instant) : Reply K (Outcome State Event) :=
  t.step ⟨.coin, time⟩

def pass (t : Turnstile K) (time : Instant) : Reply K (Outcome State Event) :=
  t.step ⟨.pass, time⟩

def reset (t : Turnstile K) (time : Instant) : Reply K (Outcome State Event) :=
  t.step ⟨.reset, time⟩

end Turnstile

end Transducer
