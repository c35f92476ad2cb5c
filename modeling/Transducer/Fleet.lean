import Transducer.Machine.Session

/-!
# Fleets

Several machines over one table, addressed by number. Some of the places may be
empty, because no machine could be set up there.

A fleet is launched by ordering its machines, each with a sink and a receiver of
its own. Messages are commands that are addressed to one of the machines, and a
session is a list of messages, in whatever order they come.

* `Fleet.launch`: the machines of a list of orders, over one table. An order
  that cannot be met leaves its place empty.
* `Fleet.session`, `Fleet.after`: what became of every message, and the fleet at
  the end.
* `Fleet.commandsTo`, `Fleet.exchangesWith`: the part of a session that concerns
  one machine.
-/

namespace Transducer

structure Fleet (S E A K : Type) [DecidableEq S] [Hashable S] [DecidableEq E] [Hashable E] where
  table : Table S E A
  members : Array (Option (Machine S E A K))

namespace Fleet

variable {S E A K : Type} [DecidableEq S] [Hashable S] [DecidableEq E] [Hashable E]

def member? (fleet : Fleet S E A K) (i : Nat) : Option (Machine S E A K) :=
  fleet.members[i]?.join

/-- Puts a machine in the place of another. A place that is not there stays
so. -/
def replace (fleet : Fleet S E A K) (i : Nat) (m : Machine S E A K) : Fleet S E A K :=
  { fleet with members := fleet.members.setIfInBounds i (some m) }

variable [Named S] [Named E]

/-- Passes a command to one machine. There is no run if there is no such
machine. -/
def execute (fleet : Fleet S E A K) (i : Nat) (command : Machine.Command E K) :
    Fleet S E A K × Option (Run S E A K (Machine.Answer S E)) :=
  match fleet.member? i with
  | none => (fleet, none)
  | some m =>
      let run := m.execute command
      (fleet.replace i run.machine, some run)

end Fleet

/-! ## Sessions -/

namespace Fleet

/-- The ways to come by a machine. -/
inductive Origin (S : Type) where
  | start (state : S)
  | startRecording (state : S)
  | setup (calls : List (Machine.Setup.Call S))

structure Order (S E A K : Type) where
  origin : Origin S
  sink : Sink S E A K
  receiver : K

structure Message (E K : Type) where
  address : Nat
  command : Machine.Command E K

/-- The commands for one machine, without those for the others. -/
def commandsTo {E K : Type} (i : Nat) (messages : List (Message E K)) :
    List (Machine.Command E K) :=
  (messages.filter (·.address = i)).map Message.command

variable {S E A K : Type} [DecidableEq S] [Hashable S] [DecidableEq E] [Hashable E]

def Order.machine? (order : Order S E A K) (table : Table S E A) : Option (Machine S E A K) :=
  match order.origin with
  | .start state => some (.start table order.sink order.receiver state)
  | .startRecording state => some (.startRecording table order.sink order.receiver state)
  | .setup calls => ((Machine.Setup.ofCalls calls).build table order.sink order.receiver).toOption

def launch (table : Table S E A) (orders : List (Order S E A K)) : Fleet S E A K :=
  ⟨table, (orders.map (·.machine? table)).toArray⟩

variable (S E A K) in
/-- A message and the run that it led to, if there was a machine to run. -/
structure Reply where
  message : Message E K
  run? : Option (Run S E A K (Machine.Answer S E))

/-- The exchange that a message led to, if it was addressed to the machine with
the given number. -/
def Reply.exchangeWith? (i : Nat) (reply : Reply S E A K) : Option (Machine.Exchange S E A K) :=
  if reply.message.address = i then reply.run?.map (⟨reply.message.command, ·⟩) else none

/-- The exchanges with one machine, without those with the others. -/
def exchangesWith (i : Nat) (replies : List (Reply S E A K)) : List (Machine.Exchange S E A K) :=
  replies.filterMap (Reply.exchangeWith? i)

variable [Named S] [Named E]

def session (fleet : Fleet S E A K) : List (Message E K) → List (Reply S E A K)
  | [] => []
  | message :: rest =>
      let (next, run?) := fleet.execute message.address message.command
      ⟨message, run?⟩ :: next.session rest

def after (fleet : Fleet S E A K) (messages : List (Message E K)) : Fleet S E A K :=
  messages.foldl (fun fleet message => (fleet.execute message.address message.command).1) fleet

@[simp]
theorem session_cons (fleet : Fleet S E A K) (message : Message E K) (rest : List (Message E K)) :
    fleet.session (message :: rest) =
      ⟨message, (fleet.execute message.address message.command).2⟩ ::
        (fleet.execute message.address message.command).1.session rest :=
  rfl

@[simp]
theorem after_cons (fleet : Fleet S E A K) (message : Message E K) (rest : List (Message E K)) :
    fleet.after (message :: rest) =
      (fleet.execute message.address message.command).1.after rest :=
  rfl

end Fleet

end Transducer
