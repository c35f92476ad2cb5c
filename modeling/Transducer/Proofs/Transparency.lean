import Transducer.Machine.Session
import Transducer.Machine
import Transducer.Proofs.Dispatch

/-!
# Recording makes no difference

A machine never looks into its journal. So a machine that records and one that
does not are the same machine to everybody who does not ask for the journal, and
it does not matter by which calls they were set up.

* `Machine.unrecorded`: a machine without its journal. Leaving out the journal
  now or later comes to the same: `Machine.step_unrecorded`,
  `Machine.feed_unrecorded`, `Machine.execute_unrecorded`,
  `Machine.session_unrecorded`.
* `Machine.Setup.initial_ofCalls`, `Machine.Setup.recording_ofCalls`: the last
  call of each kind counts.
* `Machine.Setup.setup_and_recording_transparent`: what a series of calls sets
  up, and that recording makes no difference to it.
-/

namespace Transducer

variable {S E A K : Type}

/-- The answer of a machine that does not record. -/
def Machine.Answer.unrecorded : Machine.Answer S E → Machine.Answer S E
  | .outcome o => .outcome o
  | .outcomes os => .outcomes os
  | .journal _ => .journal none
  | .edited => .edited

variable [DecidableEq S] [Hashable S] [DecidableEq E] [Hashable E]

/-- The same machine, but it does not record. -/
def Machine.unrecorded (m : Machine S E A K) : Machine S E A K :=
  { m with journal := none }

/-- The same run of a machine that does not record. -/
def Run.unrecorded {α : Type} (run : Run S E A K α) : Run S E A K α :=
  { run with machine := run.machine.unrecorded }

/-- The same exchange with a machine that does not record. Nothing but the
journal of the machine and an answer that is a journal is another one. -/
def Machine.Exchange.unrecorded (x : Exchange S E A K) : Exchange S E A K :=
  ⟨x.command, ⟨x.run.machine.unrecorded, x.run.signals, x.run.result.map Answer.unrecorded⟩⟩

namespace Machine

/-! ## Leaving out the journal -/

section Runs

variable [Named S] [Named E]

theorem refuse_unrecorded (m : Machine S E A K) (event : E) :
    m.unrecorded.refuse event = (m.refuse event).unrecorded := by
  dsimp only [refuse, unrecorded]
  cases m.sink.unhandled m.state event m.receiver with
  | done k => rfl
  | aborted k => rfl

theorem fire_unrecorded (m : Machine S E A K) (arrival : Arrival E) (r : Rule S E A) :
    m.unrecorded.fire arrival r = (m.fire arrival r).unrecorded := by
  dsimp only [fire, unrecorded]
  rcases m.sink.performAll r.actions m.receiver with ⟨completed, k | k⟩
  · rfl
  · rfl

theorem step_unrecorded (m : Machine S E A K) (arrival : Arrival E) :
    m.unrecorded.step arrival = (m.step arrival).unrecorded := by
  have lookup : m.unrecorded.table.lookup m.unrecorded.state arrival.event =
      m.table.lookup m.state arrival.event :=
    rfl
  cases found : m.table.lookup m.state arrival.event with
  | none =>
      rw [step_of_none found, step_of_none (lookup.trans found)]
      exact refuse_unrecorded m arrival.event
  | some r =>
      rw [step_of_some found, step_of_some (lookup.trans found)]
      exact fire_unrecorded m arrival r

theorem feed_unrecorded (m : Machine S E A K) (arrivals : List (Arrival E)) :
    m.unrecorded.feed arrivals = (m.feed arrivals).unrecorded := by
  induction arrivals generalizing m with
  | nil => rfl
  | cons arrival rest ih =>
      have first := step_unrecorded m arrival
      have result : (m.unrecorded.step arrival).result = (m.step arrival).result := by
        rw [first, Run.unrecorded]
      have machine : (m.unrecorded.step arrival).machine = (m.step arrival).machine.unrecorded := by
        rw [first, Run.unrecorded]
      have signals : (m.unrecorded.step arrival).signals = (m.step arrival).signals := by
        rw [first, Run.unrecorded]
      cases completed : (m.step arrival).result with
      | none =>
          rw [feed_of_none rest completed, feed_of_none rest (result.trans completed), machine,
            signals]
          rfl
      | some outcome =>
          rw [feed_of_some rest completed, feed_of_some rest (result.trans completed), machine,
            signals, ih]
          rfl

theorem execute_unrecorded (m : Machine S E A K) (command : Command E K) :
    Exchange.mk command (m.unrecorded.execute command) =
      (Exchange.mk command (m.execute command)).unrecorded := by
  cases command with
  | step arrival =>
      dsimp only [execute, Exchange.unrecorded]
      rw [step_unrecorded, Option.map_map]
      rfl
  | feed arrivals =>
      dsimp only [execute, Exchange.unrecorded]
      rw [feed_unrecorded, Option.map_map]
      rfl
  | journal => rfl
  | takeJournal => rfl
  | editReceiver edit => rfl

/-- A machine that does not record has the same exchanges, without the
journals. -/
theorem session_unrecorded (m : Machine S E A K) (commands : List (Command E K)) :
    m.unrecorded.session commands = (m.session commands).map Exchange.unrecorded := by
  induction commands generalizing m with
  | nil => rfl
  | cons command rest ih =>
      have first := execute_unrecorded m command
      have machine : (m.unrecorded.execute command).machine =
          (m.execute command).machine.unrecorded :=
        congrArg (fun x => x.run.machine) first
      rw [session, session, List.map_cons, machine, ih]
      exact congrArg (· :: _) first

end Runs

/-! ## Setting up -/

namespace Setup

/-- The start state that a call gives, if it gives one. -/
def Call.initial? : Call S → Option S
  | .initial state => some state
  | .recording _ => none

/-- The choice that a call makes, if it makes one. -/
def Call.recording? : Call S → Option Bool
  | .initial _ => none
  | .recording enabled => some enabled

omit [DecidableEq S] [Hashable S] in
/-- What every call leaves alone or overwrites is in the end what the last call
wrote that wrote anything. -/
theorem last_write {β : Type} (read : Setup S → Option β) (write : Call S → Option β)
    (overwrites : ∀ setup call, read (apply setup call) = (write call).or (read setup))
    (setup : Setup S) (calls : List (Call S)) :
    read (calls.foldl apply setup) = (calls.filterMap write).getLast?.or (read setup) := by
  induction calls generalizing setup with
  | nil => rfl
  | cons call rest ih =>
      rw [List.foldl_cons, ih, overwrites]
      cases written : write call with
      | none =>
          rw [List.filterMap_cons_none written]
          rfl
      | some value =>
          rw [List.filterMap_cons_some written, List.getLast?_cons]
          cases (rest.filterMap write).getLast? with
          | none => rfl
          | some last => rfl

omit [DecidableEq S] [Hashable S] in
theorem initial_ofCalls (calls : List (Call S)) :
    (ofCalls calls).initial = (calls.filterMap Call.initial?).getLast? := by
  have overwrites (setup : Setup S) (call : Call S) :
      (apply setup call).initial = call.initial?.or setup.initial := by
    cases call <;> rfl
  rw [ofCalls, last_write Setup.initial Call.initial? overwrites]
  exact Option.or_none

omit [DecidableEq S] [Hashable S] in
theorem recording_ofCalls (calls : List (Call S)) :
    (ofCalls calls).recording = true ↔
      (calls.filterMap Call.recording?).getLast? = some true := by
  have overwrites (setup : Setup S) (call : Call S) :
      some (apply setup call).recording = call.recording?.or (some setup.recording) := by
    cases call <;> rfl
  have last : some (ofCalls calls).recording =
      (calls.filterMap Call.recording?).getLast?.or (some false) :=
    last_write (fun setup => some setup.recording) Call.recording? overwrites {} calls
  rw [← Option.some.injEq, last]
  cases (calls.filterMap Call.recording?).getLast? with
  | none => decide
  | some enabled => rfl

omit [DecidableEq S] [Hashable S] in
theorem getLast?_initial_eq_none_iff (calls : List (Call S)) :
    (calls.filterMap Call.initial?).getLast? = none ↔ ∀ state, .initial state ∉ calls := by
  rw [List.getLast?_eq_none_iff, List.filterMap_eq_nil_iff]
  constructor
  · intro silent state member
    exact nomatch silent _ member
  · intro absent call member
    cases call with
    | initial state => exact absurd member (absent state)
    | recording enabled => rfl

variable [Named S] [Named E]

/-- Without a call that gives a start state there is no machine. With one there
is, whatever the table: it starts in the state given last, and it records
exactly if that was the last choice made. And from then on, whatever the sink
does and whatever is asked of the machine, every exchange with a machine that
does not record is the one with a machine that does, except for the journals. -/
theorem setup_and_recording_transparent (t : Table S E A) (sink : Sink S E A K) (receiver : K) :
    (∀ calls : List (Call S),
      ((ofCalls calls).build t sink receiver = .error .noInitialState ↔
        ∀ state, .initial state ∉ calls) ∧
      (ofCalls calls).build t sink receiver =
        match (calls.filterMap Call.initial?).getLast? with
        | none => .error .noInitialState
        | some state =>
            .ok (if (calls.filterMap Call.recording?).getLast? = some true
              then startRecording t sink receiver state
              else start t sink receiver state)) ∧
    ∀ (state : S) (commands : List (Command E K)),
      (start t sink receiver state).session commands =
        ((startRecording t sink receiver state).session commands).map Exchange.unrecorded := by
  refine ⟨?_, ?_⟩
  · intro calls
    have built : (ofCalls calls).build t sink receiver =
        match (calls.filterMap Call.initial?).getLast? with
        | none => .error .noInitialState
        | some state =>
            .ok (if (calls.filterMap Call.recording?).getLast? = some true
              then startRecording t sink receiver state
              else start t sink receiver state) := by
      rw [build, initial_ofCalls]
      cases (calls.filterMap Call.initial?).getLast? with
      | none => rfl
      | some state => simp only [recording_ofCalls, ← apply_ite]
    refine ⟨?_, built⟩
    rw [built, ← getLast?_initial_eq_none_iff]
    cases (calls.filterMap Call.initial?).getLast? with
    | none => simp
    | some state => simp
  · intro state commands
    exact session_unrecorded (startRecording t sink receiver state) commands

end Setup

end Machine

end Transducer
