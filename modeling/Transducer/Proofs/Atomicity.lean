import Transducer.Machine.Plan
import Transducer.Proofs.Dispatch

/-!
# Aborted dispatches

A sink may abort at any call. The machine has then performed some of the actions
of a rule and not the others, but it is still in the state in which the event
found it, and its journal is the same as before. There is no place in a dispatch
where a move is made and an action is still to come.

* `Sink.performAll_cases`: all actions are performed, or those before the first
  that aborts.
* `Machine.step_eq_carryOut`: a step carries out the plan for its event.
* `Machine.carryOut_take_plan`: as long as an action is to be performed, the
  state and the journal are the old ones.
* `Table.Draft.aborted_dispatch_keeps_machine`: what an aborted dispatch leaves,
  where it can abort, and what happens if it does not.
-/

namespace Transducer

variable {S E A K : Type}

namespace Sink

/-! ## Actions one by one -/

/-- Every one of the actions is completed, in order, and they take the receiver
from the first value to the second. -/
inductive Performs (sink : Sink S E A K) : List A → K → K → Prop
  | nil (k : K) : Performs sink [] k k
  | cons {action : A} {rest : List A} {k middle last : K} :
      sink.perform action k = .done middle → Performs sink rest middle last →
      Performs sink (action :: rest) k last

variable {sink : Sink S E A K}

theorem Performs.performAll {actions : List A} {k last : K}
    (performs : sink.Performs actions k last) :
    sink.performAll actions k = (actions, .done last) := by
  induction performs with
  | nil k => rfl
  | cons done _ ih => simp only [Sink.performAll, done, ih]

/-- The first action that aborts is the last that is called. -/
theorem Performs.performAll_of_aborted {completed : List A} {k middle last : K}
    (performs : sink.Performs completed k middle) {action : A}
    (aborted : sink.perform action middle = .aborted last) (rest : List A) :
    sink.performAll (completed ++ action :: rest) k = (completed, .aborted last) := by
  induction performs with
  | nil k => rw [List.nil_append, Sink.performAll, aborted]
  | cons done _ ih => simp only [List.cons_append, Sink.performAll, done, ih aborted]

theorem performAll_cases (sink : Sink S E A K) (actions : List A) (k : K) :
    (∃ last, sink.Performs actions k last) ∨
    ∃ completed action rest middle last, actions = completed ++ action :: rest ∧
      sink.Performs completed k middle ∧ sink.perform action middle = .aborted last := by
  induction actions generalizing k with
  | nil => exact .inl ⟨k, .nil k⟩
  | cons action rest ih =>
      cases performed : sink.perform action k with
      | aborted last => exact .inr ⟨[], action, rest, k, last, rfl, .nil k, performed⟩
      | done middle =>
          obtain ⟨last, performs⟩ |
              ⟨completed, later, others, next, last, rfl, performs, aborted⟩ :=
            ih middle
          · exact .inl ⟨last, .cons performed performs⟩
          · exact .inr ⟨action :: completed, later, others, next, last, rfl,
              .cons performed performs, aborted⟩

end Sink

variable [DecidableEq S] [Hashable S] [DecidableEq E] [Hashable E]

/-- What a dispatch leaves that was aborted: nothing of the machine is another
one but the receiver, the given calls were completed, and no line says that a
move was. -/
structure Run.Abandoned {α : Type} (run : Run S E A K α) (m : Machine S E A K) (receiver : K)
    (calls : List (Signal S E A)) : Prop where
  result : run.result = none
  machine : run.machine = { m with receiver := receiver }
  calls : run.signals.filter Signal.isCall = calls
  unreported : ∀ line, .log line ∈ run.signals → line.message ≠ "transition complete"

namespace Machine

/-! ## Carrying out tasks -/

variable {m : Machine S E A K}

theorem carryOut_cons_of_some {task : Task S E A} (rest : List (Task S E A))
    (completed : (m.undertake task).result = some ()) :
    m.carryOut (task :: rest) =
      ⟨((m.undertake task).machine.carryOut rest).machine,
        (m.undertake task).signals ++ ((m.undertake task).machine.carryOut rest).signals,
        ((m.undertake task).machine.carryOut rest).result⟩ := by
  rw [carryOut, completed]

theorem carryOut_cons_of_none {task : Task S E A} (rest : List (Task S E A))
    (aborted : (m.undertake task).result = none) :
    m.carryOut (task :: rest) = m.undertake task := by
  rw [carryOut, aborted]

/-- A task that does not change the state or the journal changes the receiver at
most. -/
theorem machine_undertake {task : Task S E A} (calm : task.changes = false) :
    ∃ k, (m.undertake task).machine = { m with receiver := k } := by
  cases task with
  | report line => exact ⟨m.receiver, rfl⟩
  | perform action =>
      rw [undertake]
      cases m.sink.perform action m.receiver with
      | done k => exact ⟨k, rfl⟩
      | aborted k => exact ⟨k, rfl⟩
  | refuse state event =>
      rw [undertake]
      cases m.sink.unhandled state event m.receiver with
      | done k => exact ⟨k, rfl⟩
      | aborted k => exact ⟨k, rfl⟩
  | enter state => contradiction
  | write move => contradiction

theorem machine_carryOut {tasks : List (Task S E A)} (calm : ∀ task ∈ tasks, task.changes = false) :
    ∃ k, (m.carryOut tasks).machine = { m with receiver := k } := by
  induction tasks generalizing m with
  | nil => exact ⟨m.receiver, rfl⟩
  | cons task rest ih =>
      rw [List.forall_mem_cons] at calm
      obtain ⟨k, first⟩ := machine_undertake (m := m) calm.1
      cases completed : (m.undertake task).result with
      | none => exact ⟨k, by rw [carryOut_cons_of_none rest completed, first]⟩
      | some u =>
          obtain ⟨k', others⟩ := ih (m := (m.undertake task).machine) calm.2
          exact ⟨k', by rw [carryOut_cons_of_some rest completed, others, first]⟩

/-- Actions and then other tasks. -/
theorem carryOut_map_perform (actions : List A) (rest : List (Task S E A)) :
    m.carryOut (actions.map .perform ++ rest) =
      match m.sink.performAll actions m.receiver with
      | (completed, .done k) =>
          let others := carryOut { m with receiver := k } rest
          ⟨others.machine, completed.map .perform ++ others.signals, others.result⟩
      | (completed, .aborted k) => ⟨{ m with receiver := k }, completed.map .perform, none⟩ := by
  induction actions generalizing m with
  | nil => rfl
  | cons action actions ih =>
      rw [List.map_cons, List.cons_append, carryOut, undertake, Sink.performAll]
      cases performed : m.sink.perform action m.receiver with
      | aborted k => rfl
      | done k =>
          simp only [finishCall, ih]
          rcases m.sink.performAll actions k with ⟨completed, last | last⟩
          · rfl
          · rfl

/-! ## Plans -/

variable [Named S] [Named E]

/-- A step does what carrying out the plan does. -/
theorem step_eq_carryOut (m : Machine S E A K) (arrival : Arrival E) :
    (m.step arrival).machine = (m.carryOut (m.plan arrival)).machine ∧
    (m.step arrival).signals = (m.carryOut (m.plan arrival)).signals ∧
    (m.step arrival).result.isSome = (m.carryOut (m.plan arrival)).result.isSome := by
  cases found : m.table.lookup m.state arrival.event with
  | none =>
      rw [step_of_none found, refuse, plan, found]
      simp only [carryOut, undertake]
      cases m.sink.unhandled m.state arrival.event m.receiver with
      | done k => exact ⟨rfl, rfl, rfl⟩
      | aborted k => exact ⟨rfl, rfl, rfl⟩
  | some r =>
      rw [step_of_some found, fire, plan, found]
      simp only [List.cons_append, carryOut, undertake, carryOut_map_perform]
      rcases m.sink.performAll r.actions m.receiver with ⟨completed, k | k⟩
      · exact ⟨rfl, rfl, rfl⟩
      · exact ⟨rfl, rfl, rfl⟩

/-- First come the tasks that may call the sink, then those that change the
machine. -/
theorem plan_eq_append (m : Machine S E A K) (arrival : Arrival E) :
    ∃ calm settled, m.plan arrival = calm ++ settled ∧
      (∀ task ∈ calm, task.changes = false) ∧ ∀ task ∈ settled, task.calls = false := by
  rw [plan]
  cases m.table.lookup m.state arrival.event with
  | none =>
      refine ⟨_, [], (List.append_nil _).symm, ?_, List.forall_mem_nil _⟩
      simp [Task.changes]
  | some r =>
      refine ⟨_, _, rfl, ?_, ?_⟩
      · simp [Task.changes]
      · simp [Task.calls]

/-- However much of a plan was carried out, as long as a call is to come the
machine is the old one but for its receiver. -/
theorem carryOut_take_plan (m : Machine S E A K) (arrival : Arrival E) {n : Nat} {task : Task S E A}
    (later : task ∈ (m.plan arrival).drop n) (calls : task.calls = true) :
    ∃ k, (m.carryOut ((m.plan arrival).take n)).machine = { m with receiver := k } := by
  obtain ⟨calm, settled, plan, unchanged, silent⟩ := m.plan_eq_append arrival
  rw [plan] at later ⊢
  have early : n ≤ calm.length := by
    refine Nat.le_of_not_lt fun late => ?_
    rw [List.drop_append, List.drop_of_length_le (Nat.le_of_lt late), List.nil_append] at later
    have quiet := silent task (List.mem_of_mem_drop later)
    rw [calls] at quiet
    contradiction
  rw [List.take_append_of_le_length early]
  exact machine_carryOut fun task member => unchanged task (List.mem_of_mem_take member)

/-! ## Where a dispatch aborts -/

section Abort

variable {arrival : Arrival E}

theorem abandoned_of_action {r : Rule S E A}
    (found : m.table.lookup m.state arrival.event = some r) {completed rest : List A} {action : A}
    (actions : r.actions = completed ++ action :: rest) {middle last : K}
    (performs : m.sink.Performs completed m.receiver middle)
    (aborted : m.sink.perform action middle = .aborted last) :
    (m.step arrival).Abandoned m last (completed.map .perform) := by
  rw [step_of_some found, fire, actions, performs.performAll_of_aborted aborted rest]
  refine ⟨rfl, rfl, by simp [Signal.isCall], ?_⟩
  intro line sent
  simp only [List.mem_cons, List.mem_map, reduceCtorEq, and_false, exists_false, or_false,
    Signal.log.injEq] at sent
  rw [sent, LogLine.message]
  decide

theorem abandoned_of_refusal (missing : m.table.lookup m.state arrival.event = none) {last : K}
    (aborted : m.sink.unhandled m.state arrival.event m.receiver = .aborted last) :
    (m.step arrival).Abandoned m last [] := by
  rw [step_of_none missing, refuse, aborted]
  refine ⟨rfl, rfl, rfl, ?_⟩
  intro line sent
  simp only [List.mem_singleton, Signal.log.injEq] at sent
  rw [sent, LogLine.message]
  decide

/-- If all actions are completed the machine moves, with the receiver as the
last of them left it. -/
theorem step_of_performs {r : Rule S E A}
    (found : m.table.lookup m.state arrival.event = some r) {last : K}
    (performs : m.sink.Performs r.actions m.receiver last) :
    (m.step arrival).result = some (.moved m.state r.target arrival.event) ∧
    (m.step arrival).machine =
      { m with
        state := r.target
        receiver := last
        journal := m.journal.map (·.push ⟨m.state, r.target, arrival.event, arrival.time⟩) } := by
  rw [step_of_some found, fire, performs.performAll]
  exact ⟨rfl, rfl⟩

/-- A step is aborted by an action of its rule or by the refusal of its event,
and by nothing else. -/
theorem aborted_cases (aborted : (m.step arrival).result = none) :
    (∃ r, m.table.lookup m.state arrival.event = some r ∧
      ∃ completed action rest middle last, r.actions = completed ++ action :: rest ∧
        m.sink.Performs completed m.receiver middle ∧
        m.sink.perform action middle = .aborted last) ∨
    (m.table.lookup m.state arrival.event = none ∧
      ∃ last, m.sink.unhandled m.state arrival.event m.receiver = .aborted last) := by
  cases found : m.table.lookup m.state arrival.event with
  | some r =>
      refine .inl ⟨r, rfl, ?_⟩
      obtain ⟨last, performs⟩ | abort := m.sink.performAll_cases r.actions m.receiver
      · rw [(step_of_performs found performs).1] at aborted
        contradiction
      · exact abort
  | none =>
      refine .inr ⟨rfl, ?_⟩
      rw [step_of_none found, refuse] at aborted
      cases told : m.sink.unhandled m.state arrival.event m.receiver with
      | aborted last => exact ⟨last, rfl⟩
      | done last =>
          rw [told] at aborted
          contradiction

theorem machine_of_aborted (aborted : (m.step arrival).result = none) :
    (m.step arrival).machine = { m with receiver := (m.step arrival).machine.receiver } := by
  obtain ⟨r, found, completed, action, rest, middle, last, actions, performs, aborts⟩ |
    ⟨missing, last, aborts⟩ := aborted_cases aborted
  · rw [(abandoned_of_action found actions performs aborts).machine]
  · rw [(abandoned_of_refusal missing aborts).machine]

end Abort

end Machine

namespace Table.Draft

variable [Named S] [Named E]

/-- If an action aborts, the actions before it were completed in order, and
those after it are not called. Then, and also if the refusal of an event aborts,
the machine is in the state in which the event found it, with the journal that
it had, and no line says that a move was completed. There is no other way to
abort. A later event is dispatched as if only the receiver had been changed. If
nothing aborts, the machine moves. It does so last: a step carries out a plan,
and wherever the plan is cut while an action is still to be performed, the state
and the journal are the old ones. -/
theorem aborted_dispatch_keeps_machine (draft : Draft S E A) (t : Table S E A)
    (built : draft.build = .ok t) (m : Machine S E A K) (table : m.table = t)
    (arrival : Arrival E) :
    let run := m.step arrival
    let rules := draft.rules.toList
    let key := (m.state, arrival.event)
    (∀ r ∈ rules, r.key = key →
      ∀ completed action rest middle last, r.actions = completed ++ action :: rest →
        m.sink.Performs completed m.receiver middle →
        m.sink.perform action middle = .aborted last →
        run.Abandoned m last (completed.map .perform)) ∧
    ((∀ r ∈ rules, r.key ≠ key) →
      ∀ last, m.sink.unhandled m.state arrival.event m.receiver = .aborted last →
        run.Abandoned m last []) ∧
    (run.result = none →
      ((∃ r ∈ rules, r.key = key ∧
        ∃ completed action rest middle last, r.actions = completed ++ action :: rest ∧
          m.sink.Performs completed m.receiver middle ∧
          m.sink.perform action middle = .aborted last) ∨
      ((∀ r ∈ rules, r.key ≠ key) ∧
        ∃ last, m.sink.unhandled m.state arrival.event m.receiver = .aborted last)) ∧
      ∀ later, run.machine.step later =
        Machine.step { m with receiver := run.machine.receiver } later) ∧
    (∀ r ∈ rules, r.key = key → ∀ last, m.sink.Performs r.actions m.receiver last →
      run.result = some (.moved m.state r.target arrival.event) ∧
      run.machine =
        { m with
          state := r.target
          receiver := last
          journal := m.journal.map (·.push ⟨m.state, r.target, arrival.event, arrival.time⟩) }) ∧
    let plan := m.plan arrival
    (m.carryOut plan).machine = run.machine ∧ (m.carryOut plan).signals = run.signals ∧
    ∀ n action, .perform action ∈ plan.drop n →
      (m.carryOut (plan.take n)).machine.state = m.state ∧
      (m.carryOut (plan.take n)).machine.journal = m.journal := by
  intro run rules key
  have coherent : m.table.Coherent := by
    rw [table]
    exact coherent_of_build built
  have listed : m.table.rules.toList = rules := by
    rw [table, rules_of_build built]
  have found (r : Rule S E A) :
      m.table.lookup m.state arrival.event = some r ↔ r ∈ rules ∧ r.key = key := by
    rw [coherent.lookup_eq_some_iff, listed, Rule.key, Prod.mk.injEq]
  have missing : m.table.lookup m.state arrival.event = none ↔ ∀ r ∈ rules, r.key ≠ key := by
    rw [Option.eq_none_iff_forall_ne_some]
    exact forall_congr' fun r => by rw [Ne, found, not_and]
  refine ⟨?_, ?_, ?_, ?_, ?_⟩
  · intro r member selected completed action rest middle last actions performs aborted
    exact Machine.abandoned_of_action ((found r).mpr ⟨member, selected⟩) actions performs aborted
  · intro none last aborted
    exact Machine.abandoned_of_refusal (missing.mpr none) aborted
  · intro aborted
    refine ⟨?_, fun later => congrArg (Machine.step · later) (Machine.machine_of_aborted aborted)⟩
    obtain ⟨r, lookup, abort⟩ | ⟨lookup, abort⟩ := Machine.aborted_cases aborted
    · obtain ⟨member, selected⟩ := (found r).mp lookup
      exact .inl ⟨r, member, selected, abort⟩
    · exact .inr ⟨missing.mp lookup, abort⟩
  · intro r member selected last performs
    exact Machine.step_of_performs ((found r).mpr ⟨member, selected⟩) performs
  · obtain ⟨machine, signals, _⟩ := m.step_eq_carryOut arrival
    refine ⟨machine.symm, signals.symm, ?_⟩
    intro n action later
    obtain ⟨k, cut⟩ := m.carryOut_take_plan arrival later rfl
    rw [cut]
    exact ⟨rfl, rfl⟩

/-- A turnstile whose lock jams. A reset ends the alarm, but the turnstile stays
in the alarming state, and it does so as well if a coin is not taken. -/
theorem jammed_lock_keeps_alarming :
    let jammed : Sink Turnstile.State Turnstile.Event Turnstile.Action (List Turnstile.Action) :=
      ⟨fun action done => if action = .lock then .aborted done else .done (done ++ [action]),
        fun _ _ done => .aborted done⟩
    let m := Machine.startRecording Turnstile.table jammed [] .alarming
    (m.step ⟨.reset, default⟩).Abandoned m [.alarmOff] [.perform .alarmOff] ∧
    (m.step ⟨.coin, default⟩).Abandoned m [] [] := by
  intro jammed m
  obtain ⟨action, _⟩ := aborted_dispatch_keeps_machine _ _ Turnstile.build_rules m rfl
    ⟨.reset, default⟩
  obtain ⟨_, refusal, _⟩ := aborted_dispatch_keeps_machine _ _ Turnstile.build_rules m rfl
    ⟨.coin, default⟩
  refine ⟨?_, ?_⟩
  · exact action ⟨.alarming, .reset, .locked0, [.alarmOff, .lock]⟩ (by decide) rfl [.alarmOff] .lock
      [] [.alarmOff] [.alarmOff] rfl (.cons rfl (.nil _)) rfl
  · exact refusal (by decide) [] rfl

end Table.Draft

end Transducer
