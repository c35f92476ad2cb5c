import Transducer.Proofs.Walk

/-!
# Journals tell the whole session

A machine that records writes every move into its journal, and the journal may
be taken from it at any time. What was taken and what is left tell the session
from its start, without a gap at the places where the journal was taken.

* `Machine.execute_cases`: a command takes the journal, or it takes the machine
  on a trip.
* `Machine.exists_moves_after`: all that was recorded in a session is one walk,
  which the returned outcomes name.
* `Machine.walk_current_journal`: the journal that is left starts where it was
  last taken.
* `Table.Draft.journals_tell_session`: this for machines over a table that a
  draft made, with what holds for machines that do not record.
-/

namespace Transducer

variable {S E A K : Type} [DecidableEq S] [Hashable S] [DecidableEq E] [Hashable E]

/-- The path of a journal that is a walk starts with the start, also if the
start is not written down anywhere else. -/
theorem Table.Walk.path_eq {t : Table S E A} {journal : Journal S E} {start finish : S}
    (walk : t.Walk start journal.toList finish) (nonempty : journal.isEmpty = false) :
    journal.path = start :: journal.toList.map Move.target := by
  have nonempty : journal.toList ≠ [] := by
    simpa [Journal.isEmpty, Journal.toList] using nonempty
  rw [Journal.path]
  cases moves : journal.toList with
  | nil => contradiction
  | cons first rest =>
      rw [moves] at walk
      cases walk
      rfl

namespace Machine

variable [Named S] [Named E]

/-! ## One command -/

@[simp]
theorem table_execute (m : Machine S E A K) (command : Command E K) :
    (m.execute command).machine.table = m.table := by
  cases command with
  | step arrival => exact table_step m arrival
  | feed arrivals => exact table_feed m arrivals
  | journal => rfl
  | takeJournal => rfl
  | editReceiver edit => rfl

theorem table_after (m : Machine S E A K) (commands : List (Command E K)) :
    (m.after commands).table = m.table := by
  induction commands generalizing m with
  | nil => rfl
  | cons command rest ih => rw [after_cons, ih, table_execute]

theorem coherent_execute {m : Machine S E A K} (coherent : m.table.Coherent)
    (command : Command E K) : (m.execute command).machine.table.Coherent := by
  rw [table_execute]
  exact coherent

/-- A command takes the journal and does nothing else, or it does not take it.
Then it takes the machine on a trip, and the outcomes that it returns name the
moves. -/
theorem execute_cases (m : Machine S E A K) (coherent : m.table.Coherent)
    (command : Command E K) :
    (command = .takeJournal ∧
      m.execute command =
        ⟨{ m with journal := m.journal.map fun _ => .empty }, [], some (.journal m.journal)⟩) ∨
    (command ≠ .takeJournal ∧
      ∃ moves, m.Trip (m.execute command).machine moves ∧
        ∀ answer, (m.execute command).result = some answer →
          moves.map Move.outcome = answer.reported.filter Outcome.didMove) := by
  cases command with
  | takeJournal => exact .inl ⟨rfl, rfl⟩
  | step arrival =>
      obtain ⟨moves, trip, named⟩ := m.trip_step coherent arrival
      refine .inr ⟨nofun, moves, trip, ?_⟩
      intro answer completed
      obtain ⟨outcome, result, rfl⟩ := Option.map_eq_some_iff.mp completed
      exact named outcome result
  | feed arrivals =>
      obtain ⟨moves, trip, named⟩ := m.trip_feed coherent arrivals
      refine .inr ⟨nofun, moves, trip, ?_⟩
      intro answer completed
      obtain ⟨outcomes, result, rfl⟩ := Option.map_eq_some_iff.mp completed
      exact named outcomes result
  | journal =>
      refine .inr ⟨nofun, [], .stay m m.receiver, ?_⟩
      rintro answer ⟨⟩
      rfl
  | editReceiver edit =>
      refine .inr ⟨nofun, [], .stay m (edit m.receiver), ?_⟩
      rintro answer ⟨⟩
      rfl

/-! ## Sessions -/

/-- What was taken during a session and what is left afterwards are the journal
before the session and the moves of a walk. If no command aborts, the outcomes
that were returned name these moves. -/
theorem exists_moves_after (m : Machine S E A K) (coherent : m.table.Coherent)
    (journal : Journal S E) (recording : m.journal = some journal)
    (commands : List (Command E K)) :
    ∃ last moves, (m.after commands).journal = some last ∧
      (m.session commands).flatMap Exchange.taken ++ last.toList = journal.toList ++ moves ∧
      m.table.Walk m.state moves (m.after commands).state ∧
      ((∀ x ∈ m.session commands, x.run.result.isSome) →
        moves.map Move.outcome = (m.outcomes commands).filter Outcome.didMove) := by
  induction commands generalizing m journal with
  | nil => exact ⟨journal, [], recording, (List.append_nil _).symm, .nil m.state, fun _ => rfl⟩
  | cons command rest ih =>
      have stillCoherent := coherent_execute coherent command
      rw [after_cons, outcomes_cons, session, List.flatMap_cons]
      obtain ⟨rfl, run⟩ | ⟨other, moves, trip, named⟩ := m.execute_cases coherent command
      · -- The journal is handed over whole, and an empty one takes its place.
        obtain ⟨last, moves, left, told, walk, named⟩ :=
          ih (m.execute .takeJournal).machine stillCoherent .empty (by rw [run, recording]; rfl)
        refine ⟨last, moves, left, ?_, ?_, ?_⟩
        · rw [List.append_assoc, told, Exchange.taken, run, recording]
          rfl
        · rw [run] at walk ⊢
          exact walk
        · intro completed
          rw [named fun x member => completed x (List.mem_cons_of_mem _ member), run]
          rfl
      · obtain ⟨next, recordingNext, added⟩ := trip.exists_journal recording
        obtain ⟨last, others, left, told, walk, alsoNamed⟩ :=
          ih (m.execute command).machine stillCoherent next recordingNext
        refine ⟨last, moves ++ others, left, ?_, ?_, ?_⟩
        · rw [Exchange.taken_of_ne other, List.nil_append, told, added, List.append_assoc]
        · rw [table_execute] at walk
          exact trip.walk.append walk
        · intro completed
          obtain ⟨answer, result⟩ :=
            Option.isSome_iff_exists.mp (completed _ List.mem_cons_self)
          rw [List.map_append, named answer result, result,
            alsoNamed fun x member => completed x (List.mem_cons_of_mem _ member),
            ← List.filter_append]
          rfl

/-- The journal that is left after a session is a walk from the state in which
the journal was last taken. -/
theorem walk_current_journal (m : Machine S E A K) (coherent : m.table.Coherent)
    (journal : Journal S E) (recording : m.journal = some journal) (origin : S)
    (soFar : m.table.Walk origin journal.toList m.state) (commands : List (Command E K))
    (last : Journal S E) (left : (m.after commands).journal = some last) :
    m.table.Walk (Exchange.lastTaken origin (m.session commands)) last.toList
      (m.after commands).state := by
  -- The origin varies too: from a command that takes the journal on, it is the
  -- state at that time.
  induction commands generalizing m journal origin with
  | nil =>
      rw [after_nil, recording, Option.some.injEq] at left
      rw [← left]
      exact soFar
  | cons command rest ih =>
      have stillCoherent := coherent_execute coherent command
      rw [after_cons] at left ⊢
      rw [session, Exchange.lastTaken, List.foldl_cons, ← table_execute m command]
      obtain ⟨rfl, run⟩ | ⟨other, moves, trip, _⟩ := m.execute_cases coherent command
      · refine ih (m.execute .takeJournal).machine stillCoherent .empty ?_ _ (.nil _) left
        rw [run, recording]
        rfl
      · obtain ⟨next, recordingNext, added⟩ := trip.exists_journal recording
        refine ih (m.execute command).machine stillCoherent next recordingNext _ ?_ left
        rw [Exchange.origin_of_ne other, added, table_execute]
        exact soFar.append trip.walk

/-- A machine that does not record never has a journal. -/
theorem journal_after_of_none (m : Machine S E A K) (coherent : m.table.Coherent)
    (plain : m.journal = none) (commands : List (Command E K)) :
    (m.after commands).journal = none := by
  induction commands generalizing m with
  | nil => exact plain
  | cons command rest ih =>
      rw [after_cons]
      refine ih _ (coherent_execute coherent command) ?_
      obtain ⟨_, run⟩ | ⟨_, moves, trip, _⟩ := m.execute_cases coherent command
      · rw [run, plain]
        rfl
      · have journals := trip.journal
        rw [plain, Option.map_none, Option.map_eq_none_iff] at journals
        exact journals

namespace Follows

variable {m : Machine S E A K} {i : Interpreter S E A K}

theorem execute (follows : m.Follows i) (command : Command E K) :
    (m.execute command).machine.Follows i := by
  cases command with
  | step arrival => exact follows.step arrival
  | feed arrivals => exact follows.feed arrivals
  | journal => exact follows
  | takeJournal => exact follows.congr rfl rfl
  | editReceiver edit => exact follows.congr rfl rfl

theorem isSome_execute (follows : m.Follows i) (command : Command E K) :
    (m.execute command).result.isSome := by
  cases command with
  | step arrival => rw [Machine.execute, (follows.step_agrees arrival).result]; rfl
  | feed arrivals => rw [Machine.execute, (follows.feed_agrees arrivals).result]; rfl
  | journal => rfl
  | takeJournal => rfl
  | editReceiver edit => rfl

/-- With a sink that cannot abort, every command of a session is answered. -/
theorem isSome_session (follows : m.Follows i) (commands : List (Command E K)) :
    ∀ x ∈ m.session commands, x.run.result.isSome := by
  induction commands generalizing m with
  | nil =>
      intro x member
      contradiction
  | cons command rest ih =>
      intro x member
      cases member with
      | head => exact follows.isSome_execute command
      | tail _ later => exact ih (follows.execute command) x later

end Follows

end Machine

/-- A machine that records has a journal at every time. The moves in all
journals that were taken and in the one that is left are, in order, those that
the returned outcomes report, provided that no call was cut short by the sink (a
sink that never aborts cuts none short). Each of them is made by a rule, the
sources and then the current state are the start and then the targets, and the
path of the journal that is left is a walk from the state in which the journal
was last taken to the current one. A machine that does not record never has a
journal. -/
theorem Table.Draft.journals_tell_session [Named S] [Named E] (draft : Table.Draft S E A)
    (t : Table S E A) (built : draft.build = .ok t) (sink : Sink S E A K) (receiver : K)
    (state : S) (commands : List (Machine.Command E K)) :
    let m := Machine.startRecording t sink receiver state
    let exchanges := m.session commands
    let now := (m.after commands).state
    (∃ journal, (m.after commands).journal = some journal ∧
      let records := exchanges.flatMap Machine.Exchange.taken ++ journal.toList
      ((∀ x ∈ exchanges, x.run.result.isSome) →
        records.map Move.outcome = (m.outcomes commands).filter Outcome.didMove) ∧
      (∀ move ∈ records, ∃ r ∈ t.rules.toList,
        r.source = move.source ∧ r.target = move.target ∧ r.event = move.event) ∧
      records.map Move.source ++ [now] = state :: records.map Move.target ∧
      (journal.isEmpty = false →
        journal.path.IsChain t.Edge ∧
        journal.path.head? = some (Machine.Exchange.lastTaken state exchanges) ∧
        journal.path.getLast? = some now)) ∧
    (∀ perform unhandled, sink = .total perform unhandled →
      ∀ x ∈ exchanges, x.run.result.isSome) ∧
    let plain := Machine.start t sink receiver state
    (plain.after commands).journal = none ∧ (plain.after commands).takeJournal.2 = none := by
  intro m exchanges now
  have coherent : t.Coherent := coherent_of_build built
  refine ⟨?_, ?_, ?_⟩
  · obtain ⟨journal, moves, left, told, walk, named⟩ :=
      m.exists_moves_after coherent .empty rfl commands
    rw [Journal.toList_empty, List.nil_append] at told
    have current :=
      m.walk_current_journal coherent .empty rfl state (.nil state) commands journal left
    refine ⟨journal, left, ?_⟩
    rw [told]
    refine ⟨named, walk.exists_rule, walk.sources_append_finish, ?_⟩
    intro nonempty
    rw [current.path_eq nonempty]
    refine ⟨current.isChain_edge, rfl, ?_⟩
    rw [← current.sources_append_finish]
    exact List.getLast?_concat
  · rintro perform unhandled rfl
    have follows : m.Follows ⟨t.rules.toList, perform, unhandled⟩ := ⟨coherent, rfl, rfl⟩
    exact follows.isSome_session commands
  · intro plain
    have none := plain.journal_after_of_none coherent rfl commands
    exact ⟨none, none⟩

/-- The journal of a turnstile is taken after a coin. The passage that follows
the refused reset is found in the journal that is left. -/
theorem Table.Draft.journals_tell_turnstile_session :
    let m := Machine.startRecording Turnstile.table
      (.total (fun _ n => n + 1) (fun _ _ n => n)) 0 .locked0
    let commands : List (Machine.Command Turnstile.Event Nat) :=
      [.step ⟨.coin, default⟩, .takeJournal, .editReceiver (· + 1),
        .feed [⟨.reset, default⟩, ⟨.pass, default⟩]]
    ∃ journal, (m.after commands).journal = some journal ∧
      ((m.session commands).flatMap Machine.Exchange.taken ++ journal.toList).map Move.outcome =
        [.moved .locked0 .locked1 .coin, .moved .locked1 .alarming .pass] := by
  intro m commands
  have lookup (state : Turnstile.State) (event : Turnstile.Event) :
      Turnstile.table.lookup state event = Turnstile.rules.find? (·.applies state event) :=
    (coherent_of_build Turnstile.build_rules).lookup_eq_find? state event
  have outcomes : m.outcomes commands =
      [.moved .locked0 .locked1 .coin, .unhandled .locked1 .reset,
        .moved .locked1 .alarming .pass] := by
    simp [m, commands, lookup, Turnstile.rules, Rule.applies, Machine.startRecording,
      Machine.execute, Machine.step, Machine.feed, Machine.fire, Machine.refuse,
      Machine.takeJournal, Machine.editReceiver, Machine.Answer.reported, Sink.performAll,
      Sink.total]
  obtain ⟨⟨journal, left, named, _⟩, completes, _⟩ := journals_tell_session _ _
    Turnstile.build_rules (.total (fun _ n => n + 1) (fun _ _ n => n)) 0 .locked0 commands
  refine ⟨journal, left, (named (completes _ _ rfl)).trans ?_⟩
  change (m.outcomes commands).filter Outcome.didMove = _
  rw [outcomes]
  rfl

end Transducer
