import Transducer.Proofs.Dispatch
import Transducer.Record

/-!
# The log tells the run

The log of a machine and the calls on its sink, written down in one record, tell
a run event by event. For every outcome there is one block, and the blocks stand
in the order of the outcomes. The lines around the calls show symbols by name
only, but they show enough to tell where a block ends.

* `Record.cut_flatMap_entries`, `Record.map_entries_eq`: a record can be divided
  into blocks in one way only.
* `Record.Block.eq_of_outcome`: an outcome has one block at most.
* `Machine.exists_block_of_step`, `Machine.exists_blocks_of_feed`: a step writes
  one block, and so a run writes one for each event.
* `Machine.Follows.calls_feed`: without the log lines, the record is what a
  plain reading of the rules does.
* `Table.Draft.record_tells_run`: all of this for a table that a draft made,
  with what is logged about the draft.
-/

namespace Transducer

variable {S E A K : Type}

namespace Record

/-! ## Cutting a record into blocks -/

section Cut

variable [DecidableEq S] [Named S] [Named E]

/-- The first entry of a block announces the others. -/
theorem Block.exists_entries (block : Block S E A) :
    ∃ first others, block.entries = first :: others ∧ others.length = first.announced := by
  cases block with
  | fired r => exact ⟨_, _, rfl, by simp [Entry.announced, List.lookup_cons]⟩
  | refused state event => exact ⟨_, _, rfl, by simp [Entry.announced]⟩

theorem cut_flatMap_entries (blocks : List (Block S E A)) :
    cut (blocks.flatMap Block.entries) = blocks.map Block.entries := by
  induction blocks with
  | nil =>
      rw [List.flatMap_nil, cut]
      rfl
  | cons block rest ih =>
      obtain ⟨first, others, entries, length⟩ := block.exists_entries
      rw [List.flatMap_cons, List.map_cons, entries, List.cons_append, cut, ← length,
        List.take_left, List.drop_left, ih]

/-- A record can be read as blocks in one way only. -/
theorem map_entries_eq {blocks others : List (Block S E A)}
    (same : others.flatMap Block.entries = blocks.flatMap Block.entries) :
    others.map Block.entries = blocks.map Block.entries := by
  rw [← cut_flatMap_entries others, same, cut_flatMap_entries]

end Cut

theorem filter_isCall_map_entry (signals : List (Signal S E A)) :
    (signals.map Signal.entry).filter Entry.isCall =
      (signals.filter Signal.isCall).map Signal.entry := by
  have same : Entry.isCall ∘ (Signal.entry : Signal S E A → Entry S E A) = Signal.isCall := by
    funext signal
    cases signal <;> rfl
  rw [List.filter_map, same]

/-! ## Blocks of a table -/

variable [DecidableEq S] [Hashable S] [DecidableEq E] [Hashable E] {t : Table S E A}

/-- An outcome has one block at most. A move tells the source and the event, and
with them the rule. -/
theorem Block.eq_of_outcome (coherent : t.Coherent) {block other : Block S E A} (here : block.Of t)
    (there : other.Of t) (same : other.outcome = block.outcome) : other = block := by
  cases block with
  | fired r =>
      cases other with
      | refused state event => cases same
      | fired r' =>
          simp only [outcome, Outcome.moved.injEq] at same
          have found := coherent.lookup_eq_some_iff.mpr ⟨here, rfl, rfl⟩
          have found' := coherent.lookup_eq_some_iff.mpr ⟨there, same.1, same.2.2⟩
          rw [found, Option.some.injEq] at found'
          rw [found']
  | refused state event =>
      cases other with
      | fired r => cases same
      | refused state' event' =>
          cases same
          rfl

theorem eq_of_map_outcome (coherent : t.Coherent) {blocks others : List (Block S E A)}
    (here : ∀ block ∈ blocks, block.Of t) (there : ∀ block ∈ others, block.Of t)
    (same : others.map Block.outcome = blocks.map Block.outcome) : others = blocks := by
  induction blocks generalizing others with
  | nil => exact List.map_eq_nil_iff.mp same
  | cons block rest ih =>
      obtain ⟨other, othersRest, rfl, first, remaining⟩ := List.map_eq_cons_iff.mp same
      rw [List.forall_mem_cons] at here there
      rw [Block.eq_of_outcome coherent here.1 there.1 first, ih here.2 there.2 remaining]

end Record

/-! ## What a machine writes -/

namespace Machine

variable [DecidableEq S] [Hashable S] [DecidableEq E] [Hashable E] [Named S] [Named E]
  {m : Machine S E A K}

/-- A step that comes to its end writes one block, that of its outcome. -/
theorem exists_block_of_step (coherent : m.table.Coherent) {arrival : Arrival E}
    {outcome : Outcome S E} (completed : (m.step arrival).result = some outcome) :
    ∃ block : Record.Block S E A, block.Of m.table ∧ block.outcome = outcome ∧
      (m.step arrival).signals.map Signal.entry = block.entries := by
  cases found : m.table.lookup m.state arrival.event with
  | none =>
      refine ⟨.refused m.state arrival.event, ?_, ?_⟩
      · intro r member key
        simp only [Rule.key, Prod.mk.injEq] at key
        rw [coherent.lookup_eq_some_iff.mpr ⟨member, key⟩] at found
        contradiction
      · rw [step_of_none found, refuse] at completed ⊢
        cases told : m.sink.unhandled m.state arrival.event m.receiver with
        | aborted k =>
            rw [told] at completed
            contradiction
        | done k =>
            rw [told] at completed
            cases completed
            exact ⟨rfl, rfl⟩
  | some r =>
      obtain ⟨member, source, event⟩ := coherent.lookup_eq_some_iff.mp found
      refine ⟨.fired r, member, ?_⟩
      rw [step_of_some found, fire] at completed ⊢
      rcases performed : m.sink.performAll r.actions m.receiver with ⟨actions, k | k⟩
      · rw [performed] at completed
        cases completed
        rw [Record.Block.outcome, Record.Block.entries, source, event,
          Sink.completed_of_done performed]
        refine ⟨rfl, ?_⟩
        simp [Signal.entry, LogLine.entry, LogLine.level, LogLine.message, LogLine.fields,
          Rule.isSelfLoop, source]
      · rw [performed] at completed
        contradiction

theorem exists_blocks_of_feed (coherent : m.table.Coherent) {arrivals : List (Arrival E)}
    {outcomes : List (Outcome S E)} (completed : (m.feed arrivals).result = some outcomes) :
    ∃ blocks : List (Record.Block S E A), (∀ block ∈ blocks, block.Of m.table) ∧
      blocks.map Record.Block.outcome = outcomes ∧
      (m.feed arrivals).signals.map Signal.entry = blocks.flatMap Record.Block.entries := by
  induction arrivals generalizing m outcomes with
  | nil =>
      cases completed
      exact ⟨[], nofun, rfl, rfl⟩
  | cons arrival rest ih =>
      obtain ⟨first, others, head, tail, rfl⟩ := result_feed_cons completed
      obtain ⟨block, here, told, written⟩ := exists_block_of_step coherent head
      obtain ⟨blocks, there, toldOthers, writtenOthers⟩ :=
        ih (by rw [table_step]; exact coherent) tail
      rw [table_step] at there
      refine ⟨block :: blocks, List.forall_mem_cons.mpr ⟨here, there⟩, ?_, ?_⟩
      · rw [List.map_cons, told, toldOthers]
      · rw [feed_of_some rest head, List.map_append, written, writtenOthers, List.flatMap_cons]

/-- The calls of a run are those of the plain reading. -/
theorem Follows.calls_feed {i : Interpreter S E A K} (follows : m.Follows i)
    (arrivals : List (Arrival E)) :
    (m.feed arrivals).signals.filter Signal.isCall =
      i.trace m.state m.receiver (arrivals.map Arrival.event) := by
  induction arrivals generalizing m with
  | nil => rfl
  | cons arrival rest ih =>
      have first := follows.step_agrees arrival
      rw [feed_of_some rest first.result, List.filter_append, follows.calls_step,
        ih (follows.step arrival), first.state, first.receiver]
      rfl

end Machine

variable [DecidableEq S] [Hashable S] [DecidableEq E] [Hashable E] [Named S] [Named E]

namespace Table.Draft

/-- What a draft logs: the number of its rules if it makes a table, and
otherwise nothing. -/
theorem log_of_build (d : Draft S E A) :
    d.buildLogged.log =
      match d.build with
      | .ok t => [.tableBuilt t.size]
      | .error _ => [] := by
  unfold build buildLogged
  split
  · rfl
  · split <;> rfl

/-- A run of a machine over the table of a draft writes the blocks of its
outcomes, one after the other, whatever the sink does, as long as it does not
abort. The record can be divided into blocks in no other way. If the log lines
are left out, the calls remain that a plain reading of the rules makes, which
has no log, and they are all that happens to the receiver. And a draft logs one
line when it makes a table, and none when it does not. -/
theorem record_tells_run (draft : Draft S E A) (t : Table S E A) (built : draft.build = .ok t)
    (m : Machine S E A K) (table : m.table = t) (arrivals : List (Arrival E)) :
    let run := m.feed arrivals
    let record := run.signals.map Signal.entry
    (∀ outcomes, run.result = some outcomes →
      ∃ blocks : List (Record.Block S E A), (∀ block ∈ blocks, block.Of t) ∧
        blocks.map Record.Block.outcome = outcomes ∧
        record = blocks.flatMap Record.Block.entries ∧
        Record.cut record = blocks.map Record.Block.entries ∧
        ∀ others : List (Record.Block S E A), record = others.flatMap Record.Block.entries →
          others.map Record.Block.entries = blocks.map Record.Block.entries) ∧
    (∀ perform unhandled, m.sink = .total perform unhandled →
      let i : Interpreter S E A K := ⟨draft.rules.toList, perform, unhandled⟩
      let events := arrivals.map Arrival.event
      run.result = some (i.run m.state m.receiver events).answer ∧
      record.filter Record.Entry.isCall =
        (i.trace m.state m.receiver events).map Signal.entry ∧
      run.machine.receiver = (i.trace m.state m.receiver events).foldl i.receive m.receiver) ∧
    ∀ d : Draft S E A,
      (∀ t', d.build = .ok t' →
        (d.buildLogged.log.map LogLine.entry : List (Record.Entry S E A)) =
          [.line .debug "transition table built" [("transitions", .int t'.size)]]) ∧
      ∀ error, d.build = .error error → d.buildLogged.log = [] := by
  intro run record
  have coherent : m.table.Coherent := by
    rw [table]
    exact coherent_of_build built
  refine ⟨?_, ?_, ?_⟩
  · intro outcomes completed
    obtain ⟨blocks, here, told, written⟩ := Machine.exists_blocks_of_feed coherent completed
    rw [table] at here
    refine ⟨blocks, here, told, written, ?_, ?_⟩
    · rw [show record = _ from written, Record.cut_flatMap_entries]
    · intro others same
      exact Record.map_entries_eq (same.symm.trans written)
  · intro perform unhandled total i events
    have follows : m.Follows i :=
      ⟨coherent, by rw [table, rules_of_build built], total⟩
    have agrees := follows.feed_agrees arrivals
    refine ⟨agrees.result, ?_, ?_⟩
    · rw [Record.filter_isCall_map_entry, follows.calls_feed]
    · rw [← Interpreter.receiver_run]
      exact agrees.receiver
  · intro d
    refine ⟨?_, ?_⟩
    · intro t' success
      rw [log_of_build, success]
      rfl
    · intro error failure
      rw [log_of_build, failure]

/-- Two states that are shown under one name, a loop, and an event that nobody
handles. -/
theorem record_tells_namesakes_run :
    ∃ t, (namesakes.foldl apply default).build = .ok t ∧
      let m := Machine.start t (.total (fun a done => done ++ [a]) (fun _ _ done => done)) []
        ⟨"A#1"⟩
      let run := m.feed [⟨⟨"go"⟩, default⟩, ⟨⟨"stop"⟩, default⟩, ⟨⟨"go"⟩, default⟩,
        ⟨⟨"stop"⟩, default⟩]
      run.signals.map Signal.entry = [
        .line .trace "transition matched"
          [("state", .text "A"), ("event", .text "go"), ("actions", .int 1),
            ("self_loop", .bool false)],
        .perform ⟨"x"⟩,
        .line .debug "transition complete"
          [("from", .text "A"), ("to", .text "A"), ("event", .text "go")],
        .line .trace "transition matched"
          [("state", .text "A"), ("event", .text "stop"), ("actions", .int 0),
            ("self_loop", .bool false)],
        .line .debug "transition complete"
          [("from", .text "A"), ("to", .text "B"), ("event", .text "stop")],
        .line .trace "transition matched"
          [("state", .text "B"), ("event", .text "go"), ("actions", .int 0),
            ("self_loop", .bool true)],
        .line .debug "transition complete"
          [("from", .text "B"), ("to", .text "B"), ("event", .text "go")],
        .line .debug "unhandled transition" [("state", .text "B"), ("event", .text "stop")],
        .unhandled ⟨"B"⟩ ⟨"stop"⟩] := by
  have built := (build_eq_ok_iff (namesakes.foldl apply default) _).mpr
    ⟨by decide, by decide, rfl⟩
  refine ⟨_, built, ?_⟩
  intro m run
  obtain ⟨tells, reads, _⟩ := record_tells_run _ _ built m rfl
    [⟨⟨"go"⟩, default⟩, ⟨⟨"stop"⟩, default⟩, ⟨⟨"go"⟩, default⟩, ⟨⟨"stop"⟩, default⟩]
  obtain ⟨completed, _⟩ := reads _ _ rfl
  obtain ⟨blocks, here, told, written, _⟩ := tells _ completed
  have expected : blocks = [.fired ⟨⟨"A#1"⟩, ⟨"go"⟩, ⟨"A#2"⟩, [⟨"x"⟩]⟩,
      .fired ⟨⟨"A#2"⟩, ⟨"stop"⟩, ⟨"B"⟩, []⟩, .fired ⟨⟨"B"⟩, ⟨"go"⟩, ⟨"B"⟩, []⟩,
      .refused ⟨"B"⟩ ⟨"stop"⟩] := by
    refine Record.eq_of_map_outcome (coherent_of_build built) ?_ here (told.trans (by decide))
    simp only [List.forall_mem_cons, List.not_mem_nil, false_implies, implies_true, and_true]
    exact ⟨by decide, by decide, by decide, by decide⟩
  rw [written, expected]
  rfl

end Table.Draft

end Transducer
