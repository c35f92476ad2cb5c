import Mathlib.Data.List.Chain
import Transducer.Proofs.Dispatch
import Transducer.Table.Search

/-!
# Walks

The moves of a machine follow the rules of its table, seen as the edges of a
graph.

* `Journal.outcomes`: the moves of a journal without their times, which the path
  does not depend on.
* `Table.Walk`: moves along rules, each starting where the one before it ended.
* `Machine.Trip`: what a machine that makes given moves has become. It is at the
  end of a walk, and the moves have been added to its journal, if it keeps one.
* `Machine.trip_step`, `Machine.trip_feed`: events take a machine over a
  coherent table on a trip, and the outcomes that are returned name its moves.
  This holds for every sink, also when it aborts.
-/

namespace Transducer

variable {S E A K : Type}

/-- The outcome that reports a move. -/
def Move.outcome (move : Move S E) : Outcome S E :=
  .moved move.source move.target move.event

namespace Journal

/-- What the moves of a journal are without their times. -/
def outcomes (j : Journal S E) : List (Outcome S E) :=
  j.toList.map Move.outcome

@[simp]
theorem outcomes_push (j : Journal S E) (move : Move S E) :
    (j.push move).outcomes = j.outcomes ++ [move.outcome] := by
  rw [outcomes, toList_push, List.map_append]
  rfl

theorem map_outcomes_push (j : Option (Journal S E)) (move : Move S E) :
    (j.map (·.push move)).map outcomes = (j.map outcomes).map (· ++ [move.outcome]) := by
  cases j with
  | none => rfl
  | some journal =>
      rw [Option.map_some, Option.map_some, outcomes_push]
      rfl

theorem map_event_outcomes (j : Journal S E) : j.outcomes.map Outcome.event = j.events := by
  rw [outcomes, List.map_map]
  rfl

/-- The path of a journal does not depend on times. -/
theorem path_eq_of_outcomes {j other : Journal S E} (same : other.outcomes = j.outcomes) :
    other.path = j.path := by
  have targets (k : Journal S E) : k.toList.map Move.target = k.outcomes.map Outcome.state := by
    rw [outcomes, List.map_map]
    rfl
  rw [path, path]
  cases moves : j.toList with
  | nil =>
      rw [outcomes, outcomes, moves, List.map_nil, List.map_eq_nil_iff] at same
      rw [same]
  | cons first rest =>
      cases others : other.toList with
      | nil =>
          rw [outcomes, outcomes, moves, others] at same
          contradiction
      | cons otherFirst otherRest =>
          have all := congrArg (List.map Outcome.state) same
          rw [← targets, ← targets, moves, others] at all
          rw [outcomes, outcomes, moves, others, List.map_cons, List.map_cons,
            List.cons.injEq] at same
          obtain ⟨source, _, _⟩ := Outcome.moved.inj same.1
          show otherFirst.source :: _ = first.source :: _
          rw [source, all]

end Journal

variable [DecidableEq S] [Hashable S] [DecidableEq E] [Hashable E]

namespace Table

inductive Walk (t : Table S E A) : S → List (Move S E) → S → Prop
  | nil (state : S) : t.Walk state [] state
  | cons {finish : S} {rest : List (Move S E)} (r : Rule S E A) (time : Instant) :
      r ∈ t.rules.toList → t.Walk r.target rest finish →
      t.Walk r.source (⟨r.source, r.target, r.event, time⟩ :: rest) finish

namespace Walk

variable {t : Table S E A} {start middle finish : S} {moves others : List (Move S E)}

theorem append (first : t.Walk start moves middle) (second : t.Walk middle others finish) :
    t.Walk start (moves ++ others) finish := by
  induction first with
  | nil state => exact second
  | cons r time member _ ih => exact .cons r time member (ih second)

theorem reflTransGen (walk : t.Walk start moves finish) :
    Relation.ReflTransGen t.Edge start finish := by
  induction walk with
  | nil state => exact .refl
  | cons r time member _ ih => exact .head ⟨r, member, rfl, rfl⟩ ih

/-- Every move is made by a rule. -/
theorem exists_rule (walk : t.Walk start moves finish) :
    ∀ move ∈ moves, ∃ r ∈ t.rules.toList,
      r.source = move.source ∧ r.target = move.target ∧ r.event = move.event := by
  induction walk with
  | nil state =>
      intro move member
      contradiction
  | cons r time member _ ih =>
      intro move present
      cases present with
      | head => exact ⟨r, member, rfl, rfl, rfl⟩
      | tail _ later => exact ih move later

/-- The sources and then the finish are the start and then the targets. So the
first move leaves the start, every other one leaves the target of the move
before it, and the last one leads to the finish. -/
theorem sources_append_finish (walk : t.Walk start moves finish) :
    moves.map Move.source ++ [finish] = start :: moves.map Move.target := by
  induction walk with
  | nil state => rfl
  | cons r time member _ ih => rw [List.map_cons, List.cons_append, ih, List.map_cons]

/-- The states on the way, the start included, are joined by edges. -/
theorem isChain_edge (walk : t.Walk start moves finish) :
    (start :: moves.map Move.target).IsChain t.Edge := by
  induction walk with
  | nil state => exact .singleton state
  | cons r time member _ ih => exact .cons_cons ⟨r, member, rfl, rfl⟩ ih

end Walk

end Table

namespace Machine

/-- The second machine is the first one after the moves. -/
structure Trip (before after : Machine S E A K) (moves : List (Move S E)) : Prop where
  table : after.table = before.table
  journal : after.journal.map Journal.toList = before.journal.map (·.toList ++ moves)
  walk : before.table.Walk before.state moves after.state

namespace Trip

theorem stay (m : Machine S E A K) (receiver : K) : m.Trip { m with receiver } [] := by
  refine ⟨rfl, ?_, .nil m.state⟩
  cases m.journal with
  | none => rfl
  | some journal => rw [Option.map_some, Option.map_some, List.append_nil]

theorem trans {m₁ m₂ m₃ : Machine S E A K} {moves others : List (Move S E)}
    (first : m₁.Trip m₂ moves) (second : m₂.Trip m₃ others) : m₁.Trip m₃ (moves ++ others) := by
  refine ⟨second.table.trans first.table, ?_, ?_⟩
  · have journals := first.journal
    rw [second.journal]
    cases before : m₁.journal with
    | none =>
        rw [before, Option.map_none, Option.map_eq_none_iff] at journals
        rw [journals]
        rfl
    | some j =>
        rw [before, Option.map_some, Option.map_eq_some_iff] at journals
        obtain ⟨between, middle, list⟩ := journals
        rw [middle, Option.map_some, Option.map_some, list, List.append_assoc]
  · have walk := second.walk
    rw [first.table] at walk
    exact first.walk.append walk

/-- A journal that a trip has added to. -/
theorem exists_journal {before after : Machine S E A K} {moves : List (Move S E)}
    (trip : before.Trip after moves) {journal : Journal S E}
    (recording : before.journal = some journal) :
    ∃ next, after.journal = some next ∧ next.toList = journal.toList ++ moves := by
  have journals := trip.journal
  rw [recording, Option.map_some, Option.map_eq_some_iff] at journals
  exact journals

end Trip

variable [Named S] [Named E]

/-- A step is a trip of one move, or of none. -/
theorem trip_step (m : Machine S E A K) (coherent : m.table.Coherent) (arrival : Arrival E) :
    ∃ moves, m.Trip (m.step arrival).machine moves ∧
      ∀ outcome, (m.step arrival).result = some outcome →
        moves.map Move.outcome = [outcome].filter Outcome.didMove := by
  obtain ⟨r, k, found, after, result⟩ | ⟨k, _, after, result⟩ | ⟨k, after, result⟩ :=
    m.step_cases arrival
  · obtain ⟨member, source, event⟩ := coherent.lookup_eq_some_iff.mp found
    refine ⟨[⟨m.state, r.target, arrival.event, arrival.time⟩], ⟨?_, ?_, ?_⟩, ?_⟩
    · rw [after]
    · rw [after]
      cases m.journal with
      | none => rfl
      | some journal => simp
    · rw [after, ← source, ← event]
      exact .cons r arrival.time member (.nil r.target)
    · intro outcome completed
      rw [result, Option.some.injEq] at completed
      rw [← completed]
      rfl
  · refine ⟨[], ?_, ?_⟩
    · rw [after]
      exact .stay m k
    · intro outcome completed
      rw [result, Option.some.injEq] at completed
      rw [← completed]
      rfl
  · refine ⟨[], ?_, ?_⟩
    · rw [after]
      exact .stay m k
    · intro outcome completed
      rw [result] at completed
      contradiction

theorem trip_feed (m : Machine S E A K) (coherent : m.table.Coherent)
    (arrivals : List (Arrival E)) :
    ∃ moves, m.Trip (m.feed arrivals).machine moves ∧
      ∀ outcomes, (m.feed arrivals).result = some outcomes →
        moves.map Move.outcome = outcomes.filter Outcome.didMove := by
  induction arrivals generalizing m with
  | nil =>
      refine ⟨[], .stay m m.receiver, ?_⟩
      rintro outcomes ⟨⟩
      rfl
  | cons arrival rest ih =>
      obtain ⟨moves, first, named⟩ := m.trip_step coherent arrival
      cases completed : (m.step arrival).result with
      | none =>
          rw [feed_of_none rest completed]
          exact ⟨moves, first, fun _ impossible => nomatch impossible⟩
      | some outcome =>
          obtain ⟨others, second, alsoNamed⟩ := ih (m.step arrival).machine
            (by rw [table_step]; exact coherent)
          rw [feed_of_some rest completed]
          refine ⟨moves ++ others, first.trans second, ?_⟩
          intro outcomes all
          obtain ⟨tail, completedTail, rfl⟩ := Option.map_eq_some_iff.mp all
          rw [List.map_append, named outcome completed, alsoNamed tail completedTail,
            ← List.filter_append, List.singleton_append]

end Machine

end Transducer
