import Mathlib.Data.List.DropRight
import Transducer.Proofs.Reaction

/-!
# Who is admitted

A turnstile lets a person through who has paid two coins and has not tried
before. Here this is said of the events alone, without a word on the states of
the turnstile.

A turnstile is cleared when somebody is admitted and when a reset ends an alarm.
What happened before does not count any more.

* `Turnstile.sinceCleared`: the events that count.
* `Turnstile.standing`: the state that these events lead to.
* `Turnstile.state_after`: the turnstile is always in this state.
* `Turnstile.pass_admits_iff`: a passage is admitted exactly if there were two
  coins and no other passage among the events that count.
-/

namespace Transducer.Turnstile

variable {K : Type}

/-! ## Since the last clearing -/

/-- Somebody was admitted, or a reset ended an alarm. -/
def clears : Outcome State Event → Bool
  | .moved .unlocked .locked0 .pass => true
  | .moved _ _ .reset => true
  | _ => false

/-- The events since the turnstile was last cleared, or since the start if it
never was. -/
def sinceCleared (outcomes : List (Outcome State Event)) : List Event :=
  (outcomes.rtakeWhile fun outcome => !clears outcome).map Outcome.event

example :
    sinceCleared [.moved .locked0 .locked1 .coin, .moved .locked1 .unlocked .coin,
      .moved .unlocked .locked0 .pass, .unhandled .locked0 .reset, .moved .locked0 .locked1 .coin] =
        [.reset, .coin] := by
  decide

theorem sinceCleared_concat (outcomes : List (Outcome State Event))
    (outcome : Outcome State Event) :
    sinceCleared (outcomes ++ [outcome]) =
      if clears outcome then [] else sinceCleared outcomes ++ [outcome.event] := by
  rw [sinceCleared, List.rtakeWhile_concat]
  cases clears outcome with
  | true => rfl
  | false => exact List.map_append

/-- The state that events lead to from a cleared turnstile, unless they clear
it. -/
def standing (events : List Event) : State :=
  if .pass ∈ events then .alarming
  else
    match events.count .coin with
    | 0 => .locked0
    | 1 => .locked1
    | _ => .unlocked

theorem standing_coin (events : List Event) :
    standing (events ++ [.coin]) =
      match standing events with
      | .locked0 => .locked1
      | .locked1 => .unlocked
      | .unlocked => .unlocked
      | .alarming => .alarming := by
  by_cases tried : .pass ∈ events
  · simp [standing, tried]
  · rcases coins : events.count .coin with _ | _ | n
    · simp [standing, tried, coins]
    · simp [standing, tried, coins]
    · simp [standing, tried, coins]

theorem standing_pass (events : List Event) : standing (events ++ [.pass]) = .alarming := by
  simp [standing]

theorem standing_reset (events : List Event) : standing (events ++ [.reset]) = standing events := by
  simp [standing]

theorem standing_eq_unlocked_iff (events : List Event) :
    standing events = .unlocked ↔ .pass ∉ events ∧ 2 ≤ events.count .coin := by
  by_cases tried : .pass ∈ events
  · simp [standing, tried]
  · rcases coins : events.count .coin with _ | _ | n
    · simp [standing, tried, coins]
    · simp [standing, tried, coins]
    · simp [standing, tried, coins]

/-- Resets do not count. -/
theorem standing_filter_reset (events : List Event) :
    standing (events.filter (· ≠ .reset)) = standing events := by
  simp [standing, List.count_filter]

/-- One more event takes the turnstile to where the events with this one
lead. -/
theorem state_react (outcomes : List (Outcome State Event)) (event : Event) :
    (react (standing (sinceCleared outcomes)) event).state =
      standing (sinceCleared (outcomes ++ [react (standing (sinceCleared outcomes)) event])) := by
  rw [sinceCleared_concat, event_react, apply_ite standing]
  -- What is left depends on the state and the event alone.
  cases event with
  | coin =>
      rw [standing_coin]
      cases standing (sinceCleared outcomes) <;> rfl
  | pass =>
      rw [standing_pass]
      cases standing (sinceCleared outcomes) <;> rfl
  | reset =>
      rw [standing_reset]
      cases standing (sinceCleared outcomes) <;> rfl

/-! ## Sessions -/

/-- The turnstile is in the state that the events since the last clearing lead
to. -/
theorem state_after {controls : Controls K} {t : Turnstile K}
    (follows : t.machine.Follows controls.interpreter) {before : List (Outcome State Event)}
    (stands : t.state = standing (sinceCleared before)) (commands : List (Command K)) :
    (t.after commands).state = standing (sinceCleared (before ++ t.outcomes commands)) := by
  induction commands generalizing t before with
  | nil =>
      show t.state = standing (sinceCleared (before ++ []))
      rw [List.append_nil, stands]
  | cons command rest ih =>
      obtain ⟨stillFollows, reported, state⟩ := execute_reacts follows command
      rw [after_cons, outcomes_cons, reported, ← List.append_assoc]
      refine ih stillFollows ?_
      rw [state]
      cases command.event? with
      | none =>
          show t.state = standing (sinceCleared (before ++ []))
          rw [List.append_nil, stands]
      | some event =>
          rw [stands]
          exact state_react before event

theorem react_pass_eq_iff (state : State) :
    react state .pass = .moved .unlocked .locked0 .pass ↔ state = .unlocked := by
  cases state <;> decide

/-- Whatever a turnstile was asked since it was set up, with or without a
journal, a passage is admitted exactly if since the turnstile was last cleared,
or since the start, nobody has tried to pass and at least two coins were
inserted. Resets in this time make no difference, neither to the state nor to
what becomes of the passage. -/
theorem pass_admits_iff (controls : Controls K) (receiver : K)
    (journal : Option (Journal State Event)) (commands : List (Command K)) (time : Instant) :
    let t : Turnstile K := ⟨⟨table, controls.sink, .locked0, receiver, journal⟩⟩
    let recent := sinceCleared (t.outcomes commands)
    (t.outcomes commands).map Outcome.event = commands.filterMap Command.event? ∧
    (((t.after commands).pass time).result = some (.moved .unlocked .locked0 .pass) ↔
      .pass ∉ recent ∧ 2 ≤ recent.count .coin) ∧
    ∀ others : List (Command K),
      (sinceCleared (t.outcomes others)).filter (· ≠ .reset) = recent.filter (· ≠ .reset) →
      (t.after others).state = (t.after commands).state ∧
        ((t.after others).pass time).result = ((t.after commands).pass time).result := by
  intro t recent
  have follows : t.machine.Follows controls.interpreter :=
    follows_initial controls receiver journal
  have cleared : t.state = standing (sinceCleared []) := rfl
  have stands : ∀ commands : List (Command K),
      (t.after commands).state = standing (sinceCleared (t.outcomes commands)) :=
    state_after follows cleared
  have passes : ∀ commands : List (Command K),
      ((t.after commands).pass time).result = some (react (t.after commands).state .pass) :=
    fun commands => (step_reacts (follows_after follows commands) ⟨.pass, time⟩).1
  refine ⟨map_event_outcomes follows commands, ?_, ?_⟩
  · rw [passes, Option.some.injEq, react_pass_eq_iff, stands, standing_eq_unlocked_iff]
  · intro others same
    have sameState : (t.after others).state = (t.after commands).state := by
      rw [stands, stands, ← standing_filter_reset, same, standing_filter_reset]
    refine ⟨sameState, ?_⟩
    rw [passes, passes, sameState]

end Transducer.Turnstile
