import Transducer.Proofs.Course
import Transducer.Turnstile.Demo

/-!
# Where the coins go

No coin disappears. Every opening of the gate takes two coins and every word of
thanks takes one. A coin is forfeited by whoever tries to pass after paying only
one, a coin that comes during an alarm is refused, and one coin may still stand
to the credit of the next passage.

* `Outcome.firedFrom`, `Outcome.refused`: the outcomes that are counted.
* `Turnstile.Balanced`: the coins and the openings of some events are accounted
  for.
* `Turnstile.balanced_react`, `Turnstile.balanced_course`: they are for one
  event, and so for any number of them.
* `Turnstile.coins_accounted_for`: they are in every session, and nobody gets in
  for less than two coins.
-/

namespace Transducer

namespace Outcome

variable {S E : Type} [DecidableEq S] [DecidableEq E]

/-- A rule fired for the event in the state. -/
def firedFrom (state : S) (event : E) : Outcome S E → Bool
  | .moved source _ cause => source = state ∧ cause = event
  | .unhandled _ _ => false

/-- There was no rule for the event. -/
def refused (event : E) : Outcome S E → Bool
  | .moved _ _ _ => false
  | .unhandled _ cause => cause = event

end Outcome

namespace Turnstile

variable {K : Type}

/-- The coins that count towards the next opening. -/
def credit (state : State) : Nat :=
  if state = .locked1 then 1 else 0

/-- The openings that nobody has used yet. -/
def unused (state : State) : Nat :=
  if state = .unlocked then 1 else 0

/-- The coins and the openings are accounted for, between the one state and the
other. -/
structure Balanced (source : State) (events : List Event) (outcomes : List (Outcome State Event))
    (actions : List Action) (target : State) : Prop where
  coins : credit source + events.count .coin =
    2 * actions.count .unlock + actions.count .thankYou +
      outcomes.countP (Outcome.firedFrom .locked1 .pass) +
      outcomes.countP (Outcome.refused .coin) + credit target
  openings : unused source + actions.count .unlock =
    outcomes.countP (Outcome.firedFrom .unlocked .pass) + unused target

theorem Balanced.append {source middle target : State} {events events' : List Event}
    {outcomes outcomes' : List (Outcome State Event)} {actions actions' : List Action}
    (first : Balanced source events outcomes actions middle)
    (second : Balanced middle events' outcomes' actions' target) :
    Balanced source (events ++ events') (outcomes ++ outcomes') (actions ++ actions') target := by
  have := first.coins
  have := second.coins
  have := first.openings
  have := second.openings
  constructor
  · simp only [List.count_append, List.countP_append]
    omega
  · simp only [List.count_append, List.countP_append]
    omega

/-- No event upsets the balance. -/
theorem balanced_react (state : State) (event : Event) :
    Balanced state [event] [react state event] (performs state event)
      (react state event).state := by
  cases state <;> cases event <;> exact ⟨by decide, by decide⟩

theorem balanced_course (state : State) (events : List Event) :
    Balanced state events (course state events) (performance state events)
      (finish state events) := by
  induction events generalizing state with
  | nil => exact ⟨Nat.add_comm _ _, Nat.add_comm _ _⟩
  | cons event rest ih => exact (balanced_react state event).append (ih _)

/-- In every session of a turnstile, with or without a journal, the coins are
those that went into openings, two for each, those that were thanked for, those
that were forfeited by passing too early, those that were refused, and the one
that may be left over. The openings are those that somebody used and the one
that may be left over. So there were at least two coins for everybody who was
admitted. Openings and thanks are counted where they are called for, on the
controls, whatever the controls do. That the controls are watched meanwhile
makes no difference to the turnstile and its receiver. -/
theorem coins_accounted_for (controls : Controls K) (receiver : K)
    (journal : Option (Journal State Event)) (commands : List (Command K)) :
    let t : Turnstile K := ⟨⟨table, controls.sink, .locked0, receiver, journal⟩⟩
    let watched : Turnstile (Watched K) :=
      ⟨⟨table, controls.watched.sink, .locked0, ⟨receiver, []⟩, journal⟩⟩
    let lent := commands.map (Command.lend Watched.place)
    let calls := (watched.after lent).receiver.calls
    let coins := (commands.filterMap Command.event?).count .coin
    let unlocks := calls.count .unlock
    let thanks := calls.count .thankYou
    let forfeits := (t.outcomes commands).countP (Outcome.firedFrom .locked1 .pass)
    let refusals := (t.outcomes commands).countP (Outcome.refused .coin)
    let admissions := (t.outcomes commands).countP (Outcome.firedFrom .unlocked .pass)
    let final := (t.after commands).state
    coins = 2 * unlocks + thanks + forfeits + refusals + (if final = .locked1 then 1 else 0) ∧
    unlocks = admissions + (if final = .unlocked then 1 else 0) ∧
    2 * admissions ≤ coins ∧
    (watched.after lent).state = final ∧
    watched.outcomes lent = t.outcomes commands ∧
    (watched.after lent).receiver.receiver = (t.after commands).receiver := by
  intro t watched lent calls coins unlocks thanks forfeits refusals admissions final
  have watches : Watches controls watched t := .initial controls receiver journal
  obtain ⟨state, outcomes⟩ := session_follows_course watches.plain commands
  have called : calls = performance .locked0 (commands.filterMap Command.event?) :=
    watches.calls_after rfl rfl commands
  have balanced : Balanced .locked0 (commands.filterMap Command.event?) (t.outcomes commands)
      calls final := by
    rw [show final = _ from state, outcomes, called]
    exact balanced_course _ _
  -- Nothing is owed in the initial state.
  have coinBalance : 0 + coins =
      2 * unlocks + thanks + forfeits + refusals + (if final = .locked1 then 1 else 0) :=
    balanced.coins
  have openingBalance : 0 + unlocks = admissions + (if final = .unlocked then 1 else 0) :=
    balanced.openings
  refine ⟨?_, ?_, ?_, watches.session commands⟩ <;> omega

/-- Five coins, of which one is forfeited, one is refused and one is thanked
for. The other two pay for a passage. -/
theorem five_coins_accounted_for :
    let commands : List (Command (List String)) :=
      [.coin .epoch, .pass .epoch, .coin .epoch, .reset .epoch, .journal,
        .coin .epoch, .coin .epoch, .coin .epoch, .pass .epoch]
    let t := startRecording Demo.console []
    let watched := startRecording Demo.console.watched ⟨[], []⟩
    let calls := (watched.after (commands.map (Command.lend Watched.place))).receiver.calls
    calls = [.alarmOn, .alarmOff, .lock, .unlock, .thankYou, .lock] ∧
    5 = 2 * calls.count .unlock + calls.count .thankYou +
      (t.outcomes commands).countP (Outcome.firedFrom .locked1 .pass) +
      (t.outcomes commands).countP (Outcome.refused .coin) +
      (if (t.after commands).state = .locked1 then 1 else 0) := by
  intro commands t watched calls
  have watches : Watches Demo.console watched t := .initial Demo.console [] (some .empty)
  obtain ⟨balance, _⟩ := coins_accounted_for Demo.console [] (some .empty) commands
  exact ⟨watches.calls_after rfl rfl commands, balance⟩

end Turnstile

end Transducer
