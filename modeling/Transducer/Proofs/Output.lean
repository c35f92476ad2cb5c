import Mathlib.Computability.RegularExpressions
import Transducer.Proofs.Course
import Transducer.Turnstile.Demo

/-!
# What a turnstile puts out

The operations that a turnstile calls on its controls are the words of a regular
expression, where an operation is written as the action of the same name. They
come in rounds, and each round ends with the gate locked: either the gate is
unlocked and thanks are said for further coins, or an alarm is turned on and
off. Only the last round may be unfinished.

* `Turnstile.rounds`, `Turnstile.outputs`: the regular expressions.
* `Turnstile.Phase`: how far the last round has come, which the last action
  tells.
* `Turnstile.performance_mem`: what a turnstile has put out always fits its
  state.
* `Turnstile.Leads`: events that make a turnstile put out a given word.
* `Turnstile.exists_leads_of_mem_outputs`: there are such events for every word
  of the expression.
* `Turnstile.calls_mem_iff`: the calls in a session tell the phase that it ends
  in.
* `Turnstile.calls_are_outputs`: sessions put out the words of the expression
  and no other.
-/

namespace Transducer.Turnstile

open RegularExpression (char star)

variable {K : Type}

/-- The gate is opened, and thanks are said for further coins. -/
def opening : RegularExpression Action :=
  char .unlock * star (char .thankYou)

/-- A round that was finished. -/
def round : RegularExpression Action :=
  opening * char .lock + char .alarmOn * char .alarmOff * char .lock

/-- Any number of rounds that were finished. -/
def rounds : RegularExpression Action :=
  star round

/-- Rounds that were finished, and then maybe the beginning of another one. -/
def outputs : RegularExpression Action :=
  rounds * (1 + opening + char .alarmOn)

/-! ## Phases of a round -/

/-- Where a turnstile is in a round. -/
inductive Phase where
  /-- Between two rounds. -/
  | shut
  /-- In a round that will let somebody pass. -/
  | opened
  /-- In a round that somebody spoiled. -/
  | alarmed
deriving DecidableEq

def State.phase : State → Phase
  | .locked0 | .locked1 => .shut
  | .unlocked => .opened
  | .alarming => .alarmed

/-- What was put out in a round that has come to the given phase. -/
def Phase.begun : Phase → RegularExpression Action
  | .shut => 1
  | .opened => opening
  | .alarmed => char .alarmOn

/-- The phase that an action leads to, where no action leads to none. -/
def Phase.after : Option Action → Phase
  | some .unlock | some .thankYou => .opened
  | some .alarmOn => .alarmed
  | some .lock | some .alarmOff | none => .shut

theorem mem_outputs_iff (word : List Action) :
    word ∈ outputs.matches' ↔ ∃ phase : Phase, word ∈ (rounds * phase.begun).matches' := by
  constructor
  · rintro ⟨done, finished, begun, (empty | opened) | alarmed, rfl⟩
    · exact ⟨.shut, done, finished, begun, empty, rfl⟩
    · exact ⟨.opened, done, finished, begun, opened, rfl⟩
    · exact ⟨.alarmed, done, finished, begun, alarmed, rfl⟩
  · rintro ⟨phase, done, finished, begun, beginning, rfl⟩
    refine ⟨done, finished, begun, ?_, rfl⟩
    cases phase with
    | shut => exact .inl (.inl beginning)
    | opened => exact .inl (.inr beginning)
    | alarmed => exact .inr beginning

/-! ## Every session puts out a word of the expression -/

variable {phase next : Phase} {suffix word : List Action}

theorem append_mem_star {expression : RegularExpression Action} {first more : List Action}
    (repeated : first ∈ expression.star.matches') (once : more ∈ expression.matches') :
    first ++ more ∈ expression.star.matches' := by
  obtain ⟨words, rfl, all⟩ := Language.mem_kstar.mp repeated
  refine Language.mem_kstar.mpr ⟨words ++ [more], ?_, ?_⟩
  · rw [List.flatten_concat]
  · intro part member
    rcases List.mem_append.mp member with old | new
    · exact all part old
    · rw [List.mem_singleton.mp new]
      exact once

/-- The round that was begun goes on. -/
theorem append_mem_begun
    (goesOn : ∀ begun ∈ phase.begun.matches', begun ++ suffix ∈ next.begun.matches')
    (fits : word ∈ (rounds * phase.begun).matches') :
    word ++ suffix ∈ (rounds * next.begun).matches' := by
  obtain ⟨done, finished, begun, beginning, rfl⟩ := fits
  exact ⟨done, finished, begun ++ suffix, goesOn begun beginning, (List.append_assoc ..).symm⟩

/-- The round that was begun is finished, and no other is begun. -/
theorem append_mem_rounds
    (ends : ∀ begun ∈ phase.begun.matches', begun ++ suffix ∈ round.matches')
    (fits : word ∈ (rounds * phase.begun).matches') :
    word ++ suffix ∈ (rounds * Phase.shut.begun).matches' := by
  obtain ⟨done, finished, begun, beginning, rfl⟩ := fits
  have oneMore := append_mem_star finished (ends begun beginning)
  refine ⟨done ++ (begun ++ suffix), oneMore, [], rfl, ?_⟩
  show done ++ (begun ++ suffix) ++ [] = done ++ begun ++ suffix
  rw [List.append_nil, List.append_assoc]

/-- What one event adds to a word that fits the state gives a word that fits the
next state. -/
theorem append_performs_mem (state : State) (event : Event)
    (fits : word ∈ (rounds * state.phase.begun).matches') :
    word ++ performs state event ∈ (rounds * (react state event).state.phase.begun).matches' := by
  have silent : word ++ [] ∈ (rounds * state.phase.begun).matches' := by
    rw [List.append_nil]
    exact fits
  cases state with
  | locked0 =>
      cases event with
      | coin => exact silent
      | pass =>
          refine append_mem_begun ?_ fits
          rintro _ rfl
          rfl
      | reset => exact silent
  | locked1 =>
      cases event with
      | coin =>
          refine append_mem_begun ?_ fits
          rintro _ rfl
          exact ⟨[.unlock], rfl, [], Language.nil_mem_kstar _, rfl⟩
      | pass =>
          refine append_mem_begun ?_ fits
          rintro _ rfl
          rfl
      | reset => exact silent
  | unlocked =>
      cases event with
      | coin =>
          refine append_mem_begun ?_ fits
          rintro _ ⟨unlock, unlocked, thanks, thanked, rfl⟩
          refine ⟨unlock, unlocked, thanks ++ [.thankYou], ?_, (List.append_assoc ..).symm⟩
          exact append_mem_star thanked rfl
      | pass =>
          refine append_mem_rounds ?_ fits
          intro begun opened
          exact .inl ⟨begun, opened, [.lock], rfl, rfl⟩
      | reset => exact silent
  | alarming =>
      cases event with
      | coin => exact silent
      | pass => exact silent
      | reset =>
          refine append_mem_rounds ?_ fits
          rintro _ rfl
          exact .inr ⟨[.alarmOn, .alarmOff], ⟨[.alarmOn], rfl, [.alarmOff], rfl, rfl⟩, [.lock],
            rfl, rfl⟩

theorem append_performance_mem (word : List Action) (state : State) (events : List Event)
    (fits : word ∈ (rounds * state.phase.begun).matches') :
    word ++ performance state events ∈
      (rounds * (finish state events).phase.begun).matches' := by
  induction events generalizing state word with
  | nil =>
      rw [performance, List.append_nil]
      exact fits
  | cons event rest ih =>
      rw [performance, ← List.append_assoc, finish_cons]
      exact ih _ _ (append_performs_mem state event fits)

/-- What a turnstile puts out from its initial state fits the state it ends
in. -/
theorem performance_mem (events : List Event) :
    performance .locked0 events ∈
      (rounds * (finish .locked0 events).phase.begun).matches' :=
  append_performance_mem [] .locked0 events ⟨[], Language.nil_mem_kstar _, [], rfl, rfl⟩

/-! ## The last action tells the phase -/

/-- Rounds that were finished end with the gate locked. -/
theorem getLast?_of_mem_rounds (finished : word ∈ rounds.matches') {action : Action}
    (last : word.getLast? = some action) : action = .lock := by
  obtain ⟨words, rfl, all⟩ := Language.mem_kstar.mp finished
  induction words using List.reverseRecOn with
  | nil => contradiction
  | append_singleton words final _ =>
      have ends : final.getLast? = some .lock := by
        rcases all final (by simp) with ⟨begun, _, _, rfl, rfl⟩ | ⟨begun, _, _, rfl, rfl⟩
        · exact List.getLast?_concat
        · exact List.getLast?_concat
      rw [List.flatten_concat, List.getLast?_append, ends] at last
      exact (Option.some.inj last).symm

/-- The last action of a word tells how far its last round has come. -/
theorem after_getLast? (fits : word ∈ (rounds * phase.begun).matches') :
    Phase.after word.getLast? = phase := by
  obtain ⟨done, finished, begun, beginning, rfl⟩ := fits
  show Phase.after (done ++ begun).getLast? = phase
  cases phase with
  | shut =>
      cases beginning
      rw [List.append_nil]
      cases last : done.getLast? with
      | none => rfl
      | some action =>
          rw [getLast?_of_mem_rounds finished last]
          rfl
  | opened =>
      obtain ⟨_, rfl, thanks, thanked, rfl⟩ := beginning
      show Phase.after (done ++ ([Action.unlock] ++ thanks)).getLast? = .opened
      obtain ⟨words, rfl, all⟩ := Language.mem_kstar.mp thanked
      induction words using List.reverseRecOn with
      | nil =>
          rw [List.getLast?_append]
          rfl
      | append_singleton words final _ =>
          obtain rfl : final = [.thankYou] := all final (by simp)
          rw [List.flatten_concat, List.getLast?_append, List.getLast?_append,
            List.getLast?_append]
          rfl
  | alarmed =>
      cases beginning
      rw [List.getLast?_concat]
      rfl

/-! ## Every word of the expression is put out by some session -/

/-- The events take a turnstile from the one state to the other, and it puts out
the word. -/
structure Leads (source : State) (events : List Event) (word : List Action) (target : State) :
    Prop where
  state : finish source events = target
  output : performance source events = word

namespace Leads

variable {source middle target : State} {events others : List Event} {word more : List Action}

theorem trans (first : Leads source events word middle) (second : Leads middle others more target) :
    Leads source (events ++ others) (word ++ more) target := by
  refine ⟨?_, ?_⟩
  · rw [finish_append, first.state, second.state]
  · rw [performance_append, first.state, first.output, second.output]

end Leads

/-- What can be put out once without leaving a state can be put out any number
of times. -/
theorem exists_leads_of_mem_star {expression : RegularExpression Action} {state : State}
    (once : ∀ word ∈ expression.matches', ∃ events, Leads state events word state)
    (repeated : word ∈ expression.star.matches') : ∃ events, Leads state events word state := by
  obtain ⟨words, rfl, all⟩ := Language.mem_kstar.mp repeated
  induction words with
  | nil => exact ⟨[], rfl, rfl⟩
  | cons first rest ih =>
      obtain ⟨events, leads⟩ := once first (all first List.mem_cons_self)
      have allRest : ∀ part ∈ rest, part ∈ expression.matches' :=
        fun part member => all part (List.mem_cons_of_mem _ member)
      obtain ⟨others, leadsOn⟩ := ih allRest (Language.join_mem_kstar allRest)
      exact ⟨events ++ others, leads.trans leadsOn⟩

/-- Two coins open the gate, and every further coin is thanked for. -/
theorem exists_leads_of_mem_opened (opened : word ∈ Phase.opened.begun.matches') :
    ∃ events, Leads .locked0 events word .unlocked := by
  obtain ⟨_, rfl, thanks, thanked, rfl⟩ := opened
  obtain ⟨events, leads⟩ : ∃ events, Leads .unlocked events thanks .unlocked := by
    refine exists_leads_of_mem_star ?_ thanked
    rintro _ rfl
    exact ⟨[.coin], rfl, rfl⟩
  have coins : Leads .locked0 [.coin, .coin] [.unlock] .unlocked := ⟨rfl, rfl⟩
  exact ⟨[.coin, .coin] ++ events, coins.trans leads⟩

theorem exists_leads_of_mem_round (once : word ∈ round.matches') :
    ∃ events, Leads .locked0 events word .locked0 := by
  rcases once with ⟨_, opened, _, rfl, rfl⟩ | ⟨_, ⟨_, rfl, _, rfl, rfl⟩, _, rfl, rfl⟩
  · obtain ⟨events, leads⟩ := exists_leads_of_mem_opened opened
    have passage : Leads .unlocked [.pass] [.lock] .locked0 := ⟨rfl, rfl⟩
    exact ⟨events ++ [.pass], leads.trans passage⟩
  · exact ⟨[.pass, .reset], rfl, rfl⟩

theorem exists_leads_of_mem_outputs (member : word ∈ outputs.matches') :
    ∃ events target, Leads .locked0 events word target := by
  obtain ⟨phase, done, finished, begun, beginning, rfl⟩ := (mem_outputs_iff word).mp member
  obtain ⟨events, leads⟩ := exists_leads_of_mem_star (fun _ => exists_leads_of_mem_round) finished
  have goesOn : ∃ events target, Leads .locked0 events begun target := by
    cases phase with
    | shut =>
        cases beginning
        exact ⟨[], .locked0, rfl, rfl⟩
    | opened =>
        obtain ⟨events, leads⟩ := exists_leads_of_mem_opened beginning
        exact ⟨events, .unlocked, leads⟩
    | alarmed =>
        cases beginning
        exact ⟨[.pass], .alarming, rfl, rfl⟩
  obtain ⟨others, target, leadsOn⟩ := goesOn
  exact ⟨events ++ others, target, leads.trans leadsOn⟩

/-! ## Sessions -/

variable {controls : Controls K} {t : Turnstile K} {watched : Turnstile (Watched K)}

/-- What was put out in a session tells the phase that the turnstile is in. -/
theorem calls_mem_iff (watches : Watches controls watched t) (initial : t.state = .locked0)
    (blank : watched.receiver.calls = []) (commands : List (Command K)) (phase : Phase) :
    (watched.after (commands.map (Command.lend Watched.place))).receiver.calls ∈
        (rounds * phase.begun).matches' ↔
      (t.after commands).state.phase = phase := by
  have fits : performance .locked0 (commands.filterMap Command.event?) ∈
      (rounds * (t.after commands).state.phase.begun).matches' := by
    rw [(session_follows_course watches.plain commands).1, initial]
    exact performance_mem _
  rw [watches.calls_after initial blank]
  -- A word fits one phase only, so it fits the phase of the state and no other.
  constructor
  · intro fitsToo
    rw [← after_getLast? fits, after_getLast? fitsToo]
  · rintro rfl
    exact fits

/-- A word of the expression is put out when the events that lead to it
happen. -/
theorem exists_calls_eq (watches : Watches controls watched t) (initial : t.state = .locked0)
    (blank : watched.receiver.calls = []) (member : word ∈ outputs.matches') (time : Instant) :
    ∃ events : List Event,
      let commands : List (Command K) := events.map fun event => .step ⟨event, time⟩
      (watched.after (commands.map (Command.lend Watched.place))).receiver.calls = word := by
  obtain ⟨events, target, leads⟩ := exists_leads_of_mem_outputs member
  have brought : (events.map fun event => (Command.step ⟨event, time⟩ : Command K)).filterMap
      Command.event? = events := by
    rw [List.filterMap_map]
    exact List.filterMap_some
  refine ⟨events, ?_⟩
  intro commands
  rw [watches.calls_after initial blank, brought]
  exact leads.output

/-- The operations that a turnstile calls on its controls in a session, with or
without a journal, are a word of `outputs`, whatever the controls do. For each
such word there is a session, with nothing but events, in which they are this
word. If the last round of the word was begun by opening the gate, and only
then, the turnstile is unlocked. If it was begun by an alarm, and only then, it
is alarming. And if all rounds were finished, and only then, it is locked, with
or without a coin. That the controls are watched meanwhile makes no difference
to the turnstile and its receiver. -/
theorem calls_are_outputs (controls : Controls K) (receiver : K)
    (journal : Option (Journal State Event)) :
    let t : Turnstile K := ⟨⟨table, controls.sink, .locked0, receiver, journal⟩⟩
    let watched : Turnstile (Watched K) :=
      ⟨⟨table, controls.watched.sink, .locked0, ⟨receiver, []⟩, journal⟩⟩
    let lent (commands : List (Command K)) := commands.map (Command.lend Watched.place)
    let calls (commands : List (Command K)) := (watched.after (lent commands)).receiver.calls
    (∀ commands, calls commands ∈ outputs.matches') ∧
    (∀ word ∈ outputs.matches', ∀ time, ∃ events : List Event,
      calls (events.map fun event => .step ⟨event, time⟩) = word) ∧
    (∀ commands,
      (calls commands ∈ (rounds * opening).matches' ↔ (t.after commands).state = .unlocked) ∧
      (calls commands ∈ (rounds * char Action.alarmOn).matches' ↔
        (t.after commands).state = .alarming) ∧
      (calls commands ∈ rounds.matches' ↔
        (t.after commands).state = .locked0 ∨ (t.after commands).state = .locked1)) ∧
    ∀ commands,
      (watched.after (lent commands)).state = (t.after commands).state ∧
      watched.outcomes (lent commands) = t.outcomes commands ∧
      (watched.after (lent commands)).receiver.receiver = (t.after commands).receiver := by
  intro t watched lent calls
  have watches : Watches controls watched t := .initial controls receiver journal
  have tells (commands : List (Command K)) (phase : Phase) :=
    calls_mem_iff watches rfl rfl commands phase
  refine ⟨?_, ?_, ?_, watches.session⟩
  · intro commands
    exact (mem_outputs_iff _).mpr ⟨_, (tells commands _).mpr rfl⟩
  · intro word member time
    exact exists_calls_eq watches rfl rfl member time
  · intro commands
    have complete : (rounds * Phase.shut.begun).matches' = rounds.matches' :=
      mul_one rounds.matches'
    rw [← complete]
    refine ⟨(tells commands .opened).trans ?_, (tells commands .alarmed).trans ?_,
      (tells commands .shut).trans ?_⟩
    · cases (t.after commands).state <;> decide
    · cases (t.after commands).state <;> decide
    · cases (t.after commands).state <;> decide

/-- A passage with one coin too many, and then an alarm. -/
theorem passage_then_alarm_is_output :
    let watched := start Demo.console.watched ⟨[], []⟩
    let calls (commands : List (Command (List String))) :=
      (watched.after (commands.map (Command.lend Watched.place))).receiver.calls
    [.unlock, .thankYou, .lock, .alarmOn] ∈ outputs.matches' ∧
    (∃ events : List Event, calls (events.map fun event => .step ⟨event, .epoch⟩) =
      [.unlock, .thankYou, .lock, .alarmOn]) ∧
    calls [.coin .epoch, .coin .epoch, .journal, .coin .epoch, .pass .epoch, .pass .epoch] =
      [.unlock, .thankYou, .lock, .alarmOn] := by
  intro watched calls
  have watches : Watches Demo.console watched (start Demo.console []) :=
    .initial Demo.console [] none
  have member : [.unlock, .thankYou, .lock, .alarmOn] ∈ outputs.matches' :=
    (RegularExpression.rmatch_iff_matches' outputs _).mp (by decide)
  obtain ⟨_, produced, _⟩ := calls_are_outputs Demo.console [] none
  exact ⟨member, produced _ member .epoch, watches.calls_after rfl rfl _⟩

end Transducer.Turnstile
