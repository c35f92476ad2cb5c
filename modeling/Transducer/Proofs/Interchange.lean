import Transducer.Proofs.Search
import Transducer.Proofs.Walk

/-!
# Tables that stand in for each other

A machine asks its table for nothing but the rule for an event in the state it
is in. So another table serves it as well if it finds the same rules in all
states that the machine can get to.

* `Machine.Alike.step`, `Machine.Alike.feed`: machines that are alike stay so,
  as long as their tables agree on the states they get to. This holds for every
  sink, also when it aborts.
* `Table.agreeOn_reachable`: tables that have the same rules for the states
  reachable in one of them agree on these states.
* `Table.Draft.runs_alike_of_same_live_rules`: rules that leave no reachable
  state may be dropped or added.
* `Table.Draft.runs_alike_of_perm`: the order in which rules are declared makes
  no difference.
-/

namespace Transducer

variable {S E A K : Type} [DecidableEq S] [Hashable S] [DecidableEq E] [Hashable E]

/-! ## Machines that are alike -/

/-- The machines may be told apart by their tables and by the times in their
journals, and by nothing else. -/
structure Machine.Alike (m other : Machine S E A K) : Prop where
  state : other.state = m.state
  sink : other.sink = m.sink
  receiver : other.receiver = m.receiver
  journal : other.journal.map Journal.outcomes = m.journal.map Journal.outcomes

/-- The runs sent the same signals out, log lines and calls in one order, had
the same result and left machines that are alike. -/
structure Run.Alike {α : Type} (run other : Run S E A K α) : Prop where
  machine : run.machine.Alike other.machine
  signals : other.signals = run.signals
  result : other.result = run.result

/-- The tables find the same rules in the live states, and these rules lead to
live states. -/
structure Table.AgreeOn (live : S → Prop) (t other : Table S E A) : Prop where
  lookup : ∀ state, live state → ∀ event, other.lookup state event = t.lookup state event
  closed : ∀ state, live state → ∀ event r, t.lookup state event = some r → live r.target

/-- A step does not lead out of the live states. -/
theorem Table.AgreeOn.live_step [Named S] [Named E] {live : S → Prop} {m : Machine S E A K}
    {other : Table S E A} (agree : m.table.AgreeOn live other) (here : live m.state)
    (arrival : Arrival E) : live (m.step arrival).machine.state := by
  obtain ⟨r, k, found, after, _⟩ | ⟨k, _, after, _⟩ | ⟨k, after, _⟩ := m.step_cases arrival
  · rw [after]
    exact agree.closed m.state here arrival.event r found
  · rw [after]
    exact here
  · rw [after]
    exact here

namespace Machine.Alike

variable [Named S] [Named E] {m other : Machine S E A K}

theorem step (alike : m.Alike other) {arrival again : Arrival E}
    (event : again.event = arrival.event)
    (lookup : other.table.lookup m.state arrival.event = m.table.lookup m.state arrival.event) :
    (m.step arrival).Alike (other.step again) := by
  obtain ⟨state, sink, receiver, journal⟩ := alike
  cases found : m.table.lookup m.state arrival.event with
  | none =>
      rw [step_of_none found, step_of_none (by rw [state, event, lookup, found]), refuse, refuse,
        state, sink, receiver, event]
      cases m.sink.unhandled m.state arrival.event m.receiver with
      | done k => exact ⟨⟨rfl, rfl, rfl, journal⟩, rfl, rfl⟩
      | aborted k => exact ⟨⟨rfl, rfl, rfl, journal⟩, rfl, rfl⟩
  | some r =>
      rw [step_of_some found, step_of_some (by rw [state, event, lookup, found]), fire, fire,
        state, sink, receiver, event]
      rcases m.sink.performAll r.actions m.receiver with ⟨completed, k | k⟩
      · refine ⟨⟨rfl, rfl, rfl, ?_⟩, rfl, rfl⟩
        -- The two moves differ in nothing but their times.
        rw [Journal.map_outcomes_push, Journal.map_outcomes_push, journal]
        rfl
      · exact ⟨⟨rfl, rfl, rfl, journal⟩, rfl, rfl⟩

/-- The same events have the same effect on machines that are alike, whenever
they arrive. -/
theorem feed {live : S → Prop} (alike : m.Alike other)
    (agree : m.table.AgreeOn live other.table) (here : live m.state)
    {arrivals others : List (Arrival E)}
    (events : others.map Arrival.event = arrivals.map Arrival.event) :
    (m.feed arrivals).Alike (other.feed others) := by
  induction arrivals generalizing m other others with
  | nil =>
      rw [List.map_nil, List.map_eq_nil_iff] at events
      rw [events]
      exact ⟨alike, rfl, rfl⟩
  | cons arrival rest ih =>
      obtain ⟨again, othersRest, rfl, event, events⟩ := List.map_eq_cons_iff.mp events
      have first := alike.step event (agree.lookup m.state here arrival.event)
      cases completed : (m.step arrival).result with
      | none =>
          rw [feed_of_none rest completed, feed_of_none _ (first.result.trans completed)]
          exact ⟨first.machine, first.signals, rfl⟩
      | some outcome =>
          have remaining := ih first.machine
            (by rw [table_step, table_step]; exact agree) (agree.live_step here arrival) events
          rw [feed_of_some rest completed, feed_of_some _ (first.result.trans completed)]
          refine ⟨remaining.machine, ?_, ?_⟩
          · rw [first.signals, remaining.signals]
          · rw [remaining.result]

end Machine.Alike

namespace Table

variable {t other : Table S E A} {start : S}

/-! ## Tables with the same live rules -/

/-- The tables have the same rules for the states that are reachable in the
first one. -/
def SameLive (t other : Table S E A) (start : S) : Prop :=
  ∀ r : Rule S E A, r.source ∈ t.reachable start →
    (r ∈ t.rules.toList ↔ r ∈ other.rules.toList)

theorem agreeOn_reachable (coherent : t.Coherent) (otherCoherent : other.Coherent)
    (same : t.SameLive other start) : t.AgreeOn (· ∈ t.reachable start) other := by
  refine ⟨?_, ?_⟩
  · intro state live event
    ext r
    rw [otherCoherent.lookup_eq_some_iff, coherent.lookup_eq_some_iff]
    refine and_congr_left ?_
    rintro ⟨rfl, _⟩
    exact (same r live).symm
  · intro state live event r found
    obtain ⟨member, source, _⟩ := coherent.lookup_eq_some_iff.mp found
    rw [mem_reachable] at live ⊢
    exact live.tail ⟨r, member, source, rfl⟩

theorem edge_iff_of_sameLive (same : t.SameLive other start) {source : S}
    (live : source ∈ t.reachable start) (target : S) :
    t.Edge source target ↔ other.Edge source target := by
  constructor
  · rintro ⟨r, member, rfl, rfl⟩
    exact ⟨r, (same r live).mp member, rfl, rfl⟩
  · rintro ⟨r, member, rfl, rfl⟩
    exact ⟨r, (same r live).mpr member, rfl, rfl⟩

/-- The search does not tell the tables apart either, although only what the
first one reaches is known of them. -/
theorem mem_reachable_iff_of_sameLive (same : t.SameLive other start) (state : S) :
    state ∈ t.reachable start ↔ state ∈ other.reachable start := by
  rw [mem_reachable, mem_reachable]
  constructor
  · intro path
    induction path with
    | refl => exact .refl
    | tail before edge ih =>
        have live := (mem_reachable t start _).mpr before
        exact ih.tail ((edge_iff_of_sameLive same live _).mp edge)
  · intro path
    induction path with
    | refl => exact .refl
    | tail _ edge ih =>
        -- That the last edge starts at a live state is what the induction says.
        have live := (mem_reachable t start _).mpr ih
        exact ih.tail ((edge_iff_of_sameLive same live _).mpr edge)

theorem perm_reachable_of_sameLive (same : t.SameLive other start) :
    (other.reachable start).Perm (t.reachable start) := by
  rw [List.perm_ext_iff_of_nodup (nodup_reachable other start) (nodup_reachable t start)]
  exact fun state => (mem_reachable_iff_of_sameLive same state).symm

variable [Named S] [Named E]

/-- Machines that start alike over such tables run alike. -/
theorem Coherent.feed_alike (coherent : t.Coherent) (otherCoherent : other.Coherent)
    (same : t.SameLive other start) (sink : Sink S E A K) (receiver : K)
    (journal : Option (Journal S E)) {arrivals others : List (Arrival E)}
    (events : others.map Arrival.event = arrivals.map Arrival.event) :
    ((Machine.mk t sink start receiver journal).feed arrivals).Alike
      ((Machine.mk other sink start receiver journal).feed others) := by
  have alike : (Machine.mk t sink start receiver journal).Alike
      (Machine.mk other sink start receiver journal) :=
    ⟨rfl, rfl, rfl, rfl⟩
  have here : start ∈ t.reachable start := (mem_reachable t start start).mpr .refl
  exact alike.feed (agreeOn_reachable coherent otherCoherent same) here events

namespace Draft

/-- Two tables whose rules for the states reachable from `start` are the same
may be used in place of each other from there. Every run over the one is like
the run of the same events over the other, for every sink and with or without a
journal, and both tables reach the same states. -/
theorem runs_alike_of_same_live_rules (draft draft' : Draft S E A) (t t' : Table S E A)
    (built : draft.build = .ok t) (built' : draft'.build = .ok t') (start : S)
    (same : ∀ r : Rule S E A, r.source ∈ t.reachable start →
      (r ∈ t.rules.toList ↔ r ∈ t'.rules.toList)) :
    (∀ (sink : Sink S E A K) (receiver : K) (journal : Option (Journal S E))
      (arrivals others : List (Arrival E)),
      others.map Arrival.event = arrivals.map Arrival.event →
      ((Machine.mk t sink start receiver journal).feed arrivals).Alike
        ((Machine.mk t' sink start receiver journal).feed others)) ∧
    ∀ state, state ∈ t.reachable start ↔ state ∈ t'.reachable start := by
  refine ⟨?_, mem_reachable_iff_of_sameLive same⟩
  intro sink receiver journal arrivals others events
  exact (coherent_of_build built).feed_alike (coherent_of_build built') same sink receiver journal
    events

/-- A turnstile that never sounds its alarm. The rule for a reset is there all
the same. -/
def quietRules : List (Rule Turnstile.State Turnstile.Event Turnstile.Action) :=
  Turnstile.rules.filter (·.target ≠ .alarming)

/-- The rule for a reset makes no difference to a turnstile that never sounds
its alarm. -/
theorem runs_alike_without_reset :
    ∃ t t', (empty.addAll quietRules).build = .ok t ∧
      (empty.addAll (quietRules.filter (·.source ≠ .alarming))).build = .ok t' ∧
      t.size = 5 ∧ t'.size = 4 ∧
      ∀ arrivals,
        ((Machine.startRecording t (.total (fun _ n => n + 1) (fun _ _ n => n)) 0
          .locked0).feed arrivals).Alike
        ((Machine.startRecording t' (.total (fun _ n => n + 1) (fun _ _ n => n)) 0
          .locked0).feed arrivals) := by
  obtain ⟨t, built⟩ := (exists_build_iff (empty.addAll quietRules)).mpr ⟨by decide, by decide⟩
  obtain ⟨t', built'⟩ := (exists_build_iff
    (empty.addAll (quietRules.filter (·.source ≠ .alarming)))).mpr ⟨by decide, by decide⟩
  have rules : t.rules.toList = quietRules := by
    rw [rules_of_build built]
    rfl
  have rules' : t'.rules.toList = quietRules.filter (·.source ≠ .alarming) := by
    rw [rules_of_build built']
    rfl
  -- No rule leads to the alarm, so the search does not find it.
  have silent : ∀ state ∈ t.reachable .locked0, state ≠ .alarming := by
    intro state found
    rcases ((mem_reachable t .locked0 state).mp found).cases_tail with rfl | ⟨_, _, edge⟩
    · decide
    · obtain ⟨r, member, _, rfl⟩ := edge
      rw [rules, quietRules, List.mem_filter, decide_eq_true_iff] at member
      exact member.2
  have same : ∀ r, r.source ∈ t.reachable .locked0 →
      (r ∈ t.rules.toList ↔ r ∈ t'.rules.toList) := by
    intro r live
    rw [rules, rules', List.mem_filter, decide_eq_true_iff]
    exact ⟨fun member => ⟨member, silent r.source live⟩, And.left⟩
  obtain ⟨alike, _⟩ :=
    runs_alike_of_same_live_rules (K := Nat) _ _ t t' built built' .locked0 same
  refine ⟨t, t', built, built', ?_, ?_, fun arrivals => alike _ _ _ arrivals arrivals rfl⟩
  · rw [size, rules_of_build built]
    rfl
  · rw [size, rules_of_build built']
    rfl

/-! ## The order of declaration -/

/-- The order in which rules are declared does not decide whether there is a
table. If there is one, the order makes no difference to lookups and runs, and
at most the order of the answers differs when the table is asked for the events
enabled in a state or for the states reachable from one. -/
theorem runs_alike_of_perm (draft draft' : Draft S E A)
    (perm : draft.rules.toList.Perm draft'.rules.toList) :
    ((∃ t, draft.build = .ok t) ↔ ∃ t', draft'.build = .ok t') ∧
    ∀ t t', draft.build = .ok t → draft'.build = .ok t' →
      (∀ state event, t.lookup state event = t'.lookup state event) ∧
      (∀ (start : S) (sink : Sink S E A K) (receiver : K) (journal : Option (Journal S E))
        (arrivals others : List (Arrival E)),
        others.map Arrival.event = arrivals.map Arrival.event →
        ((Machine.mk t sink start receiver journal).feed arrivals).Alike
          ((Machine.mk t' sink start receiver journal).feed others)) ∧
      ∀ state, (t.enabled state).Perm (t'.enabled state) ∧
        (t.reachable state).Perm (t'.reachable state) := by
  refine ⟨?_, ?_⟩
  · rw [exists_build_iff, exists_build_iff, (perm.map Rule.key).nodup_iff, ne_eq, ne_eq,
      ← List.length_eq_zero_iff, perm.length_eq, List.length_eq_zero_iff]
  · intro t t' built built'
    have perm : t.rules.toList.Perm t'.rules.toList := by
      rw [rules_of_build built, rules_of_build built']
      exact perm
    have coherent := coherent_of_build built
    have coherent' := coherent_of_build built'
    have same (start : S) : t.SameLive t' start := fun _ _ => perm.mem_iff
    refine ⟨?_, ?_, ?_⟩
    · intro state event
      have here : state ∈ t.reachable state := (mem_reachable t state state).mpr .refl
      exact ((agreeOn_reachable coherent coherent' (same state)).lookup state here event).symm
    · intro start sink receiver journal arrivals others events
      exact coherent.feed_alike coherent' (same start) sink receiver journal events
    · intro state
      refine ⟨?_, (perm_reachable_of_sameLive (same state)).symm⟩
      exact (perm.filter _).map _

/-- The rules of the turnstile, last one first. -/
theorem runs_alike_of_reversed_turnstile :
    ∃ t, (empty.addAll Turnstile.rules.reverse).build = .ok t ∧
      (∀ state event, Turnstile.table.lookup state event = t.lookup state event) ∧
      (t.enabled .locked0 = [.pass, .coin] ∧ Turnstile.table.enabled .locked0 = [.coin, .pass]) ∧
      (Turnstile.table.reachable .locked0).Perm (t.reachable .locked0) := by
  have perm : (empty.addAll Turnstile.rules).rules.toList.Perm
      (empty.addAll Turnstile.rules.reverse).rules.toList :=
    Turnstile.rules.reverse_perm.symm
  obtain ⟨builds, alike⟩ := runs_alike_of_perm (K := Nat) _ _ perm
  obtain ⟨t, built⟩ := builds.mp ⟨_, Turnstile.build_rules⟩
  obtain ⟨lookup, _, perms⟩ := alike _ t Turnstile.build_rules built
  refine ⟨t, built, lookup, ⟨?_, rfl⟩, (perms .locked0).2⟩
  rw [enabled, leaving, rules_of_build built]
  rfl

end Draft

end Table

end Transducer
