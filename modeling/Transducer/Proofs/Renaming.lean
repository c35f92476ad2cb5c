import Transducer.Proofs.Refusal
import Transducer.Proofs.Walk
import Transducer.Renaming
import Transducer.Sink.Recorder

/-!
# Names do not matter

Symbols are compared by identity everywhere: in the check for repeated keys, in
the index, in the search and in a running machine. So other symbols may take
their place, and all answers are the same but for the renaming, in the same
order.

* `Renaming.repeatsAt_map_iff`: the renamed rules repeat a key where the rules
  do.
* `Renaming.Tables`: the rules of a table are the renamed rules of another one,
  with what follows for lookups, enabled events and successors.
* `Renaming.Searches.run`: two searches over such tables go hand in hand.
* `Renaming.mirrors_recorders`: recorders that are called in the same way but
  for the renaming keep the renamed calls.
* `Renaming.Machines.step`, `Renaming.Machines.feed`: so do two machines, for
  all sinks that mirror each other, also when they abort.
* `Table.Draft.renamed_behaves_alike`: all of this for a draft and the renamed
  draft.
-/

namespace Transducer

variable {S E A S' E' A' K L : Type}

namespace Renaming

variable (ρ : Renaming S E A S' E' A')

/-! ## Rules and drafts -/

theorem key_rule_eq_iff (r other : Rule S E A) :
    (ρ.rule r).key = (ρ.rule other).key ↔ r.key = other.key := by
  simp only [Rule.key, rule, Rule.map, Prod.mk.injEq, ρ.state_injective.eq_iff,
    ρ.event_injective.eq_iff]

theorem applies_rule [DecidableEq S] [DecidableEq E] [DecidableEq S'] [DecidableEq E']
    (r : Rule S E A) (state : S) (event : E) :
    (ρ.rule r).applies (ρ.state state) (ρ.event event) = r.applies state event := by
  simp only [Rule.applies, rule, Rule.map, ρ.state_injective.eq_iff, ρ.event_injective.eq_iff]

theorem toList_rules_draft (d : Table.Draft S E A) :
    (ρ.draft d).rules.toList = d.rules.toList.map ρ.rule :=
  Array.toList_map

theorem repeatsAt_map_iff (rules : List (Rule S E A)) (i : Nat) :
    Table.Draft.RepeatsAt (rules.map ρ.rule) i ↔ Table.Draft.RepeatsAt rules i := by
  constructor
  · rintro ⟨_, here, j, earlierThan, _, there, key⟩
    rw [List.getElem?_map, Option.map_eq_some_iff] at here there
    obtain ⟨r, here, rfl⟩ := here
    obtain ⟨earlier, there, rfl⟩ := there
    exact ⟨r, here, j, earlierThan, earlier, there, (ρ.key_rule_eq_iff earlier r).mp key⟩
  · rintro ⟨r, here, j, earlierThan, earlier, there, key⟩
    refine ⟨ρ.rule r, ?_, j, earlierThan, ρ.rule earlier, ?_, (ρ.key_rule_eq_iff earlier r).mpr key⟩
    · rw [List.getElem?_map, here, Option.map_some]
    · rw [List.getElem?_map, there, Option.map_some]

theorem nodup_keys_iff (rules : List (Rule S E A)) :
    ((rules.map ρ.rule).map Rule.key).Nodup ↔ (rules.map Rule.key).Nodup := by
  simp only [List.Nodup, List.pairwise_map, ne_eq, ρ.key_rule_eq_iff]

variable [DecidableEq S] [Hashable S] [DecidableEq S'] [Hashable S']

/-! ## Searches -/

/-- The second search has seen the renamed states, in the order in which the
first one has seen the states. -/
structure Searches (f : Table.Search S) (f' : Table.Search S') : Prop where
  seen : ∀ state, ρ.state state ∈ f'.seen ↔ state ∈ f.seen
  order : f'.order.toList = f.order.toList.map ρ.state
  queue : f'.queue = f.queue.map ρ.state

namespace Searches

variable {ρ} {f : Table.Search S} {f' : Table.Search S'}

theorem start (state : S) :
    ρ.Searches (Table.Search.start state) (Table.Search.start (ρ.state state)) where
  seen other := by simp [Table.Search.start, ρ.state_injective.eq_iff]
  order := rfl
  queue := rfl

theorem visit (searches : ρ.Searches f f') (state : S) :
    ρ.Searches (f.visit state) (f'.visit (ρ.state state)) := by
  unfold Table.Search.visit
  by_cases found : state ∈ f.seen
  · rw [if_pos found, if_pos ((searches.seen state).mpr found)]
    exact searches
  · rw [if_neg found, if_neg (mt (searches.seen state).mp found)]
    refine ⟨?_, ?_, ?_⟩
    · intro other
      rw [Std.HashSet.mem_insert, Std.HashSet.mem_insert, searches.seen, beq_iff_eq, beq_iff_eq,
        ρ.state_injective.eq_iff]
    · rw [Array.toList_push, Array.toList_push, searches.order, List.map_append]
      rfl
    · rw [searches.queue, List.map_append]
      rfl

theorem foldl_visit (searches : ρ.Searches f f') (states : List S) :
    ρ.Searches (states.foldl .visit f) ((states.map ρ.state).foldl .visit f') := by
  induction states generalizing f f' with
  | nil => exact searches
  | cons state rest ih => exact ih (searches.visit state)

end Searches

variable [DecidableEq E] [Hashable E] [DecidableEq E'] [Hashable E']

/-! ## Tables -/

/-- There is a table for the one draft exactly if there is one for the other. -/
theorem exists_build_draft_iff [Named S] [Named E] [Named S'] [Named E']
    (d : Table.Draft S E A) :
    (∃ t, d.build = .ok t) ↔ ∃ t', (ρ.draft d).build = .ok t' := by
  rw [Table.Draft.exists_build_iff, Table.Draft.exists_build_iff, toList_rules_draft,
    nodup_keys_iff, ne_eq, ne_eq, List.map_eq_nil_iff]

/-- The rule that is the reason why there is no table stands at the same
position in both drafts. -/
theorem refusedAt_draft_iff [Named S] [Named E] [Named S'] [Named E']
    (d : Table.Draft S E A) (i : Nat) : d.RefusedAt i ↔ (ρ.draft d).RefusedAt i := by
  rw [Table.Draft.refusedAt_iff, Table.Draft.refusedAt_iff, toList_rules_draft]
  simp only [repeatsAt_map_iff]

/-- The rules of the second table are those of the first one, renamed. -/
structure Tables (t : Table S E A) (t' : Table S' E' A') : Prop where
  coherent : t.Coherent
  coherent' : t'.Coherent
  rules : t'.rules.toList = t.rules.toList.map ρ.rule

namespace Tables

variable {ρ} {t : Table S E A} {t' : Table S' E' A'}

theorem lookup (tables : ρ.Tables t t') (state : S) (event : E) :
    t'.lookup (ρ.state state) (ρ.event event) = (t.lookup state event).map ρ.rule := by
  rw [tables.coherent'.lookup_eq_find?, tables.coherent.lookup_eq_find?, tables.rules,
    List.find?_map]
  congr 2
  funext r
  exact ρ.applies_rule r state event

theorem leaving (tables : ρ.Tables t t') (state : S) :
    t'.leaving (ρ.state state) = (t.leaving state).map ρ.rule := by
  rw [Table.leaving, Table.leaving, tables.rules, List.filter_map]
  congr 2
  funext r
  exact decide_eq_decide.mpr ρ.state_injective.eq_iff

theorem enabled (tables : ρ.Tables t t') (state : S) :
    t'.enabled (ρ.state state) = (t.enabled state).map ρ.event := by
  rw [Table.enabled, Table.enabled, tables.leaving, List.map_map, List.map_map]
  rfl

theorem successors (tables : ρ.Tables t t') (state : S) :
    t'.successors (ρ.state state) = (t.successors state).map ρ.state := by
  rw [Table.successors, Table.successors, tables.leaving, List.map_map, List.map_map]
  rfl

end Tables

/-! ## The search over a table -/

namespace Searches

variable {ρ} {f : Table.Search S} {f' : Table.Search S'}
variable {t : Table S E A} {t' : Table S' E' A'}

theorem step (tables : ρ.Tables t t') (searches : ρ.Searches f f') :
    ρ.Searches (f.step t) (f'.step t') := by
  unfold Table.Search.step
  rw [searches.queue]
  cases queue : f.queue with
  | nil => exact searches
  | cons state rest =>
      have taken : ρ.Searches { f with queue := rest } { f' with queue := rest.map ρ.state } :=
        ⟨searches.seen, searches.order, rfl⟩
      show ρ.Searches _ ((t'.successors (ρ.state state)).foldl .visit _)
      rw [tables.successors]
      exact taken.foldl_visit (t.successors state)

theorem run (tables : ρ.Tables t t') (searches : ρ.Searches f f') :
    ρ.Searches (f.run t) (f'.run t') := by
  fun_induction Table.Search.run t f generalizing f' with
  | case1 f idle =>
      have idle' : f'.queue = [] := by rw [searches.queue, idle, List.map_nil]
      rw [Table.Search.run, dif_pos idle']
      exact searches
  | case2 f busy ih =>
      have busy' : f'.queue ≠ [] := by
        rw [searches.queue, ne_eq, List.map_eq_nil_iff]
        exact busy
      have unrolled : f'.run t' = (f'.step t').run t' := by
        rw [Table.Search.run, dif_neg busy']
      rw [unrolled]
      exact ih (searches.step tables)

end Searches

theorem Tables.reachable {ρ : Renaming S E A S' E' A'} {t : Table S E A} {t' : Table S' E' A'}
    (tables : ρ.Tables t t') (state : S) :
    t'.reachable (ρ.state state) = (t.reachable state).map ρ.state :=
  (Searches.run tables (.start state)).order

/-! ## Machines -/

omit [DecidableEq S] [Hashable S] [DecidableEq E] [Hashable E] [DecidableEq S'] [Hashable S']
  [DecidableEq E'] [Hashable E'] in
theorem mirrors_recorders (recorder : Recorder S E A K) (recorder' : Recorder S' E' A' L) :
    ρ.Mirrors (fun k k' => recorder'.calls k' = (recorder.calls k).map ρ.signal) recorder.sink
      recorder'.sink where
  perform action k k' same := by
    obtain ⟨next, performed, called⟩ := recorder.calls_perform action k
    obtain ⟨next', performed', called'⟩ := recorder'.calls_perform (ρ.action action) k'
    rw [performed, performed']
    refine .done ?_
    rw [called, called', same, List.map_append]
    rfl
  unhandled state event k k' same := by
    obtain ⟨next, refused, called⟩ := recorder.calls_unhandled state event k
    obtain ⟨next', refused', called'⟩ :=
      recorder'.calls_unhandled (ρ.state state) (ρ.event event) k'
    rw [refused, refused']
    refine .done ?_
    rw [called, called', same, List.map_append]
    rfl

/-- The second machine is like the first one but for the renaming and for the
times in the journals, with receivers that are related. -/
structure Machines (related : K → L → Prop) (m : Machine S E A K) (m' : Machine S' E' A' L) :
    Prop where
  tables : ρ.Tables m.table m'.table
  sinks : ρ.Mirrors related m.sink m'.sink
  state : m'.state = ρ.state m.state
  receiver : related m.receiver m'.receiver
  journal : m'.journal.map Journal.outcomes =
    m.journal.map fun journal => journal.outcomes.map ρ.outcome

/-- The second run had the renamed result, made the renamed calls in the same
order and left a machine that is like the one which the first run left. -/
structure Runs {α α' : Type} (related : K → L → Prop) (answer : α → α') (run : Run S E A K α)
    (run' : Run S' E' A' L α') : Prop where
  machine : ρ.Machines related run.machine run'.machine
  calls : run'.signals.filter Signal.isCall = (run.signals.filter Signal.isCall).map ρ.signal
  result : run'.result = run.result.map answer

variable {ρ} {related : K → L → Prop}

omit [DecidableEq S] [Hashable S] [DecidableEq E] [Hashable E] [DecidableEq S'] [Hashable S']
  [DecidableEq E'] [Hashable E'] in
/-- The same actions are completed, and it ends alike. -/
theorem Mirrors.performAll {sink : Sink S E A K} {sink' : Sink S' E' A' L}
    (mirrors : ρ.Mirrors related sink sink') (actions : List A) {k : K} {k' : L}
    (goes : related k k') :
    (sink'.performAll (actions.map ρ.action) k').1 =
        (sink.performAll actions k).1.map ρ.action ∧
      (sink.performAll actions k).2.Matches related
        (sink'.performAll (actions.map ρ.action) k').2 := by
  induction actions generalizing k k' with
  | nil => exact ⟨rfl, .done goes⟩
  | cons action rest ih =>
      rw [List.map_cons, Sink.performAll, Sink.performAll]
      have call := mirrors.perform action k k' goes
      revert call
      generalize sink.perform action k = ended
      generalize sink'.perform (ρ.action action) k' = ended'
      rintro (⟨after⟩ | ⟨after⟩)
      · obtain ⟨completed, last⟩ := ih after
        exact ⟨congrArg (ρ.action action :: ·) completed, last⟩
      · exact ⟨rfl, .aborted after⟩

namespace Machines

variable [Named S] [Named E] [Named S'] [Named E']
variable {m : Machine S E A K} {m' : Machine S' E' A' L}

theorem refuse (machines : ρ.Machines related m m') (event : E) :
    ρ.Runs related ρ.outcome (m.refuse event) (m'.refuse (ρ.event event)) := by
  have call := machines.sinks.unhandled m.state event _ _ machines.receiver
  unfold Machine.refuse
  rw [machines.state]
  revert call
  generalize m.sink.unhandled m.state event m.receiver = ended
  generalize m'.sink.unhandled (ρ.state m.state) (ρ.event event) m'.receiver = ended'
  rintro (⟨after⟩ | ⟨after⟩)
  · exact ⟨⟨machines.tables, machines.sinks, rfl, after, machines.journal⟩, rfl, rfl⟩
  · exact ⟨⟨machines.tables, machines.sinks, rfl, after, machines.journal⟩, rfl, rfl⟩

theorem fire (machines : ρ.Machines related m m') {arrival : Arrival E} {arrival' : Arrival E'}
    (event : arrival'.event = ρ.event arrival.event) (r : Rule S E A) :
    ρ.Runs related ρ.outcome (m.fire arrival r) (m'.fire arrival' (ρ.rule r)) := by
  have performed := machines.sinks.performAll r.actions machines.receiver
  have actions : (ρ.rule r).actions = r.actions.map ρ.action := rfl
  have target : (ρ.rule r).target = ρ.state r.target := rfl
  unfold Machine.fire
  rw [actions, target, event, machines.state]
  revert performed
  rcases m.sink.performAll r.actions m.receiver with ⟨completed, ended⟩
  rcases m'.sink.performAll (r.actions.map ρ.action) m'.receiver with ⟨completed', ended'⟩
  rintro ⟨rfl, ⟨after⟩ | ⟨after⟩⟩
  · refine ⟨⟨machines.tables, machines.sinks, rfl, after, ?_⟩, ?_, rfl⟩
    · -- Both journals get one more move, and the second move is the first one renamed.
      rw [Journal.map_outcomes_push, machines.journal]
      cases m.journal with
      | none => rfl
      | some journal => simp [Move.outcome, outcome]
    · simp [Signal.isCall, signal, List.filter_map, Function.comp_def]
  · refine ⟨⟨machines.tables, machines.sinks, rfl, after, machines.journal⟩, ?_, rfl⟩
    simp [Signal.isCall, signal, List.filter_map, Function.comp_def]

theorem step (machines : ρ.Machines related m m') {arrival : Arrival E} {arrival' : Arrival E'}
    (event : arrival'.event = ρ.event arrival.event) :
    ρ.Runs related ρ.outcome (m.step arrival) (m'.step arrival') := by
  have lookup : m'.table.lookup m'.state arrival'.event =
      (m.table.lookup m.state arrival.event).map ρ.rule := by
    rw [machines.state, event, machines.tables.lookup]
  cases found : m.table.lookup m.state arrival.event with
  | none =>
      rw [found, Option.map_none] at lookup
      rw [Machine.step_of_none found, Machine.step_of_none lookup, event]
      exact machines.refuse arrival.event
  | some r =>
      rw [found, Option.map_some] at lookup
      rw [Machine.step_of_some found, Machine.step_of_some lookup]
      exact machines.fire event r

/-- Renamed events have the same effect but for the renaming, whenever they
arrive. -/
theorem feed (machines : ρ.Machines related m m') {arrivals : List (Arrival E)}
    {arrivals' : List (Arrival E')}
    (events : arrivals'.map Arrival.event = (arrivals.map Arrival.event).map ρ.event) :
    ρ.Runs related (List.map ρ.outcome) (m.feed arrivals) (m'.feed arrivals') := by
  induction arrivals generalizing m m' arrivals' with
  | nil =>
      rw [List.map_nil, List.map_nil, List.map_eq_nil_iff] at events
      rw [events]
      exact ⟨machines, rfl, rfl⟩
  | cons arrival rest ih =>
      obtain ⟨arrival', rest', rfl, event, events⟩ := List.map_eq_cons_iff.mp events
      have first := machines.step event
      have result := first.result
      cases completed : (m.step arrival).result with
      | none =>
          rw [completed, Option.map_none] at result
          rw [Machine.feed_of_none rest completed, Machine.feed_of_none rest' result]
          exact ⟨first.machine, first.calls, rfl⟩
      | some outcome =>
          rw [completed, Option.map_some] at result
          have others := ih first.machine events
          rw [Machine.feed_of_some rest completed, Machine.feed_of_some rest' result]
          refine ⟨others.machine, ?_, ?_⟩
          · rw [List.filter_append, List.filter_append, first.calls, others.calls, List.map_append]
          · rw [others.result, Option.map_map, Option.map_map]
            rfl

end Machines

end Renaming

variable [DecidableEq S] [Hashable S] [DecidableEq E] [Hashable E] [Named S] [Named E]
variable [DecidableEq S'] [Hashable S'] [DecidableEq E'] [Hashable E'] [Named S'] [Named E']

/-- A draft and the renamed draft both make a table, or both have no rules, or
both are refused because of the rule at the same position. If there are tables,
then whatever the second one is asked, its answer is the renamed answer of the
first one: for lookups, for the events enabled in a state, for the states
reachable from one, and for runs of machines. The results, the state, the calls
on the sink and the moves in the journal of a run are the renamed ones, in the
same order. -/
theorem Table.Draft.renamed_behaves_alike (ρ : Renaming S E A S' E' A') (draft : Draft S E A) :
    ((∃ t, draft.build = .ok t) ↔ ∃ t', (ρ.draft draft).build = .ok t') ∧
    (draft.build = .error .noRules ↔ (ρ.draft draft).build = .error .noRules) ∧
    (∀ i, draft.RefusedAt i ↔ (ρ.draft draft).RefusedAt i) ∧
    ((∃ t, draft.build = .ok t) ∨ draft.build = .error .noRules ∨ ∃ i, draft.RefusedAt i) ∧
    ∀ t t', draft.build = .ok t → (ρ.draft draft).build = .ok t' →
      (∀ state event,
        t'.lookup (ρ.state state) (ρ.event event) = (t.lookup state event).map ρ.rule) ∧
      (∀ state, t'.enabled (ρ.state state) = (t.enabled state).map ρ.event) ∧
      (∀ state, t'.reachable (ρ.state state) = (t.reachable state).map ρ.state) ∧
      ∀ (related : K → L → Prop) (sink : Sink S E A K) (sink' : Sink S' E' A' L) (start : S)
        (receiver : K) (receiver' : L) (journal : Option (Journal S E))
        (journal' : Option (Journal S' E')) (arrivals : List (Arrival E))
        (arrivals' : List (Arrival E')),
        ρ.Mirrors related sink sink' → related receiver receiver' →
        (journal'.map Journal.outcomes =
          journal.map fun journal => journal.outcomes.map ρ.outcome) →
        arrivals'.map Arrival.event = (arrivals.map Arrival.event).map ρ.event →
        ρ.Runs related (List.map ρ.outcome)
          ((Machine.mk t sink start receiver journal).feed arrivals)
          ((Machine.mk t' sink' (ρ.state start) receiver' journal').feed arrivals') := by
  refine ⟨ρ.exists_build_draft_iff draft, ?_, ρ.refusedAt_draft_iff draft, draft.build_cases, ?_⟩
  · rw [build_eq_noRules_iff, build_eq_noRules_iff, ρ.toList_rules_draft, List.map_eq_nil_iff]
  · intro t t' built built'
    have tables : ρ.Tables t t' := by
      refine ⟨coherent_of_build built, coherent_of_build built', ?_⟩
      rw [rules_of_build built, rules_of_build built', ρ.toList_rules_draft]
    refine ⟨tables.lookup, tables.enabled, tables.reachable, ?_⟩
    intro related sink sink' start receiver receiver' journal journal' arrivals arrivals'
      mirrors receivers journals events
    have machines : ρ.Machines related (Machine.mk t sink start receiver journal)
        (Machine.mk t' sink' (ρ.state start) receiver' journal') :=
      ⟨tables, mirrors, rfl, receivers, journals⟩
    exact machines.feed events

/-- Other symbols for a turnstile. All states are shown under one name, as are
all events, and the actions cannot be told apart at all. -/
def Renaming.anonymous :
    Renaming Turnstile.State Turnstile.Event Turnstile.Action Tagged Tagged Unit where
  state
    | .locked0 => ⟨"state#0"⟩
    | .locked1 => ⟨"state#1"⟩
    | .unlocked => ⟨"state#2"⟩
    | .alarming => ⟨"state#3"⟩
  event
    | .coin => ⟨"event#0"⟩
    | .pass => ⟨"event#1"⟩
    | .reset => ⟨"event#2"⟩
  action _ := ()
  state_injective a b := by cases a <;> cases b <;> decide
  event_injective a b := by cases a <;> cases b <;> decide

/-- The turnstile works with these symbols as well. -/
theorem Table.Draft.anonymous_turnstile_behaves_alike :
    (∀ state, Named.name (Renaming.anonymous.state state) = "state") ∧
    ∃ t', (Renaming.anonymous.draft (empty.addAll Turnstile.rules)).build = .ok t' ∧
      t'.enabled ⟨"state#0"⟩ = [⟨"event#0"⟩, ⟨"event#1"⟩] ∧
      let run' := (Machine.startRecording t' Recorder.list.sink [] ⟨"state#0"⟩).feed
        [⟨⟨"event#2"⟩, default⟩, ⟨⟨"event#1"⟩, default⟩, ⟨⟨"event#2"⟩, default⟩]
      run'.result = some [.unhandled ⟨"state#0"⟩ ⟨"event#2"⟩,
        .moved ⟨"state#0"⟩ ⟨"state#3"⟩ ⟨"event#1"⟩, .moved ⟨"state#3"⟩ ⟨"state#0"⟩ ⟨"event#2"⟩] ∧
      run'.machine.receiver = [.unhandled ⟨"state#0"⟩ ⟨"event#2"⟩, .perform (), .perform (),
        .perform ()] := by
  refine ⟨fun state => by cases state <;> decide, ?_⟩
  obtain ⟨builds, _, _, _, alike⟩ := renamed_behaves_alike (K := List (Signal _ _ _))
    (L := List (Signal _ _ _)) Renaming.anonymous (empty.addAll Turnstile.rules)
  obtain ⟨t', built'⟩ := builds.mp ⟨_, Turnstile.build_rules⟩
  obtain ⟨_, enabled, _, runs⟩ := alike _ t' Turnstile.build_rules built'
  have follows : (Machine.startRecording Turnstile.table Recorder.list.sink [] .locked0).Follows
      ⟨Turnstile.rules, fun action calls => calls ++ [.perform action],
        fun state event calls => calls ++ [.unhandled state event]⟩ :=
    ⟨coherent_of_build Turnstile.build_rules, rfl, rfl⟩
  have agrees := follows.feed_agrees [⟨.reset, default⟩, ⟨.pass, default⟩, ⟨.reset, default⟩]
  have renamed := runs _ _ _ .locked0 [] [] (some .empty) (some .empty)
    [⟨.reset, default⟩, ⟨.pass, default⟩, ⟨.reset, default⟩]
    [⟨⟨"event#2"⟩, default⟩, ⟨⟨"event#1"⟩, default⟩, ⟨⟨"event#2"⟩, default⟩]
    (Renaming.anonymous.mirrors_recorders .list .list) rfl rfl rfl
  refine ⟨t', built', enabled .locked0, ?_, ?_⟩
  · exact renamed.result.trans (congrArg (Option.map _) agrees.result)
  · exact renamed.machine.receiver.trans (congrArg (List.map _) agrees.receiver)

end Transducer
