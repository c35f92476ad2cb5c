import Transducer.Proofs.Search
import Transducer.Proofs.Walk

/-!
# The reachable states are the states of runs

The search follows the rules in the order they stand in the table, and a machine
finds them through the index. Both get to the same states.

* `Table.Coherent.exists_events`: every path of edges is the path of a run,
  because in a coherent table every rule can fire.
* `Table.Draft.mem_reachable_iff_exists_feed`: the search finds a state exactly
  if some events take a machine there.
-/

namespace Transducer

variable {S E A K : Type} [DecidableEq S] [Hashable S] [DecidableEq E] [Hashable E]

namespace Table

theorem Coherent.find?_rule {t : Table S E A} (coherent : t.Coherent) {r : Rule S E A}
    (member : r ∈ t.rules.toList) :
    (t.rules.toList.find? fun other => other.source = r.source ∧ other.event = r.event) =
      some r := by
  have found := coherent.lookup_eq_some_iff.mpr ⟨member, rfl, rfl⟩
  rw [coherent.lookup_eq_find?] at found
  exact found

theorem Coherent.exists_events {t : Table S E A} (coherent : t.Coherent) (perform : A → K → K)
    (unhandled : S → E → K → K) {source target : S}
    (path : Relation.ReflTransGen t.Edge source target) :
    ∃ events, ∀ receiver : K,
      ((Interpreter.mk t.rules.toList perform unhandled).run source receiver events).state =
        target := by
  -- The events are found from the front: the first one fires the rule of the
  -- first edge.
  induction path using Relation.ReflTransGen.head_induction_on with
  | refl => exact ⟨[], fun _ => rfl⟩
  | head edge _ ih =>
      obtain ⟨r, member, rfl, rfl⟩ := edge
      obtain ⟨events, arrives⟩ := ih
      refine ⟨r.event :: events, ?_⟩
      intro receiver
      rw [Interpreter.run, Interpreter.step, coherent.find?_rule member]
      exact arrives _

/-- For every pair of states, also of states that no rule mentions, the search
from the one finds the other exactly if some events take a machine from the one
to the other. When the events arrive makes no difference. -/
theorem Draft.mem_reachable_iff_exists_feed [Named S] [Named E] (draft : Draft S E A)
    (t : Table S E A) (built : draft.build = .ok t) (perform : A → K → K)
    (unhandled : S → E → K → K) (receiver : K) (journal : Option (Journal S E))
    (source target : S) :
    let m : Machine S E A K := ⟨t, .total perform unhandled, source, receiver, journal⟩
    (target ∈ t.reachable source ↔
      ∃ arrivals : List (Arrival E), (m.feed arrivals).machine.state = target) ∧
    ∀ arrivals others : List (Arrival E), arrivals.map Arrival.event = others.map Arrival.event →
      (m.feed arrivals).machine.state = (m.feed others).machine.state := by
  intro m
  have coherent : m.table.Coherent := coherent_of_build built
  have follows : m.Follows ⟨t.rules.toList, perform, unhandled⟩ := ⟨coherent, rfl, rfl⟩
  refine ⟨⟨?_, ?_⟩, ?_⟩
  · intro found
    obtain ⟨events, arrives⟩ :=
      coherent.exists_events perform unhandled ((mem_reachable t source target).mp found)
    refine ⟨events.map (Arrival.mk · default), ?_⟩
    have same : (events.map (Arrival.mk · default)).map Arrival.event = events := by
      rw [List.map_map]
      exact List.map_id events
    rw [(follows.feed_agrees _).state, same]
    exact arrives receiver
  · rintro ⟨arrivals, rfl⟩
    obtain ⟨moves, trip, _⟩ := m.trip_feed coherent arrivals
    exact (mem_reachable t source _).mpr trip.walk.reflTransGen
  · intro arrivals others same
    rw [(follows.feed_agrees arrivals).state, (follows.feed_agrees others).state, same]

/-- Two coins unlock the turnstile, so the search finds the unlocked state. -/
theorem Draft.unlocked_mem_reachable_locked0 :
    Turnstile.State.unlocked ∈ Turnstile.table.reachable .locked0 := by
  refine (mem_reachable_iff_exists_feed _ _ Turnstile.build_rules (fun _ _ => ())
    (fun _ _ _ => ()) () none .locked0 .unlocked).1.mpr
    ⟨[⟨.coin, default⟩, ⟨.coin, default⟩], ?_⟩
  have follows : (Machine.mk Turnstile.table (.total (fun _ _ => ()) (fun _ _ _ => ())) .locked0 ()
      none).Follows ⟨Turnstile.rules, fun _ _ => (), fun _ _ _ => ()⟩ :=
    ⟨coherent_of_build Turnstile.build_rules, rfl, rfl⟩
  rw [(follows.feed_agrees _).state]
  rfl

end Table

end Transducer
