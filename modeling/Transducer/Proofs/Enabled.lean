import Mathlib.Data.List.Nodup
import Mathlib.Tactic.TFAE
import Transducer.Proofs.Dispatch

/-!
# Enabled events

A table is asked for the events of a state by a scan of its rules, and a machine
finds the rule for an event through the index. The events of the scan are those
on which the machine moves.

* `Table.Coherent.nodup_enabled`: no event is listed twice, because the rules of
  a state have different events.
* `Table.Coherent.mem_enabled_iff`: the events listed are those that a lookup
  finds a rule for.
* `Machine.feed_of_enabled_eq_nil`: in a state without events, a machine stays,
  and the receiver is told once for each event.
* `Table.Draft.enabled_events_move`: all of this for a table that a draft made.
-/

namespace Transducer

variable {S E A K : Type} [DecidableEq S] [Hashable S] [DecidableEq E] [Hashable E]

namespace Table

/-! ## The events of a state -/

/-- The events of a state, each with the state, are keys of rules in the order
of the rules. -/
theorem map_enabled_sublist (t : Table S E A) (state : S) :
    ((t.enabled state).map (Prod.mk state)).Sublist (t.rules.toList.map Rule.key) := by
  have keys : (t.enabled state).map (Prod.mk state) = (t.leaving state).map Rule.key := by
    rw [enabled, List.map_map]
    refine List.map_congr_left fun r member => ?_
    have source : r.source = state := by simpa using (List.mem_filter.mp member).2
    simp [Rule.key, source]
  rw [keys]
  exact List.filter_sublist.map Rule.key

variable {t : Table S E A}

theorem Coherent.nodup_enabled (coherent : t.Coherent) (state : S) : (t.enabled state).Nodup :=
  List.Nodup.of_map (Prod.mk state) (coherent.distinct.sublist (t.map_enabled_sublist state))

theorem Coherent.mem_enabled_iff (coherent : t.Coherent) (state : S) (event : E) :
    event ∈ t.enabled state ↔ (t.lookup state event).isSome := by
  rw [Option.isSome_iff_exists, enabled, List.mem_map]
  refine exists_congr fun r => ?_
  rw [coherent.lookup_eq_some_iff, leaving, List.mem_filter, decide_eq_true_iff, and_assoc]

end Table

/-! ## Machines -/

namespace Machine

variable [Named S] [Named E]

theorem isSome_lookup_iff_moved (t : Table S E A) (perform : A → K → K) (unhandled : S → E → K → K)
    (state : S) (receiver : K) (journal : Option (Journal S E)) (arrival : Arrival E) :
    let m : Machine S E A K := ⟨t, .total perform unhandled, state, receiver, journal⟩
    (t.lookup state arrival.event).isSome ↔
      ∃ target, (m.step arrival).result = some (.moved state target arrival.event) := by
  intro m
  constructor
  · intro found
    obtain ⟨r, found⟩ := Option.isSome_iff_exists.mp found
    refine ⟨r.target, ?_⟩
    rw [step_of_some found, fire, Sink.performAll_total]
  · rintro ⟨target, moved⟩
    obtain ⟨r, _, found, _⟩ | ⟨_, _, _, result⟩ | ⟨_, _, result⟩ := m.step_cases arrival
    · exact Option.isSome_iff_exists.mpr ⟨r, found⟩
    · rw [moved] at result
      cases result
    · rw [moved] at result
      cases result

/-- In a state without events, nothing happens but that the receiver is told of
every event. -/
theorem feed_of_enabled_eq_nil {t : Table S E A} (coherent : t.Coherent) (perform : A → K → K)
    (unhandled : S → E → K → K) {state : S} (idle : t.enabled state = []) (receiver : K)
    (journal : Option (Journal S E)) (arrivals : List (Arrival E)) :
    let m : Machine S E A K := ⟨t, .total perform unhandled, state, receiver, journal⟩
    (m.feed arrivals).machine =
      { m with
        receiver := arrivals.foldl (fun k arrival => unhandled state arrival.event k) receiver } ∧
    (m.feed arrivals).result = some (arrivals.map fun arrival => .unhandled state arrival.event) ∧
    (m.feed arrivals).signals.filter Signal.isCall =
      arrivals.map fun arrival => .unhandled state arrival.event := by
  intro m
  induction arrivals generalizing receiver with
  | nil => exact ⟨rfl, rfl, rfl⟩
  | cons arrival rest ih =>
      have missing : t.lookup state arrival.event = none := by
        rw [← Option.not_isSome_iff_eq_none, ← coherent.mem_enabled_iff, idle]
        exact List.not_mem_nil
      -- The machine after the first event differs from the one before it by the
      -- receiver alone.
      have first : m.step arrival =
          ⟨⟨t, .total perform unhandled, state, unhandled state arrival.event receiver, journal⟩,
            [.log (.eventUnhandled (Named.name state) (Named.name arrival.event)),
              .unhandled state arrival.event],
            some (.unhandled state arrival.event)⟩ :=
        step_of_none missing
      obtain ⟨machine, result, calls⟩ := ih (unhandled state arrival.event receiver)
      rw [feed_of_some rest (congrArg Run.result first), first]
      refine ⟨machine, ?_, ?_⟩
      · rw [result, Option.map_some, List.map_cons]
      · rw [List.filter_append, calls]
        rfl

end Machine

/-- The events that a table lists for a state are all different and come in the
order of their rules. An event is listed exactly if a lookup finds a rule for
it, and exactly if a machine in the state moves on it. Where no event is listed,
a machine stays for good: every event is answered as unhandled, the receiver is
told of it once and of nothing else, and the journal does not grow. -/
theorem Table.Draft.enabled_events_move [Named S] [Named E] (draft : Table.Draft S E A)
    (t : Table S E A) (built : draft.build = .ok t) (state : S) (perform : A → K → K)
    (unhandled : S → E → K → K) (receiver : K) (journal : Option (Journal S E)) :
    let m : Machine S E A K := ⟨t, .total perform unhandled, state, receiver, journal⟩
    (t.enabled state).Nodup ∧
    ((t.enabled state).map (Prod.mk state)).Sublist (t.rules.toList.map Rule.key) ∧
    (∀ arrival : Arrival E, List.TFAE [
      arrival.event ∈ t.enabled state,
      (t.lookup state arrival.event).isSome,
      ∃ target, (m.step arrival).result = some (.moved state target arrival.event)]) ∧
    (t.enabled state = [] → ∀ arrivals : List (Arrival E),
      (m.feed arrivals).machine.state = state ∧
      (m.feed arrivals).result = some (arrivals.map fun arrival => .unhandled state arrival.event) ∧
      (m.feed arrivals).signals.filter Signal.isCall =
        arrivals.map (fun arrival => .unhandled state arrival.event) ∧
      (m.feed arrivals).machine.receiver =
        arrivals.foldl (fun k arrival => unhandled state arrival.event k) receiver ∧
      (m.feed arrivals).machine.journal = journal) := by
  intro m
  have coherent : t.Coherent := coherent_of_build built
  refine ⟨coherent.nodup_enabled state, t.map_enabled_sublist state, ?_, ?_⟩
  · intro arrival
    tfae_have 1 ↔ 2 := coherent.mem_enabled_iff state arrival.event
    tfae_have 2 ↔ 3 :=
      Machine.isSome_lookup_iff_moved t perform unhandled state receiver journal arrival
    tfae_finish
  · intro idle arrivals
    obtain ⟨machine, result, calls⟩ :=
      Machine.feed_of_enabled_eq_nil coherent perform unhandled idle receiver journal arrivals
    rw [machine]
    exact ⟨rfl, result, calls, rfl, rfl⟩

/-- A lamp that can be switched on and off, and smashed while it is on. -/
def Table.Draft.lamp : Table.Draft Tagged Tagged Tagged :=
  empty.addAll [
    ⟨⟨"off"⟩, ⟨"flip"⟩, ⟨"on"⟩, [⟨"glow"⟩]⟩,
    ⟨⟨"on"⟩, ⟨"flip"⟩, ⟨"off"⟩, [⟨"dim"⟩]⟩,
    ⟨⟨"on"⟩, ⟨"smash"⟩, ⟨"broken"⟩, [⟨"spark"⟩]⟩]

/-- A lamp that is on can be switched or smashed. A smashed one is not switched
on any more. -/
theorem Table.Draft.smashed_lamp_stays :
    ∃ t, lamp.build = .ok t ∧ t.enabled ⟨"on"⟩ = [⟨"flip"⟩, ⟨"smash"⟩] ∧ t.enabled ⟨"broken"⟩ = [] ∧
      let m : Machine Tagged Tagged Tagged Nat :=
        ⟨t, .total (fun _ calls => calls + 1) (fun _ _ calls => calls + 100), ⟨"broken"⟩, 0,
          some .empty⟩
      let run := m.feed [⟨⟨"flip"⟩, default⟩, ⟨⟨"smash"⟩, default⟩]
      run.result = some [.unhandled ⟨"broken"⟩ ⟨"flip"⟩, .unhandled ⟨"broken"⟩ ⟨"smash"⟩] ∧
      run.machine.receiver = 200 ∧ run.machine.journal = some .empty := by
  have built := (build_eq_ok_iff lamp _).mpr ⟨by decide, by decide, rfl⟩
  obtain ⟨_, _, _, idle⟩ := enabled_events_move lamp _ built ⟨"broken"⟩
    (fun _ calls => calls + 1) (fun _ _ calls => calls + 100) 0 (some .empty)
  obtain ⟨_, result, _, receiver, journal⟩ :=
    idle rfl [⟨⟨"flip"⟩, default⟩, ⟨⟨"smash"⟩, default⟩]
  exact ⟨_, built, by decide, by decide, result, receiver, journal⟩

end Transducer
