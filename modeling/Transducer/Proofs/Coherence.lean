import Mathlib.Algebra.GroupWithZero.Nat
import Transducer.Table.Draft

/-!
# The index and the rules of a table agree

A table keeps its rules twice over: in the order they were declared, and by
position in an index. The check for repeated keys that keeps the two in step is
made by the draft, before there is a table.

`Table.Coherent` is what the check establishes:

* `Draft.coherent_of_build`: every table that a draft makes is coherent.
* `Coherent.index_lt`: a position in the index is a position of the rules, and
  the rule there has the key it is stored under.
* `Coherent.toList_lookup`: a lookup gives the rules with the key, of which
  there is at most one.
* `Draft.lookup_of_built_calls`: what a sequence of steps declares is what the
  table holds and finds.
-/

namespace Transducer.Table

variable {S E A : Type} [DecidableEq S] [Hashable S] [DecidableEq E] [Hashable E]

/-- No two rules share a key, and the index is the one of the rules. -/
structure Coherent (t : Table S E A) : Prop where
  distinct : (t.rules.toList.map Rule.key).Nodup
  indexed : t = ofRules t.rules

/-! ## Lookups in a coherent table -/

omit [Hashable S] [Hashable E] in
/-- With distinct keys, the first rule that applies is the only one. -/
theorem toList_find?_applies (rules : List (Rule S E A)) (distinct : (rules.map Rule.key).Nodup)
    (state : S) (event : E) :
    (rules.find? (·.applies state event)).toList = rules.filter (·.applies state event) := by
  induction rules with
  | nil => rfl
  | cons r rest ih =>
      rw [List.map_cons, List.nodup_cons] at distinct
      obtain ⟨absent, distinct⟩ := distinct
      by_cases applies : r.applies state event = true
      · have others : rest.filter (·.applies state event) = [] := by
          rw [List.filter_eq_nil_iff]
          intro other member alsoApplies
          rw [Rule.applies_iff] at applies alsoApplies
          exact absent (List.mem_map.mpr ⟨other, member, alsoApplies.trans applies.symm⟩)
        simp [applies, others]
      · simpa [applies] using ih distinct

namespace Coherent

variable {t : Table S E A}

/-- A lookup through the index finds what a scan of the rules finds. -/
theorem lookup_eq_find? (coherent : t.Coherent) (state : S) (event : E) :
    t.lookup state event = t.rules.toList.find? (·.applies state event) := by
  rw [coherent.indexed]
  exact lookup_ofRules t.rules coherent.distinct state event

theorem toList_lookup (coherent : t.Coherent) (state : S) (event : E) :
    (t.lookup state event).toList = t.rules.toList.filter (·.applies state event) := by
  rw [coherent.lookup_eq_find?]
  exact toList_find?_applies t.rules.toList coherent.distinct state event

theorem lookup_eq_some_iff (coherent : t.Coherent) {state : S} {event : E} {r : Rule S E A} :
    t.lookup state event = some r ↔
      r ∈ t.rules.toList ∧ r.source = state ∧ r.event = event := by
  rw [← Option.mem_toList, coherent.toList_lookup, List.mem_filter]
  simp [Rule.applies]

theorem index_lt (coherent : t.Coherent) {state : S} {event : E} {i : Nat}
    (stored : t.index[(state, event)]? = some i) :
    ∃ inside : i < t.rules.size,
      t.rules[i].applies state event = true ∧ t.lookup state event = some t.rules[i] := by
  rw [coherent.indexed] at stored
  obtain ⟨r, position, key⟩ := (index_ofRules t.rules coherent.distinct state event i).mp stored
  obtain ⟨inside, rfl⟩ := Array.getElem?_eq_some_iff.mp position
  have applies := (Rule.applies_iff _ state event).mpr key
  refine ⟨inside, applies, coherent.lookup_eq_some_iff.mpr ⟨?_, ?_⟩⟩
  · exact Array.getElem_mem_toList inside
  · simpa [Rule.applies] using applies

end Coherent

/-! ## Drafts make coherent tables -/

namespace Draft

variable [Named S] [Named E]

theorem rules_of_build {d : Draft S E A} {t : Table S E A} (built : d.build = .ok t) :
    t.rules = d.rules := by
  obtain ⟨_, _, rfl⟩ := (build_eq_ok_iff d t).mp built
  rfl

theorem coherent_of_build {d : Draft S E A} {t : Table S E A} (built : d.build = .ok t) :
    t.Coherent := by
  obtain ⟨_, distinct, rfl⟩ := (build_eq_ok_iff d t).mp built
  exact ⟨distinct, rfl⟩

/-- What the steps of a draft declare is what its table holds, in the same
order. The index never leads out of the rules or to a rule for another key, and
a lookup gives the one rule for the key, or none when there is none. -/
theorem lookup_of_built_calls (start : Draft S E A) (fresh : start = .empty ∨ start = default)
    (calls : List (Call S E A)) (t : Table S E A)
    (built : (calls.foldl apply start).build = .ok t) :
    t.rules.toList = calls.flatMap Call.rules ∧
    t.size = (calls.map fun call => call.rules.length).sum ∧
    (∀ state event i, t.index[(state, event)]? = some i →
      ∃ inside : i < t.rules.size,
        t.rules[i].applies state event = true ∧ t.lookup state event = some t.rules[i]) ∧
    ∀ state event,
      (t.lookup state event).toList =
        t.rules.toList.filter fun r => r.source = state ∧ r.event = event := by
  have coherent := coherent_of_build built
  have blank : start.rules.toList = [] := by
    rcases fresh with rfl | rfl <;> rfl
  have rules : t.rules.toList = calls.flatMap Call.rules := by
    rw [rules_of_build built, toList_rules_foldl_apply, blank, List.nil_append]
  refine ⟨rules, ?_, fun _ _ _ => coherent.index_lt, coherent.toList_lookup⟩
  rw [size, ← Array.length_toList, rules, List.length_flatMap]

/-- Steps of all three kinds, over two states that are both shown as `A`. -/
def namesakes : List (Call Tagged Tagged Tagged) := [
  .declare ⟨"A#1"⟩ ⟨"go"⟩ ⟨"A#2"⟩ [⟨"x"⟩],
  .addAll [⟨⟨"A#2"⟩, ⟨"stop"⟩, ⟨"B"⟩, []⟩, ⟨⟨"B"⟩, ⟨"go"⟩, ⟨"B"⟩, []⟩],
  .addAll [],
  .add ⟨⟨"A#2"⟩, ⟨"go"⟩, ⟨"A#1"⟩, []⟩]

/-- The rule for the second of the two states is found, not the one for its
namesake. -/
theorem lookup_of_built_namesakes :
    ∃ t, (namesakes.foldl apply default).build = .ok t ∧ t.size = 4 ∧
      (t.lookup ⟨"A#2"⟩ ⟨"go"⟩).toList = [⟨⟨"A#2"⟩, ⟨"go"⟩, ⟨"A#1"⟩, []⟩] := by
  have built := (build_eq_ok_iff (namesakes.foldl apply default) _).mpr
    ⟨by decide, by decide, rfl⟩
  obtain ⟨rules, size, _, lookup⟩ := lookup_of_built_calls default (.inr rfl) namesakes _ built
  refine ⟨_, built, size, ?_⟩
  rw [lookup, rules]
  decide

end Draft

end Transducer.Table
