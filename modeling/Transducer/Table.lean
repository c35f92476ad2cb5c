import Std.Data.HashMap
import Transducer.Rule

/-!
# Tables

A table holds the rules of a machine in the order they were declared, with an
index from the key of each rule to its position. `Table.Draft` is the way to
make one: it refuses an empty table and two rules with the same key.

* `Table.index_ofRules`: the index holds the position of a rule, and nothing
  else.
* `Table.lookup_ofRules`: a lookup through the index gives what a scan of the
  rules gives.
-/

namespace Transducer

structure Table (S E A : Type) [DecidableEq S] [Hashable S] [DecidableEq E] [Hashable E] where
  rules : Array (Rule S E A)
  /-- Where in `rules` the rule with a given key stands. -/
  index : Std.HashMap (S × E) Nat

namespace Table

variable {S E A : Type} [DecidableEq S] [Hashable S] [DecidableEq E] [Hashable E]

/-- The table of the given rules. Their keys should be distinct. -/
def ofRules (rules : Array (Rule S E A)) : Table S E A where
  rules := rules
  index := .ofList (rules.toList.zipIdx.map fun (r, i) => (r.key, i))

@[simp]
theorem rules_ofRules (rules : Array (Rule S E A)) : (ofRules rules).rules = rules :=
  rfl

def size (t : Table S E A) : Nat :=
  t.rules.size

def isEmpty (t : Table S E A) : Bool :=
  t.rules.isEmpty

/-- The rule for an event in a state, found through the index. -/
def lookup (t : Table S E A) (state : S) (event : E) : Option (Rule S E A) :=
  t.index[(state, event)]?.bind fun i => t.rules[i]?

/-- The rules that leave a state, in declaration order. -/
def leaving (t : Table S E A) (state : S) : List (Rule S E A) :=
  t.rules.toList.filter (·.source = state)

/-- The events that some rule handles in a state, in declaration order. -/
def enabled (t : Table S E A) (state : S) : List E :=
  (t.leaving state).map (·.event)

/-! ## The index and the rules -/

theorem index_ofRules (rules : Array (Rule S E A)) (distinct : (rules.toList.map Rule.key).Nodup)
    (state : S) (event : E) (i : Nat) :
    (ofRules rules).index[(state, event)]? = some i ↔
      ∃ r, rules[i]? = some r ∧ r.key = (state, event) := by
  have pairs : (rules.toList.zipIdx.map fun (r, i) => (r.key, i)).Pairwise
      fun a b => (a.1 == b.1) = false := by
    rw [List.Nodup, ← List.zipIdx_map_fst 0 rules.toList, List.map_map,
      List.pairwise_map] at distinct
    rw [List.pairwise_map]
    exact distinct.imp fun h => by simpa using h
  constructor
  · intro found
    -- A key that the index knows belongs to a rule, and then the position is
    -- that rule's.
    by_cases present : (state, event) ∈ rules.toList.map Rule.key
    · obtain ⟨r, member, key⟩ := List.mem_map.mp present
      obtain ⟨j, position⟩ := List.mem_iff_getElem?.mp member
      have stored : (ofRules rules).index[(state, event)]? = some j :=
        Std.HashMap.getElem?_ofList_of_mem (k := (state, event)) (by simp) pairs
          (List.mem_map.mpr ⟨(r, j), List.mem_zipIdx_iff_getElem?.mpr position, by rw [← key]⟩)
      rw [stored, Option.some.injEq] at found
      subst found
      exact ⟨r, by simpa using position, key⟩
    · have missing : (ofRules rules).index[(state, event)]? = none := by
        refine Std.HashMap.getElem?_ofList_of_contains_eq_false ?_
        have keys : (rules.toList.zipIdx.map fun (r, i) => (r.key, i)).map Prod.fst =
            rules.toList.map Rule.key := by
          conv => rhs; rw [← List.zipIdx_map_fst 0 rules.toList]
          rw [List.map_map, List.map_map]
          rfl
        rw [keys]
        simpa using present
      rw [missing] at found
      contradiction
  · rintro ⟨r, position, key⟩
    refine Std.HashMap.getElem?_ofList_of_mem (k := (state, event)) (by simp) pairs ?_
    exact List.mem_map.mpr
      ⟨(r, i), List.mem_zipIdx_iff_getElem?.mpr (by simpa using position), by rw [← key]⟩

theorem lookup_ofRules (rules : Array (Rule S E A)) (distinct : (rules.toList.map Rule.key).Nodup)
    (state : S) (event : E) :
    (ofRules rules).lookup state event = rules.toList.find? (·.applies state event) := by
  have index := index_ofRules rules distinct state event
  cases scan : rules.toList.find? (·.applies state event) with
  | none =>
      cases stored : (ofRules rules).index[(state, event)]? with
      | none => simp [lookup, stored]
      | some i =>
          obtain ⟨r, position, key⟩ := (index i).mp stored
          have member : r ∈ rules.toList := by simpa using Array.mem_of_getElem? position
          have applies := (Rule.applies_iff r state event).mpr key
          exact absurd applies (List.find?_eq_none.mp scan r member)
  | some r =>
      have applies : r.applies state event = true :=
        (List.find?_eq_some_iff_append.mp scan).1
      have key := (Rule.applies_iff r state event).mp applies
      obtain ⟨i, position⟩ := List.mem_iff_getElem?.mp (List.mem_of_find?_eq_some scan)
      have position : rules[i]? = some r := by simpa using position
      have stored := (index i).mpr ⟨r, position, key⟩
      simpa [lookup, stored] using position

end Table

end Transducer
