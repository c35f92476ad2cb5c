import Mathlib.Order.Bounds.Basic
import Transducer.Table.Draft

/-!
# Which drafts are refused, and where

If a draft has rules and still makes no table, one of them is the reason: the
first whose key was declared before. The error names the symbols of this rule.

* `Draft.RepeatsAt`: a rule has the key of a rule before it.
* `Draft.RefusedAt`: the rule at a position is the reason why there is no table.
* `Draft.refusedAt_iff`: this is the case exactly if the position is the least
  at which a rule repeats a key.
* `Draft.build_cases`: there is a table, there are no rules, or there is a rule
  that is the reason.
* `Draft.RefusedAt.build_foldl_apply`: nothing that is declared later changes
  the error.
* `Draft.build_reports_first_repeat`: the three answers, and when each is given.
-/

namespace Transducer.Table.Draft

variable {S E A : Type}

/-- The rule at position `i` has the key of a rule before it. -/
def RepeatsAt (rules : List (Rule S E A)) (i : Nat) : Prop :=
  ∃ r, rules[i]? = some r ∧ ∃ j < i, ∃ earlier, rules[j]? = some earlier ∧ earlier.key = r.key

/-- With distinct keys there is no such rule. -/
theorem not_repeatsAt {rules : List (Rule S E A)} (distinct : (rules.map Rule.key).Nodup)
    (i : Nat) :
    ¬ RepeatsAt rules i := by
  rintro ⟨r, here, j, earlierThan, earlier, there, key⟩
  have inside : j < (rules.map Rule.key).length := by
    rw [List.length_map]
    exact (List.getElem?_eq_some_iff.mp there).1
  have same : (rules.map Rule.key)[j]? = (rules.map Rule.key)[i]? := by
    rw [List.getElem?_map, List.getElem?_map, here, there, Option.map_some, Option.map_some, key]
  exact earlierThan.ne ((List.getElem?_inj inside distinct).mp same)

/-- Whether a rule repeats a key does not depend on the rules after it. -/
theorem repeatsAt_append_iff {rules : List (Rule S E A)} {i : Nat} (inside : i < rules.length)
    (more : List (Rule S E A)) : RepeatsAt (rules ++ more) i ↔ RepeatsAt rules i := by
  constructor
  · rintro ⟨r, here, j, earlierThan, earlier, there, key⟩
    rw [List.getElem?_append_left inside] at here
    rw [List.getElem?_append_left (earlierThan.trans inside)] at there
    exact ⟨r, here, j, earlierThan, earlier, there, key⟩
  · rintro ⟨r, here, j, earlierThan, earlier, there, key⟩
    rw [← List.getElem?_append_left inside] at here
    rw [← List.getElem?_append_left (earlierThan.trans inside)] at there
    exact ⟨r, here, j, earlierThan, earlier, there, key⟩

theorem RepeatsAt.inside {rules : List (Rule S E A)} {i : Nat} (repeats : RepeatsAt rules i) :
    i < rules.length := by
  obtain ⟨_, here, _⟩ := repeats
  exact (List.getElem?_eq_some_iff.mp here).1

/-- Nor does it matter for which rule is the first to repeat a key. -/
theorem isLeast_repeatsAt_append {rules : List (Rule S E A)} {i : Nat}
    (first : IsLeast {i | RepeatsAt rules i} i) (more : List (Rule S E A)) :
    IsLeast {i | RepeatsAt (rules ++ more) i} i := by
  have inside : i < rules.length := RepeatsAt.inside first.1
  refine ⟨(repeatsAt_append_iff inside more).mpr first.1, ?_⟩
  intro k repeats
  by_contra! before
  exact before.not_ge (first.2 ((repeatsAt_append_iff (before.trans inside) more).mp repeats))

/-- A rule that repeats a key is the first to do so if the keys before it are
distinct. -/
theorem isLeast_repeatsAt {before after : List (Rule S E A)} {r : Rule S E A}
    (distinct : (before.map Rule.key).Nodup) (repeated : r.key ∈ before.map Rule.key) :
    IsLeast {i | RepeatsAt (before ++ r :: after) i} before.length := by
  constructor
  · obtain ⟨earlier, member, key⟩ := List.mem_map.mp repeated
    obtain ⟨j, there⟩ := List.mem_iff_getElem?.mp member
    have inside := (List.getElem?_eq_some_iff.mp there).1
    refine ⟨r, by simp, j, inside, earlier, ?_, key⟩
    rw [List.getElem?_append_left inside, there]
  · intro i repeats
    by_contra! inside
    exact not_repeatsAt distinct i ((repeatsAt_append_iff inside _).mp repeats)

variable [DecidableEq S] [Hashable S] [DecidableEq E] [Hashable E]

/-- The rules before the first repeat do not repeat anything themselves. -/
theorem exists_of_firstRepeat? {seen : Std.HashSet (S × E)} {rules : List (Rule S E A)}
    {r : Rule S E A} (found : firstRepeat? seen rules = some r) :
    ∃ before after, rules = before ++ r :: after ∧ firstRepeat? seen before = none ∧
      (r.key ∈ seen ∨ r.key ∈ before.map Rule.key) := by
  induction rules generalizing seen with
  | nil => contradiction
  | cons head rest ih =>
      by_cases known : head.key ∈ seen
      · rw [firstRepeat?, if_pos known, Option.some.injEq] at found
        subst found
        exact ⟨[], rest, rfl, rfl, .inl known⟩
      · rw [firstRepeat?, if_neg known] at found
        obtain ⟨before, after, rfl, fresh, repeated⟩ := ih found
        refine ⟨head :: before, after, rfl, ?_, ?_⟩
        · rw [firstRepeat?, if_neg known]
          exact fresh
        · rw [Std.HashSet.mem_insert, beq_iff_eq] at repeated
          rw [List.map_cons, List.mem_cons]
          rcases repeated with (same | old) | later
          · exact .inr (.inl same.symm)
          · exact .inl old
          · exact .inr (.inr later)

theorem exists_isLeast_of_firstRepeat? {rules : List (Rule S E A)} {r : Rule S E A}
    (found : firstRepeat? ∅ rules = some r) :
    ∃ i, rules[i]? = some r ∧ IsLeast {i | RepeatsAt rules i} i := by
  obtain ⟨before, after, rfl, fresh, repeated⟩ := exists_of_firstRepeat? found
  have distinct := ((firstRepeat?_eq_none_iff ∅ before).mp fresh).1
  have repeated : r.key ∈ before.map Rule.key :=
    repeated.resolve_left Std.HashSet.not_mem_empty
  exact ⟨before.length, by simp, isLeast_repeatsAt distinct repeated⟩

theorem exists_repeatsAt_iff (rules : List (Rule S E A)) :
    (∃ i, RepeatsAt rules i) ↔ ¬ (rules.map Rule.key).Nodup := by
  constructor
  · rintro ⟨i, repeats⟩ distinct
    exact not_repeatsAt distinct i repeats
  · intro clash
    cases found : firstRepeat? ∅ rules with
    | none => exact absurd ((firstRepeat?_eq_none_iff ∅ rules).mp found).1 clash
    | some r =>
        obtain ⟨i, _, first⟩ := exists_isLeast_of_firstRepeat? found
        exact ⟨i, first.1⟩

theorem nodup_take_of_isLeast {rules : List (Rule S E A)} {i : Nat}
    (first : IsLeast {i | RepeatsAt rules i} i) : ((rules.take i).map Rule.key).Nodup := by
  by_contra clash
  obtain ⟨k, repeats⟩ := (exists_repeatsAt_iff (rules.take i)).mpr clash
  have inside : k < i := repeats.inside.trans_le (List.length_take_le i rules)
  rw [← repeatsAt_append_iff repeats.inside (rules.drop i), List.take_append_drop] at repeats
  exact inside.not_ge (first.2 repeats)

variable [Named S] [Named E]

/-- The draft makes no table because the rule at position `i` is the first to
repeat a key, and the error names the symbols of this rule. -/
structure RefusedAt (d : Draft S E A) (i : Nat) : Prop where
  first : IsLeast {i | RepeatsAt d.rules.toList i} i
  error : ∃ r, d.rules.toList[i]? = some r ∧
    d.build = .error (.duplicateRule (Named.name r.source) (Named.name r.event))

theorem build_eq_noRules_iff (d : Draft S E A) :
    d.build = .error .noRules ↔ d.rules.toList = [] := by
  unfold build buildLogged
  split
  · rename_i isEmpty
    simpa using isEmpty
  · rename_i nonempty
    have nonempty : d.rules.toList ≠ [] := by simpa using nonempty
    cases firstRepeat? ∅ d.rules.toList <;> simp [nonempty]

/-- There is a table, there are no rules, or there is a rule that is the reason
why there is no table. -/
theorem build_cases (d : Draft S E A) :
    (∃ t, d.build = .ok t) ∨ d.build = .error .noRules ∨ ∃ i, d.RefusedAt i := by
  by_cases nonempty : d.rules.toList = []
  · exact .inr (.inl ((build_eq_noRules_iff d).mpr nonempty))
  cases repeated : firstRepeat? ∅ d.rules.toList with
  | none =>
      have distinct := ((firstRepeat?_eq_none_iff ∅ d.rules.toList).mp repeated).1
      exact .inl ((exists_build_iff d).mpr ⟨nonempty, distinct⟩)
  | some r =>
      obtain ⟨i, here, first⟩ := exists_isLeast_of_firstRepeat? repeated
      refine .inr (.inr ⟨i, first, r, here, ?_⟩)
      have nonempty : ¬ d.rules.isEmpty = true := by simpa using nonempty
      rw [build, buildLogged, if_neg nonempty, repeated]

theorem exists_refusedAt_of_duplicateRule {d : Draft S E A} {state event : String}
    (error : d.build = .error (.duplicateRule state event)) : ∃ i, d.RefusedAt i := by
  rcases d.build_cases with ⟨t, built⟩ | noRules | refused
  · cases error.symm.trans built
  · cases error.symm.trans noRules
  · exact refused

theorem exists_refusedAt_iff (d : Draft S E A) :
    (∃ i, d.RefusedAt i) ↔ ∃ i, RepeatsAt d.rules.toList i := by
  constructor
  · rintro ⟨i, refused⟩
    exact ⟨i, refused.first.1⟩
  · rintro ⟨i, repeats⟩
    rcases d.build_cases with built | noRules | refused
    · exact absurd repeats (not_repeatsAt ((exists_build_iff d).mp built).2 i)
    · have inside := repeats.inside
      rw [(build_eq_noRules_iff d).mp noRules] at inside
      contradiction
    · exact refused

/-- A rule is the reason exactly if it is the first to repeat a key. -/
theorem refusedAt_iff (d : Draft S E A) (i : Nat) :
    d.RefusedAt i ↔ IsLeast {i | RepeatsAt d.rules.toList i} i := by
  refine ⟨RefusedAt.first, ?_⟩
  intro first
  obtain ⟨i', refused⟩ := (exists_refusedAt_iff d).mpr ⟨i, first.1⟩
  rw [first.unique refused.first]
  exact refused

/-- Once a rule is the reason, it stays the reason, whatever is declared after
it. -/
theorem RefusedAt.foldl_apply {d : Draft S E A} {i : Nat} (refused : d.RefusedAt i)
    (calls : List (Call S E A)) : (calls.foldl apply d).RefusedAt i := by
  rw [refusedAt_iff, toList_rules_foldl_apply]
  exact isLeast_repeatsAt_append refused.first _

theorem RefusedAt.build_foldl_apply {d : Draft S E A} {i : Nat} (refused : d.RefusedAt i)
    (calls : List (Call S E A)) : (calls.foldl apply d).build = d.build := by
  obtain ⟨r, here, error⟩ := refused.error
  obtain ⟨r', here', error'⟩ := (refused.foldl_apply calls).error
  have inside := (List.getElem?_eq_some_iff.mp here).1
  rw [toList_rules_foldl_apply, List.getElem?_append_left inside, here, Option.some.injEq] at here'
  rw [error, error', here']

/-- What comes out of a draft. No rules is one error. Rules with a repeated key
are another one, which names the first rule to repeat a key: the keys before it
are distinct, and whatever is declared after it, the error is the same. All else
makes a table. Keys are told apart by their symbols, so it makes no difference
which names these have. -/
theorem build_reports_first_repeat (d : Draft S E A) :
    (d.build = .error .noRules ↔ d.rules.toList = []) ∧
    ((∃ state event, d.build = .error (.duplicateRule state event)) ↔
      ∃ i, RepeatsAt d.rules.toList i) ∧
    (∀ state event, d.build = .error (.duplicateRule state event) →
      ∃ i r, IsLeast {i | RepeatsAt d.rules.toList i} i ∧ d.rules.toList[i]? = some r ∧
        state = Named.name r.source ∧ event = Named.name r.event ∧
        ((d.rules.toList.take i).map Rule.key).Nodup ∧
        ∀ calls : List (Call S E A),
          (calls.foldl apply d).build = .error (.duplicateRule state event)) ∧
    ((∃ t, d.build = .ok t) ↔ d.rules.toList ≠ [] ∧ ¬ ∃ i, RepeatsAt d.rules.toList i) ∧
    ∀ (nameState : S → String) (nameEvent : E → String) (t : Table S E A),
      @build S E A _ _ _ _ ⟨nameState⟩ ⟨nameEvent⟩ d = .ok t ↔ d.build = .ok t := by
  refine ⟨build_eq_noRules_iff d, ?_, ?_, ?_, ?_⟩
  · rw [← exists_refusedAt_iff]
    constructor
    · rintro ⟨state, event, error⟩
      exact exists_refusedAt_of_duplicateRule error
    · rintro ⟨i, refused⟩
      obtain ⟨r, _, error⟩ := refused.error
      exact ⟨_, _, error⟩
  · intro state event error
    obtain ⟨i, refused⟩ := exists_refusedAt_of_duplicateRule error
    obtain ⟨r, here, error'⟩ := refused.error
    have same := error.symm.trans error'
    simp only [Except.error.injEq, BuildError.duplicateRule.injEq] at same
    refine ⟨i, r, refused.first, here, same.1, same.2, nodup_take_of_isLeast refused.first, ?_⟩
    intro calls
    rw [refused.build_foldl_apply calls, error]
  · rw [exists_build_iff, exists_repeatsAt_iff, not_not]
  · intro nameState nameEvent t
    exact (@build_eq_ok_iff S E A _ _ _ _ ⟨nameState⟩ ⟨nameEvent⟩ d t).trans
      (build_eq_ok_iff d t).symm

end Transducer.Table.Draft
