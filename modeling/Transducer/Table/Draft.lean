import Std.Data.HashSet
import Transducer.Log
import Transducer.Symbol
import Transducer.Table

/-!
# Drafts of tables

A draft collects rules, one or several at a time, and is then checked and made
into a table. Keys are compared by the identity of their symbols. Names only
appear in the error.

* `Draft.toList_rules_foldl_apply`: every step adds its rules behind those that
  are there.
* `Draft.firstRepeat?_eq_none_iff`: no rule is reported exactly if all keys are
  distinct.
* `Draft.build_eq_ok_iff`, `Draft.exists_build_iff`: which table a draft makes,
  and when.
-/

namespace Transducer

/-- Why a table or a machine cannot be built. -/
inductive BuildError where
  | noRules
  /-- Two rules have the same source and event. The symbols are given by
  name. -/
  | duplicateRule (state event : String)
  | noInitialState
deriving DecidableEq, Repr

def BuildError.message : BuildError → String
  | .noRules => "No transitions defined. Add at least one transition"
  | .duplicateRule state event => s!"Duplicate transition for state '{state}' on event '{event}'"
  | .noInitialState => "Initial state not specified. Call .initial(state) before .build()"

/-- A result together with what was logged on the way to it. -/
structure Logged (α : Type) where
  result : α
  log : List LogLine

namespace Table

structure Draft (S E A : Type) where
  rules : Array (Rule S E A)

namespace Draft

variable {S E A : Type}

def empty : Draft S E A :=
  ⟨#[]⟩

instance : Inhabited (Draft S E A) :=
  ⟨empty⟩

/-- One step in writing a draft. -/
inductive Call (S E A : Type) where
  | declare (source : S) (event : E) (target : S) (actions : List A)
  | add (rule : Rule S E A)
  | addAll (rules : List (Rule S E A))

/-- The rules that a step declares. -/
def Call.rules : Call S E A → List (Rule S E A)
  | .declare source event target actions => [⟨source, event, target, actions⟩]
  | .add rule => [rule]
  | .addAll rules => rules

def declare (d : Draft S E A) (source : S) (event : E) (target : S) (actions : List A) :
    Draft S E A :=
  ⟨d.rules.push ⟨source, event, target, actions⟩⟩

def add (d : Draft S E A) (rule : Rule S E A) : Draft S E A :=
  ⟨d.rules.push rule⟩

def addAll (d : Draft S E A) (rules : List (Rule S E A)) : Draft S E A :=
  ⟨d.rules ++ rules⟩

def apply (d : Draft S E A) : Call S E A → Draft S E A
  | .declare source event target actions => d.declare source event target actions
  | .add rule => d.add rule
  | .addAll rules => d.addAll rules

def ofCalls (calls : List (Call S E A)) : Draft S E A :=
  calls.foldl apply empty

theorem toList_rules_apply (d : Draft S E A) (call : Call S E A) :
    (d.apply call).rules.toList = d.rules.toList ++ call.rules := by
  cases call <;> simp [apply, declare, add, addAll, Call.rules]

theorem toList_rules_foldl_apply (d : Draft S E A) (calls : List (Call S E A)) :
    (calls.foldl apply d).rules.toList = d.rules.toList ++ calls.flatMap Call.rules := by
  induction calls generalizing d with
  | nil => simp
  | cons call rest ih =>
      rw [List.foldl_cons, ih, toList_rules_apply, List.flatMap_cons, List.append_assoc]

variable [DecidableEq S] [Hashable S] [DecidableEq E] [Hashable E]

/-- The first rule whose key is in `seen` or belongs to a rule before it. -/
def firstRepeat? (seen : Std.HashSet (S × E)) : List (Rule S E A) → Option (Rule S E A)
  | [] => none
  | r :: rest => if r.key ∈ seen then some r else firstRepeat? (seen.insert r.key) rest

theorem firstRepeat?_eq_none_iff (seen : Std.HashSet (S × E)) (rules : List (Rule S E A)) :
    firstRepeat? seen rules = none ↔
      (rules.map Rule.key).Nodup ∧ ∀ r ∈ rules, r.key ∉ seen := by
  induction rules generalizing seen with
  | nil => simp [firstRepeat?]
  | cons r rest ih =>
      by_cases found : r.key ∈ seen
      · simp [firstRepeat?, found]
      · rw [firstRepeat?, if_neg found, ih, List.map_cons, List.nodup_cons]
        constructor
        · rintro ⟨distinct, fresh⟩
          refine ⟨⟨?_, distinct⟩, ?_⟩
          · intro repeated
            obtain ⟨later, member, equal⟩ := List.mem_map.mp repeated
            exact fresh later member (by simp [equal])
          · intro x member
            rcases List.mem_cons.mp member with rfl | inRest
            · exact found
            · exact fun h => fresh x inRest (Std.HashSet.mem_insert.mpr (.inr h))
        · rintro ⟨⟨absent, distinct⟩, fresh⟩
          refine ⟨distinct, fun x member inserted => ?_⟩
          rcases Std.HashSet.mem_insert.mp inserted with equal | h
          · have equal : r.key = x.key := by simpa using equal
            exact absent (List.mem_map.mpr ⟨x, member, equal.symm⟩)
          · exact fresh x (List.mem_cons_of_mem _ member) h

variable [Named S] [Named E]

/-- Checks the draft and makes the table. A line is logged when that
succeeds. -/
def buildLogged (d : Draft S E A) : Logged (Except BuildError (Table S E A)) :=
  if d.rules.isEmpty then ⟨.error .noRules, []⟩
  else
    match firstRepeat? ∅ d.rules.toList with
    | some r => ⟨.error (.duplicateRule (Named.name r.source) (Named.name r.event)), []⟩
    | none => ⟨.ok (Table.ofRules d.rules), [.tableBuilt d.rules.size]⟩

def build (d : Draft S E A) : Except BuildError (Table S E A) :=
  d.buildLogged.result

theorem build_eq_ok_iff (d : Draft S E A) (t : Table S E A) :
    d.build = .ok t ↔
      d.rules.toList ≠ [] ∧ (d.rules.toList.map Rule.key).Nodup ∧ t = Table.ofRules d.rules := by
  have distinct := firstRepeat?_eq_none_iff ∅ d.rules.toList
  simp only [Std.HashSet.not_mem_empty, not_false_eq_true, implies_true, and_true] at distinct
  unfold build buildLogged
  split
  · rename_i isEmpty
    have : d.rules.toList = [] := by simpa using isEmpty
    simp [this]
  · rename_i nonempty
    have nonempty : d.rules.toList ≠ [] := by simpa using nonempty
    cases repeated : firstRepeat? ∅ d.rules.toList with
    | none =>
        simp only [Except.ok.injEq]
        exact ⟨fun h => ⟨nonempty, distinct.mp repeated, h.symm⟩, fun h => h.2.2.symm⟩
    | some r =>
        have clash : ¬ (d.rules.toList.map Rule.key).Nodup := fun h => by
          rw [distinct.mpr h] at repeated
          contradiction
        simp [clash]

theorem exists_build_iff (d : Draft S E A) :
    (∃ t, d.build = .ok t) ↔ d.rules.toList ≠ [] ∧ (d.rules.toList.map Rule.key).Nodup := by
  constructor
  · rintro ⟨t, built⟩
    obtain ⟨nonempty, distinct, _⟩ := (build_eq_ok_iff d t).mp built
    exact ⟨nonempty, distinct⟩
  · rintro ⟨nonempty, distinct⟩
    exact ⟨_, (build_eq_ok_iff d _).mpr ⟨nonempty, distinct, rfl⟩⟩

end Draft

end Table

end Transducer
