import Std.Data.HashSet
import Transducer.Table

/-!
# Which states can be reached

A breadth-first search over the rules of a table, seen as graph edges from
source to target. The states come out in the order of their discovery, the start
first.

The search is a value, `Search`, and `Search.step` is one round of it. Every
round shortens the list of work by exactly one, where work counts the queue and
the targets not seen yet (`Search.pending_step`). So the search ends whatever
cycles the table has.
-/

namespace Transducer.Table

variable {S E A : Type} [DecidableEq S] [Hashable S] [DecidableEq E] [Hashable E]

/-- Where the rules of a state lead, one target a rule. -/
def successors (t : Table S E A) (state : S) : List S :=
  (t.leaving state).map (·.target)

/-- Some rule leads from the one state to the other. -/
def Edge (t : Table S E A) (source target : S) : Prop :=
  ∃ r ∈ t.rules.toList, r.source = source ∧ r.target = target

theorem mem_successors (t : Table S E A) (state next : S) :
    next ∈ t.successors state ↔ t.Edge state next := by
  simp [successors, leaving, Edge, and_assoc]

/-- Where any rule leads, each state once. -/
def targets (t : Table S E A) : List S :=
  (t.rules.toList.map (·.target)).eraseDups

structure Search (S : Type) [DecidableEq S] [Hashable S] where
  /-- The states in `order`, for a fast test. -/
  seen : Std.HashSet S
  /-- The states discovered so far, oldest first. -/
  order : Array S
  /-- The discovered states whose successors have not been looked at. -/
  queue : List S

namespace Search

def start (state : S) : Search S :=
  ⟨(∅ : Std.HashSet S).insert state, #[state], [state]⟩

def visit (f : Search S) (state : S) : Search S :=
  if state ∈ f.seen then f
  else ⟨f.seen.insert state, f.order.push state, f.queue ++ [state]⟩

/-- Takes the first state off the queue and visits its successors. -/
def step (t : Table S E A) (f : Search S) : Search S :=
  match f.queue with
  | [] => f
  | state :: rest => (t.successors state).foldl visit { f with queue := rest }

/-- The work that is left: targets to discover and states to take off the
queue. -/
def pending (t : Table S E A) (f : Search S) : Nat :=
  t.targets.countP (· ∉ f.seen) + f.queue.length

/-! ## Work decreases -/

omit [Hashable S] in
theorem nodup_eraseDups (states : List S) : states.eraseDups.Nodup := by
  match states with
  | [] => simp
  | state :: rest =>
      rw [List.eraseDups_cons, List.nodup_cons]
      exact ⟨by simp [List.mem_eraseDups], nodup_eraseDups _⟩
termination_by states.length
decreasing_by
  exact Nat.lt_succ_of_le (List.length_filter_le _ _)

theorem countP_insert (states : List S) (distinct : states.Nodup) (seen : Std.HashSet S) (state : S)
    (present : state ∈ states) (fresh : state ∉ seen) :
    states.countP (· ∉ seen.insert state) + 1 = states.countP (· ∉ seen) := by
  induction states with
  | nil => simp at present
  | cons head rest ih =>
      obtain ⟨absent, distinct⟩ := List.nodup_cons.mp distinct
      by_cases equal : head = state
      · subst equal
        have same : rest.countP (· ∉ seen.insert head) = rest.countP (· ∉ seen) := by
          refine List.countP_congr fun x member => ?_
          have : head ≠ x := fun h => absent (h ▸ member)
          simp [this]
        rw [List.countP_cons_of_neg (by simp), List.countP_cons_of_pos (by simpa using fresh), same]
      · have inRest : state ∈ rest := by
          rcases List.mem_cons.mp present with h | h
          · exact absurd h.symm equal
          · exact h
        have ih := ih distinct inRest
        have notEqual : state ≠ head := fun h => equal h.symm
        by_cases found : head ∈ seen
        · rw [List.countP_cons_of_neg (by simp [found]),
            List.countP_cons_of_neg (by simp [found]), ih]
        · rw [List.countP_cons_of_pos (by simp [found, notEqual]),
            List.countP_cons_of_pos (by simp [found]), ← ih]

theorem pending_visit (t : Table S E A) (f : Search S) (state : S) (target : state ∈ t.targets) :
    (f.visit state).pending t = f.pending t := by
  unfold visit
  split
  · rfl
  · rename_i fresh
    have := countP_insert t.targets (nodup_eraseDups _) f.seen state target fresh
    simp only [pending, List.length_append, List.length_singleton]
    omega

theorem pending_foldl_visit (t : Table S E A) (states : List S) (f : Search S)
    (target : ∀ state ∈ states, state ∈ t.targets) :
    (states.foldl visit f).pending t = f.pending t := by
  induction states generalizing f with
  | nil => rfl
  | cons state rest ih =>
      rw [List.foldl_cons, ih _ fun s h => target s (List.mem_cons_of_mem _ h),
        pending_visit t f state (target state List.mem_cons_self)]

theorem successors_subset_targets (t : Table S E A) (state next : S)
    (member : next ∈ t.successors state) : next ∈ t.targets := by
  obtain ⟨r, inRules, _, rfl⟩ := (mem_successors t state next).mp member
  exact List.mem_eraseDups.mpr (List.mem_map.mpr ⟨r, inRules, rfl⟩)

theorem pending_step (t : Table S E A) (f : Search S) (busy : f.queue ≠ []) :
    (f.step t).pending t + 1 = f.pending t := by
  unfold step
  split
  · contradiction
  · rename_i state rest queue
    rw [pending_foldl_visit t _ _ fun next member => successors_subset_targets t state next member]
    simp only [pending, queue, List.length_cons]
    omega

/-! ## The search -/

/-- Rounds until the queue is empty. -/
def run (t : Table S E A) (f : Search S) : Search S :=
  if _ : f.queue = [] then f else run t (f.step t)
termination_by f.pending t
decreasing_by
  have := pending_step t f ‹_›
  omega

end Search

/-- The states that a machine started in `state` can get to, in the order of
discovery. -/
def reachable (t : Table S E A) (state : S) : List S :=
  ((Search.start state).run t).order.toList

end Transducer.Table
