import Mathlib.Logic.Relation
import Transducer.Table.Search

/-!
# The search finds what can be reached

The search is a loop over three collections. `Search.Invariant` says how they
hang together, and every round keeps it.

* `Search.order_step`, `Search.queue_step`, `Search.mem_seen_step`: what a round
  adds, which is the same for the order and the queue.
* `Search.Invariant.step`, `Search.Invariant.run`: the invariant holds after
  every round and at the end, where the queue is empty.
* `nodup_reachable`, `mem_reachable`: no state is found twice, and the states
  found are those that lie at the end of a path of edges.
-/

namespace Transducer.Table

variable {S E A : Type} [DecidableEq S] [Hashable S] [DecidableEq E] [Hashable E]

namespace Search

/-! ## One round -/

/-- The states that would be new to the search, each once, in the order of their
first mention. -/
def unseen (f : Search S) (states : List S) : List S :=
  (states.filter (· ∉ f.seen)).eraseDups

theorem mem_unseen (f : Search S) (states : List S) (state : S) :
    state ∈ f.unseen states ↔ state ∈ states ∧ state ∉ f.seen := by
  rw [unseen, List.mem_eraseDups, List.mem_filter, decide_eq_true_iff]

theorem unseen_cons_of_mem {f : Search S} {state : S} (rest : List S) (found : state ∈ f.seen) :
    f.unseen (state :: rest) = (f.visit state).unseen rest := by
  rw [visit, if_pos found, unseen, unseen, List.filter_cons_of_neg (by simpa using found)]

theorem unseen_cons_of_notMem {f : Search S} {state : S} (rest : List S)
    (fresh : state ∉ f.seen) :
    f.unseen (state :: rest) = state :: (f.visit state).unseen rest := by
  rw [visit, if_neg fresh, unseen, unseen, List.filter_cons_of_pos (by simpa using fresh),
    List.eraseDups_cons, List.filter_filter]
  congr 2
  refine List.filter_congr fun other _ => ?_
  -- Not the state itself and not seen before: not seen once the state has been
  -- added.
  rw [Bool.eq_iff_iff]
  simp only [Bool.and_eq_true, Bool.not_eq_true', beq_eq_false_iff_ne, decide_eq_true_iff,
    Std.HashSet.mem_insert, beq_iff_eq, not_or]
  exact and_congr_left fun _ => ne_comm

/-- Visits add the same states to the order and to the queue. -/
theorem foldl_visit (states : List S) (f : Search S) :
    (states.foldl visit f).order.toList = f.order.toList ++ f.unseen states ∧
      (states.foldl visit f).queue = f.queue ++ f.unseen states := by
  induction states generalizing f with
  | nil => simp [unseen]
  | cons state rest ih =>
      obtain ⟨order, queue⟩ := ih (f.visit state)
      rw [List.foldl_cons, order, queue]
      by_cases found : state ∈ f.seen
      · rw [unseen_cons_of_mem rest found, visit, if_pos found]
        exact ⟨rfl, rfl⟩
      · rw [unseen_cons_of_notMem rest found, visit, if_neg found]
        simp

theorem mem_seen_visit (f : Search S) (visited state : S) :
    state ∈ (f.visit visited).seen ↔ state ∈ f.seen ∨ state = visited := by
  unfold visit
  split
  · rename_i found
    constructor
    · exact .inl
    · rintro (old | rfl)
      · exact old
      · exact found
  · rw [Std.HashSet.mem_insert, beq_iff_eq, or_comm, eq_comm]

theorem mem_seen_foldl_visit (states : List S) (f : Search S) (state : S) :
    state ∈ (states.foldl visit f).seen ↔ state ∈ f.seen ∨ state ∈ states := by
  induction states generalizing f with
  | nil => simp
  | cons head rest ih => rw [List.foldl_cons, ih, mem_seen_visit, List.mem_cons, or_assoc]

section Busy

variable {t : Table S E A} {f : Search S} {state : S} {rest : List S}

theorem order_step (queue : f.queue = state :: rest) :
    (f.step t).order.toList = f.order.toList ++ f.unseen (t.successors state) := by
  simp only [step, queue]
  exact (foldl_visit _ _).1

theorem queue_step (queue : f.queue = state :: rest) :
    (f.step t).queue = rest ++ f.unseen (t.successors state) := by
  simp only [step, queue]
  exact (foldl_visit _ _).2

theorem mem_seen_step (queue : f.queue = state :: rest) (other : S) :
    other ∈ (f.step t).seen ↔ other ∈ f.seen ∨ other ∈ t.successors state := by
  simp only [step, queue]
  exact mem_seen_foldl_visit _ _ _

end Busy

theorem step_of_idle {t : Table S E A} {f : Search S} (idle : f.queue = []) : f.step t = f := by
  simp only [step, idle]

/-! ## The invariant -/

/-- What holds before and after every round of a search from `start`. -/
structure Invariant (t : Table S E A) (start : S) (f : Search S) : Prop where
  mem_seen : ∀ state, state ∈ f.seen ↔ state ∈ f.order.toList
  nodup : f.order.toList.Nodup
  started : start ∈ f.order.toList
  sound : ∀ state ∈ f.order.toList, Relation.ReflTransGen t.Edge start state
  /-- The queue is the end of the order. Where the states before it lead to has
  been discovered. -/
  closed : ∃ done, f.order.toList = done ++ f.queue ∧
    ∀ state ∈ done, ∀ next ∈ t.successors state, next ∈ f.seen

namespace Invariant

variable {t : Table S E A} {start : S} {f : Search S}

theorem init (t : Table S E A) (start : S) : Invariant t start (Search.start start) where
  mem_seen state := by
    simp only [Search.start, Std.HashSet.mem_insert, Std.HashSet.not_mem_empty, or_false,
      beq_iff_eq, List.mem_singleton]
    exact eq_comm
  nodup := by simp [Search.start]
  started := by simp [Search.start]
  sound state member := by
    have equal : state = start := by simpa [Search.start] using member
    rw [equal]
  closed := ⟨[], rfl, fun _ impossible => nomatch impossible⟩

theorem step (inv : Invariant t start f) : Invariant t start (f.step t) := by
  cases queue : f.queue with
  | nil =>
      rw [step_of_idle queue]
      exact inv
  | cons state rest =>
      obtain ⟨done, order, closed⟩ := inv.closed
      rw [queue] at order
      have present : state ∈ f.order.toList := by simp [order]
      refine ⟨?_, ?_, ?_, ?_, ?_⟩
      · intro other
        rw [mem_seen_step queue, order_step queue, List.mem_append, mem_unseen, ← inv.mem_seen]
        by_cases found : other ∈ f.seen <;> simp [found]
      · rw [order_step queue, List.nodup_append]
        refine ⟨inv.nodup, nodup_eraseDups _, ?_⟩
        rintro old inOrder _ fresh rfl
        exact ((mem_unseen _ _ _).mp fresh).2 ((inv.mem_seen old).mpr inOrder)
      · rw [order_step queue]
        exact List.mem_append_left _ inv.started
      · intro other member
        rw [order_step queue, List.mem_append] at member
        rcases member with old | fresh
        · exact inv.sound other old
        · have edge := (mem_successors t state other).mp ((mem_unseen _ _ _).mp fresh).1
          exact (inv.sound state present).tail edge
      · -- The state that left the queue is done as well.
        refine ⟨done ++ [state], ?_, ?_⟩
        · rw [order_step queue, queue_step queue, order]
          simp
        · intro other member next successor
          rw [mem_seen_step queue]
          rcases List.mem_append.mp member with old | equal
          · exact .inl (closed other old next successor)
          · rw [List.mem_singleton.mp equal] at successor
            exact .inr successor

theorem run (inv : Invariant t start f) :
    Invariant t start (f.run t) ∧ (f.run t).queue = [] := by
  fun_induction Search.run t f with
  | case1 f idle => exact ⟨inv, idle⟩
  | case2 f busy ih => exact ih inv.step

end Invariant

end Search

theorem nodup_reachable (t : Table S E A) (start : S) : (t.reachable start).Nodup :=
  (Search.Invariant.init t start).run.1.nodup

theorem mem_reachable (t : Table S E A) (start state : S) :
    state ∈ t.reachable start ↔ Relation.ReflTransGen t.Edge start state := by
  obtain ⟨inv, idle⟩ := (Search.Invariant.init t start).run
  constructor
  · exact inv.sound state
  · intro path
    obtain ⟨done, order, closed⟩ := inv.closed
    rw [idle, List.append_nil] at order
    -- With nothing left in the queue, the order is closed under edges.
    induction path with
    | refl => exact inv.started
    | tail _ edge ih =>
        rw [reachable, order] at ih
        rw [reachable, ← inv.mem_seen]
        exact closed _ ih _ ((mem_successors t _ _).mpr edge)

end Transducer.Table
