import Mathlib.Data.Finset.Card
import Transducer.Proofs.Search
import Transducer.Turnstile.Rules

/-!
# The rounds of a search

The queue of a search grows while it is consumed. What keeps the search from
going on forever is that a round takes one state off the queue and adds no state
a second time.

* `Search.rounds`: the search after a number of rounds, busy or not.
* `Search.undiscovered`, `Search.pending_eq_card`: the work that is left, as the
  size of a set and of the queue.
* `Search.run_rounds`: rounds do not change where the search ends.
* `Search.HasTaken`: the states that left the queue are the first ones of the
  result. A round keeps this (`Search.HasTaken.step`), with one more state.
* `Search.pending_rounds`, `length_reachable_le`: counting the rounds gives a
  bound for the result.
* `rounds_take_reachable`: what the rounds of a search do, from the first to the
  last.
-/

namespace Transducer.Table

variable {S E A : Type} [DecidableEq S] [Hashable S] [DecidableEq E] [Hashable E]

namespace Search

/-- The search after `n` rounds. A round with an empty queue changes nothing. -/
def rounds (t : Table S E A) (f : Search S) : Nat → Search S
  | 0 => f
  | n + 1 => (f.rounds t n).step t

/-- The states that some rule leads to and that have not been seen. -/
def undiscovered (t : Table S E A) (f : Search S) : Finset S :=
  {state ∈ (t.rules.toList.map (·.target)).toFinset | state ∉ f.seen}

variable {t : Table S E A} {start : S} {f : Search S} {n : Nat}

theorem pending_eq_card (t : Table S E A) (f : Search S) :
    f.pending t = (f.undiscovered t).card + f.queue.length := by
  have distinct : (t.targets.filter (· ∉ f.seen)).Nodup := (nodup_eraseDups _).filter _
  have same : (t.targets.filter (· ∉ f.seen)).toFinset = f.undiscovered t := by
    ext state
    simp [undiscovered, targets, List.mem_eraseDups]
  rw [pending, List.countP_eq_length_filter, ← same, List.toFinset_card_of_nodup distinct]

theorem card_undiscovered_le (t : Table S E A) (f : Search S) :
    (f.undiscovered t).card ≤ t.size := by
  calc (f.undiscovered t).card ≤ (t.rules.toList.map (·.target)).toFinset.card :=
        Finset.card_filter_le _ _
    _ ≤ (t.rules.toList.map (·.target)).length := List.toFinset_card_le _
    _ = t.size := by rw [List.length_map, Array.length_toList, size]

theorem Invariant.rounds (inv : Invariant t start f) (n : Nat) :
    Invariant t start (f.rounds t n) := by
  induction n with
  | zero => exact inv
  | succ n ih => exact ih.step

/-! ## Where the search ends -/

theorem run_of_idle (idle : f.queue = []) : f.run t = f := by
  rw [run, dif_pos idle]

theorem run_step (t : Table S E A) (f : Search S) : (f.step t).run t = f.run t := by
  by_cases idle : f.queue = []
  · rw [step_of_idle idle]
  · conv => rhs; rw [run, dif_neg idle]

theorem run_rounds (t : Table S E A) (f : Search S) (n : Nat) : (f.rounds t n).run t = f.run t := by
  induction n with
  | zero => rfl
  | succ n ih => rw [rounds, run_step, ih]

theorem order_prefix_step (t : Table S E A) (f : Search S) :
    f.order.toList <+: (f.step t).order.toList := by
  cases queue : f.queue with
  | nil => rw [step_of_idle queue]
  | cons state rest =>
      rw [order_step queue]
      exact List.prefix_append _ _

theorem order_prefix_run (t : Table S E A) (f : Search S) :
    f.order.toList <+: (f.run t).order.toList := by
  fun_induction run t f with
  | case1 f idle => exact List.prefix_rfl
  | case2 f busy ih => exact (order_prefix_step t f).trans ih

/-! ## What has left the queue -/

/-- The states that left the queue are the first `n` states of the result. -/
def HasTaken (t : Table S E A) (n : Nat) (f : Search S) : Prop :=
  f.order.toList = (f.run t).order.toList.take n ++ f.queue

namespace HasTaken

theorem init (t : Table S E A) (start : S) : HasTaken t 0 (Search.start start) :=
  rfl

/-- Before the result is complete, its next state is the first one of the
queue. -/
theorem exists_queue (taken : HasTaken t n f) (inside : n < (f.run t).order.toList.length) :
    ∃ rest, f.queue = (f.run t).order.toList[n] :: rest := by
  unfold HasTaken at taken
  cases queue : f.queue with
  | nil =>
      -- The search is over, so all of the result has left the queue.
      rw [queue, List.append_nil] at taken
      have short := congrArg List.length taken
      rw [run_of_idle queue] at short inside
      rw [List.length_take] at short
      omega
  | cons state rest =>
      refine ⟨rest, ?_⟩
      obtain ⟨later, result⟩ := order_prefix_run t f
      rw [taken, queue, List.append_assoc] at result
      have length : ((f.run t).order.toList.take n).length = n := List.length_take_of_le inside.le
      have here : (f.run t).order.toList[n]? = some state := by
        rw [← result, List.getElem?_append_right length.le, length]
        simp
      rw [(List.getElem?_eq_some_iff.mp here).2]

theorem step (taken : HasTaken t n f) (inside : n < (f.run t).order.toList.length) :
    HasTaken t (n + 1) (f.step t) := by
  obtain ⟨rest, queue⟩ := taken.exists_queue inside
  unfold HasTaken at taken ⊢
  rw [run_step, order_step queue, queue_step queue, taken, queue,
    List.take_succ_eq_append_getElem inside]
  simp

theorem rounds (taken : HasTaken t 0 f) (within : n ≤ (f.run t).order.toList.length) :
    HasTaken t n (f.rounds t n) := by
  induction n with
  | zero => exact taken
  | succ n ih =>
      refine (ih (Nat.le_of_succ_le within)).step ?_
      rw [run_rounds]
      exact within

/-- Where the rules lead from what has left the queue has been seen. -/
theorem target_mem_seen (taken : HasTaken t n f) (inv : Invariant t start f) {r : Rule S E A}
    (rule : r ∈ t.rules) (source : r.source ∈ (f.run t).order.toList.take n) :
    r.target ∈ f.seen := by
  obtain ⟨done, split, closed⟩ := inv.closed
  have same : (f.run t).order.toList.take n = done :=
    List.append_cancel_right (taken.symm.trans split)
  rw [same] at source
  exact closed r.source source r.target
    ((mem_successors t _ _).mpr ⟨r, Array.mem_toList_iff.mpr rule, rfl, rfl⟩)

end HasTaken

theorem hasTaken_rounds (t : Table S E A) (start : S) (within : n ≤ (t.reachable start).length) :
    HasTaken t n ((Search.start start).rounds t n) :=
  (HasTaken.init t start).rounds within

/-- Each round takes the next state of the result off the queue. -/
theorem exists_queue_rounds (t : Table S E A) (start : S)
    (inside : n < (t.reachable start).length) :
    ∃ rest, ((Search.start start).rounds t n).queue = (t.reachable start)[n] :: rest := by
  have next := (hasTaken_rounds t start inside.le).exists_queue (by rwa [run_rounds])
  simp only [run_rounds] at next
  exact next

theorem queue_rounds_length (t : Table S E A) (start : S) :
    ((Search.start start).rounds t (t.reachable start).length).queue = [] := by
  have taken := hasTaken_rounds t start le_rfl
  have result := order_prefix_run t ((Search.start start).rounds t (t.reachable start).length)
  unfold HasTaken at taken
  rw [run_rounds, ← reachable] at taken result
  -- All of the result has left the queue, and nothing comes after it.
  rw [taken, List.take_length] at result
  exact List.append_right_eq_self.mp (result.eq_of_length_le (by simp))

/-! ## Counting the rounds -/

theorem pending_succ_rounds (t : Table S E A) (start : S)
    (inside : n < (t.reachable start).length) :
    ((Search.start start).rounds t (n + 1)).pending t + 1 =
      ((Search.start start).rounds t n).pending t := by
  obtain ⟨rest, queue⟩ := exists_queue_rounds t start inside
  refine pending_step t _ ?_
  rw [queue]
  exact List.cons_ne_nil _ _

theorem pending_rounds (t : Table S E A) (start : S) (within : n ≤ (t.reachable start).length) :
    ((Search.start start).rounds t n).pending t + n = (Search.start start).pending t := by
  induction n with
  | zero => rfl
  | succ n ih =>
      have next := pending_succ_rounds t start within
      have earlier := ih (Nat.le_of_succ_le within)
      omega

end Search

theorem length_reachable_le (t : Table S E A) (start : S) :
    (t.reachable start).length ≤ t.size + 1 := by
  calc (t.reachable start).length ≤ (Search.start start).pending t := by
        rw [← Search.pending_rounds t start le_rfl]
        exact Nat.le_add_left _ _
    _ = ((Search.start start).undiscovered t).card + 1 := Search.pending_eq_card _ _
    _ ≤ t.size + 1 := Nat.succ_le_succ (Search.card_undiscovered_le _ _)

/-- A search takes as many rounds as its result has states. Before each of them
and after the last one, what has been seen is the order, which mentions no state
twice; the order is made of the states that left the queue, which are the first
states of the result, and then the queue; and where the rules lead from the
states that left the queue has been seen. Each of the rounds takes the next
state of the result off the queue, and the targets not seen yet together with
the states in the queue become one less. After the last round the queue is
empty, and there the search ends. Its result mentions no state twice and is at
most one longer than the list of rules. -/
theorem rounds_take_reachable (t : Table S E A) (start : S) :
    let found := t.reachable start
    let after := (Search.start start).rounds t
    (∀ n ≤ found.length,
      (∀ state, state ∈ (after n).seen ↔ state ∈ (after n).order) ∧
      (after n).order.toList.Nodup ∧
      (after n).order.toList = found.take n ++ (after n).queue ∧
      ∀ r ∈ t.rules, r.source ∈ found.take n → r.target ∈ (after n).seen) ∧
    (∀ n (inside : n < found.length),
      (after n).queue.head? = some found[n] ∧
      ((after (n + 1)).undiscovered t).card + (after (n + 1)).queue.length + 1 =
        ((after n).undiscovered t).card + (after n).queue.length) ∧
    (after found.length).queue = [] ∧
    (Search.start start).run t = after found.length ∧
    found.Nodup ∧
    found.length ≤ t.size + 1 := by
  intro found after
  have idle : (after found.length).queue = [] := Search.queue_rounds_length t start
  refine ⟨?_, ?_, idle, ?_, nodup_reachable t start, length_reachable_le t start⟩
  · intro n within
    have inv : Search.Invariant t start (after n) := (Search.Invariant.init t start).rounds n
    have taken : Search.HasTaken t n (after n) := Search.hasTaken_rounds t start within
    have result : ((after n).run t).order.toList = found := by rw [Search.run_rounds]; rfl
    refine ⟨?_, inv.nodup, ?_, ?_⟩
    · intro state
      rw [inv.mem_seen, Array.mem_toList_iff]
    · rw [← result]
      exact taken
    · intro r rule source
      rw [← result] at source
      exact taken.target_mem_seen inv rule source
  · intro n inside
    obtain ⟨rest, queue⟩ := Search.exists_queue_rounds t start inside
    refine ⟨?_, ?_⟩
    · rw [queue, List.head?_cons]
    · rw [← Search.pending_eq_card, ← Search.pending_eq_card]
      exact Search.pending_succ_rounds t start inside
  · rw [← Search.run_rounds t _ found.length]
    exact Search.run_of_idle idle

/-- The rules of the turnstile go round in circles, and one of them stays where
it is. Its search takes four rounds, and the third of them takes the alarm off
the queue. -/
theorem turnstile_search_takes_four_rounds :
    let after := (Search.start .locked0).rounds Turnstile.table
    (after 2).queue.head? = some .alarming ∧
    (after 3).order.toList = [.locked0, .locked1, .alarming] ++ (after 3).queue ∧
    (after 4).queue = [] ∧
    (Search.start .locked0).run Turnstile.table = after 4 := by
  intro after
  have found : Turnstile.table.reachable .locked0 = [.locked0, .locked1, .alarming, .unlocked] := by
    simp [reachable, Search.run, Search.start, Search.step, Search.visit, successors, leaving,
      Turnstile.table, Turnstile.rules]
  obtain ⟨kept, round, idle, ends, -⟩ := rounds_take_reachable Turnstile.table .locked0
  rw [found] at idle ends
  refine ⟨?_, ?_, idle, ends⟩
  · obtain ⟨taken, -⟩ := round 2 (by rw [found]; decide)
    simp only [found] at taken
    exact taken
  · obtain ⟨-, -, split, -⟩ := kept 3 (by rw [found]; decide)
    rw [found] at split
    exact split

end Transducer.Table
