import Mathlib.Data.Prod.Lex
import Mathlib.Order.Lattice.Nat
import Transducer.Proofs.Search

/-!
# The order of discovery

A search takes states off its queue in the order in which it put them there, and
looks at the rules of each in the order in which they were declared. So the
states that it finds are ordered twice: by how far they are from the start, and
by where they were seen first.

* `reachable_eq_eraseDups`: the list of reachable states reproduces itself. It
  is the start, followed by where its own states lead to, each state at its
  first mention.
* `Sightings`: the rules that lead to a state from the states of a list.
* `FirstPlaces`: where things are seen first, if they are seen one after the
  other.
* `exists_first_sightings`: along the list, the first sightings increase.
* `pairwise_distance`: along the list, the distance from the start does not
  decrease.
* `reachable_breadth_first`: all that there is to say about the list.
-/

namespace Transducer.Table

variable {S E A : Type} [DecidableEq S] [Hashable S] [DecidableEq E] [Hashable E]

/-! ## The list reproduces itself -/

namespace Search

/-- What has been discovered is what the states that left the queue lead to, in
the order of their rules. -/
def Reproduces (t : Table S E A) (start : S) (f : Search S) : Prop :=
  ∃ done, f.order.toList = done ++ f.queue ∧
    f.order.toList = (start :: done.flatMap t.successors).eraseDups

variable {t : Table S E A} {start : S} {f : Search S}

/-- Which states are unseen can be read from the order, or from any list that
the order was made of. -/
theorem Invariant.unseen_eq (inv : Invariant t start f) {mentioned : List S}
    (order : f.order.toList = mentioned.eraseDups) (states : List S) :
    f.unseen states = (states.removeAll mentioned).eraseDups := by
  rw [unseen, List.removeAll]
  congr 1
  refine List.filter_congr fun state _ => ?_
  rw [Bool.eq_iff_iff, decide_eq_true_iff, inv.mem_seen, order, List.mem_eraseDups]
  simp

theorem Reproduces.init (t : Table S E A) (start : S) : Reproduces t start (Search.start start) :=
  ⟨[], rfl, rfl⟩

theorem Reproduces.step (inv : Invariant t start f) (reproduces : Reproduces t start f) :
    Reproduces t start (f.step t) := by
  cases queue : f.queue with
  | nil =>
      rw [step_of_idle queue]
      exact reproduces
  | cons state rest =>
      obtain ⟨done, split, order⟩ := reproduces
      rw [queue] at split
      refine ⟨done ++ [state], ?_, ?_⟩
      · rw [order_step queue, queue_step queue, split]
        simp
      · rw [order_step queue, inv.unseen_eq order, List.flatMap_append, ← List.cons_append,
          List.eraseDups_append, ← order]
        simp

theorem Reproduces.run (inv : Invariant t start f) (reproduces : Reproduces t start f) :
    Reproduces t start (f.run t) := by
  fun_induction Search.run t f with
  | case1 f idle => exact reproduces
  | case2 f busy ih => exact ih inv.step (reproduces.step inv)

end Search

theorem reachable_eq_eraseDups (t : Table S E A) (start : S) :
    t.reachable start = (start :: (t.reachable start).flatMap t.successors).eraseDups := by
  have inv := Search.Invariant.init t start
  obtain ⟨done, split, order⟩ := (Search.Reproduces.init t start).run inv
  rw [inv.run.2, List.append_nil] at split
  rw [split] at order
  rw [reachable, split]
  exact order

/-- After the start come the states that are mentioned for the first time. -/
theorem reachable_eq_cons (t : Table S E A) (start : S) :
    t.reachable start =
      start :: (((t.reachable start).flatMap t.successors).filter (· ≠ start)).eraseDups := by
  conv => lhs; rw [reachable_eq_eraseDups, List.eraseDups_cons]
  congr 2
  refine List.filter_congr fun state _ => ?_
  rw [Bool.eq_iff_iff]
  simp

/-! ## Sightings -/

/-- Where a state is seen from the states of a list. The first number is the
position of a state in the list, and the second one the position of a rule that
leads from this state to the one that is seen. -/
def Sightings (t : Table S E A) (states : List S) (target : S) : Set (ℕ ×ₗ ℕ) :=
  {place | ∃ r, states[(ofLex place).1]? = some r.source ∧ t.rules[(ofLex place).2]? = some r ∧
    r.target = target}

/-- All sightings from the states of a list, in order, with the states that are
seen. -/
def allSightings (t : Table S E A) (states : List S) : List ((ℕ ×ₗ ℕ) × S) :=
  states.zipIdx.flatMap fun (state, i) =>
    (t.rules.toList.zipIdx.filter (·.1.source = state)).map fun (r, j) => (toLex (i, j), r.target)

theorem mem_allSightings (t : Table S E A) (states : List S) (place : ℕ ×ₗ ℕ) (target : S) :
    (place, target) ∈ t.allSightings states ↔ place ∈ t.Sightings states target := by
  simp only [allSightings, List.mem_flatMap, List.mem_map, List.mem_filter, Prod.exists,
    List.mem_zipIdx_iff_getElem?, decide_eq_true_iff, Array.getElem?_toList, Prod.mk.injEq]
  constructor
  · rintro ⟨_, i, state, r, j, ⟨rule, rfl⟩, rfl, seen⟩
    exact ⟨r, state, rule, seen⟩
  · rintro ⟨r, state, rule, seen⟩
    exact ⟨r.source, _, state, r, _, ⟨rule, rfl⟩, rfl, seen⟩

/-- The states that are seen are where the states of the list lead to. -/
theorem map_snd_allSightings (t : Table S E A) (states : List S) :
    (t.allSightings states).map Prod.snd = states.flatMap t.successors := by
  conv => rhs; rw [← List.zipIdx_map_fst 0 states, List.flatMap_map]
  rw [allSightings, List.map_flatMap]
  congr 1
  funext (state, i)
  conv => rhs; rw [successors, leaving, ← List.zipIdx_map_fst 0 t.rules.toList, List.filter_map]
  rw [List.map_map, List.map_map]
  rfl

theorem pairwise_zipIdx {α : Type} (items : List α) :
    items.zipIdx.Pairwise fun a b => a.2 < b.2 := by
  rw [← List.pairwise_map, List.zipIdx_map_snd]
  exact List.pairwise_lt_range'

theorem pairwise_allSightings (t : Table S E A) (states : List S) :
    (t.allSightings states).Pairwise fun a b => a.1 < b.1 := by
  rw [allSightings, List.pairwise_flatMap]
  constructor
  · -- From one state, the rules come in their order.
    rintro ⟨state, i⟩ _
    rw [List.pairwise_map]
    refine (pairwise_zipIdx _).filter _ |>.imp fun later => ?_
    exact Prod.Lex.toLex_lt_toLex.mpr (.inr ⟨rfl, later⟩)
  · refine (pairwise_zipIdx states).imp fun later => ?_
    intro a inFirst b inSecond
    obtain ⟨_, _, rfl⟩ := List.mem_map.mp inFirst
    obtain ⟨_, _, rfl⟩ := List.mem_map.mp inSecond
    exact Prod.Lex.toLex_lt_toLex.mpr (.inl later)

/-! ### First sightings

The list of all sightings grows at its end. A state that is seen again keeps its
place, and a new one gets the last place. -/

omit [Hashable S] in
/-- Every state that is seen has its first place, and the order of first mention
is the order of these places. -/
structure FirstPlaces (seen : List ((ℕ ×ₗ ℕ) × S)) (first : S → ℕ ×ₗ ℕ) : Prop where
  least : ∀ state ∈ seen.map Prod.snd, IsLeast {place | (place, state) ∈ seen} (first state)
  sorted : (seen.map Prod.snd).eraseDups.Pairwise fun x y => first x < first y

namespace FirstPlaces

omit [Hashable S]

variable {seen : List ((ℕ ×ₗ ℕ) × S)} {first : S → ℕ ×ₗ ℕ} {place : ℕ ×ₗ ℕ} {state : S}

theorem least_append (places : FirstPlaces seen first) (after : ∀ earlier ∈ seen, earlier.1 < place)
    {other : S} (mentioned : other ∈ seen.map Prod.snd) :
    IsLeast {p | (p, other) ∈ seen ++ [(place, state)]} (first other) := by
  obtain ⟨member, lower⟩ := places.least other mentioned
  refine ⟨List.mem_append_left _ member, ?_⟩
  intro p sighted
  rcases List.mem_append.mp sighted with old | new
  · exact lower old
  · cases List.mem_singleton.mp new
    exact (after _ member).le

theorem append_known (places : FirstPlaces seen first) (after : ∀ earlier ∈ seen, earlier.1 < place)
    (known : state ∈ seen.map Prod.snd) : FirstPlaces (seen ++ [(place, state)]) first where
  least other mentioned := by
    rw [List.map_append] at mentioned
    rcases List.mem_append.mp mentioned with old | new
    · exact places.least_append after old
    · cases List.mem_singleton.mp new
      exact places.least_append after known
  sorted := by
    have nothing : [state].removeAll (seen.map Prod.snd) = [] := by
      simpa [List.removeAll] using known
    rw [List.map_append, List.eraseDups_append, List.map_singleton, nothing]
    simpa using places.sorted

theorem append_new (places : FirstPlaces seen first) (after : ∀ earlier ∈ seen, earlier.1 < place)
    (unknown : state ∉ seen.map Prod.snd) :
    FirstPlaces (seen ++ [(place, state)]) (Function.update first state place) := by
  have kept : ∀ other ∈ seen.map Prod.snd,
      Function.update first state place other = first other := by
    intro other mentioned
    refine Function.update_of_ne ?_ _ _
    rintro rfl
    exact unknown mentioned
  constructor
  · intro other mentioned
    rw [List.map_append] at mentioned
    rcases List.mem_append.mp mentioned with old | new
    · rw [kept other old]
      exact places.least_append after old
    · cases List.mem_singleton.mp new
      rw [Function.update_self]
      refine ⟨List.mem_append_right _ (List.mem_singleton.mpr rfl), ?_⟩
      intro p sighted
      rcases List.mem_append.mp sighted with old | new
      · exact absurd (List.mem_map_of_mem old) unknown
      · cases List.mem_singleton.mp new
        exact le_rfl
  · have added : [state].removeAll (seen.map Prod.snd) = [state] := by
      simpa [List.removeAll] using unknown
    rw [List.map_append, List.eraseDups_append, List.map_singleton, added, List.pairwise_append]
    refine ⟨?_, List.pairwise_singleton _ _, ?_⟩
    · refine places.sorted.imp_of_mem fun {x y} memberX memberY smaller => ?_
      rwa [kept x (List.mem_eraseDups.mp memberX), kept y (List.mem_eraseDups.mp memberY)]
    · intro other old new isNew
      have mentioned := List.mem_eraseDups.mp old
      cases List.mem_singleton.mp (List.mem_eraseDups.mp isNew)
      rw [kept other mentioned, Function.update_self]
      exact after _ (places.least other mentioned).1

theorem exists_of_pairwise (seen : List ((ℕ ×ₗ ℕ) × S))
    (increasing : seen.Pairwise fun a b => a.1 < b.1) : ∃ first, FirstPlaces seen first := by
  induction seen using List.reverseRecOn with
  | nil => exact ⟨fun _ => default, by simp, by simp⟩
  | append_singleton seen last ih =>
      obtain ⟨increasing, -, after⟩ := List.pairwise_append.mp increasing
      have after : ∀ earlier ∈ seen, earlier.1 < last.1 := fun earlier member =>
        after earlier member last (List.mem_singleton.mpr rfl)
      obtain ⟨first, places⟩ := ih increasing
      by_cases known : last.2 ∈ seen.map Prod.snd
      · exact ⟨first, places.append_known after known⟩
      · exact ⟨_, places.append_new after known⟩

end FirstPlaces

/-- Every state after the start has a first sighting from the states of the
list, and the list is in the order of these. -/
theorem exists_first_sightings (t : Table S E A) (start : S) :
    ∃ first : S → ℕ ×ₗ ℕ,
      (∀ state ∈ (t.reachable start).tail,
        IsLeast (t.Sightings (t.reachable start) state) (first state)) ∧
      (t.reachable start).tail.Pairwise fun x y => first x < first y := by
  have others : (t.reachable start).tail =
      (((t.allSightings (t.reachable start)).filter (·.2 ≠ start)).map Prod.snd).eraseDups := by
    conv => lhs; rw [reachable_eq_cons, ← map_snd_allSightings, List.filter_map, List.tail_cons]
    rfl
  obtain ⟨first, least, sorted⟩ := FirstPlaces.exists_of_pairwise _
    ((t.pairwise_allSightings (t.reachable start)).filter (·.2 ≠ start))
  refine ⟨first, ?_, ?_⟩
  · intro state member
    rw [others, List.mem_eraseDups] at member
    have least := least state member
    obtain ⟨⟨_, _⟩, sighted, rfl⟩ := List.mem_map.mp member
    have notStart := (List.mem_filter.mp sighted).2
    simpa only [List.mem_filter, mem_allSightings, notStart, and_true, Set.ofPred_mem_eq]
      using least
  · rw [others]
    exact sorted

/-! ## Distances -/

/-- The second state can be reached from the first one by this many rules. -/
inductive Hops (t : Table S E A) (source : S) : Nat → S → Prop
  | none : Hops t source 0 source
  | more {n : Nat} {middle target : S} :
      Hops t source n middle → t.Edge middle target → Hops t source (n + 1) target

/-- The least number of rules that lead from the one state to the other, if any
do. -/
noncomputable def distance (t : Table S E A) (source target : S) : Nat :=
  sInf {n | t.Hops source n target}

variable {t : Table S E A} {source middle target : S}

theorem exists_hops_iff :
    (∃ n, t.Hops source n target) ↔ Relation.ReflTransGen t.Edge source target := by
  constructor
  · rintro ⟨n, hops⟩
    induction hops with
    | none => exact .refl
    | more _ edge ih => exact ih.tail edge
  · intro path
    induction path with
    | refl => exact ⟨0, .none⟩
    | tail _ edge ih =>
        obtain ⟨n, hops⟩ := ih
        exact ⟨n + 1, hops.more edge⟩

theorem isLeast_distance (path : Relation.ReflTransGen t.Edge source target) :
    IsLeast {n | t.Hops source n target} (t.distance source target) :=
  ⟨Nat.sInf_mem (exists_hops_iff.mpr path), fun _ hops => Nat.sInf_le hops⟩

theorem distance_self (t : Table S E A) (source : S) : t.distance source source = 0 :=
  Nat.eq_zero_of_le_zero (Nat.sInf_le .none)

/-- A rule leads at most one further. -/
theorem distance_le_succ (path : Relation.ReflTransGen t.Edge source middle)
    (edge : t.Edge middle target) : t.distance source target ≤ t.distance source middle + 1 :=
  Nat.sInf_le ((isLeast_distance path).1.more edge)

/-- On a shortest path, the last rule leads exactly one further. -/
theorem exists_edge_of_ne (path : Relation.ReflTransGen t.Edge source target)
    (other : target ≠ source) :
    ∃ middle, Relation.ReflTransGen t.Edge source middle ∧ t.Edge middle target ∧
      t.distance source target = t.distance source middle + 1 := by
  have shortest := (isLeast_distance path).1
  generalize length : t.distance source target = n at shortest
  cases shortest with
  | none => exact absurd rfl other
  | more hops edge =>
      have path := exists_hops_iff.mp ⟨_, hops⟩
      refine ⟨_, path, edge, le_antisymm ?_ ?_⟩
      · rw [← length]
        exact distance_le_succ path edge
      · exact Nat.succ_le_succ ((isLeast_distance path).2 hops)

/-- If a state of the list leads to the later one of two others, then this state
or one before it leads to the earlier one. -/
theorem exists_edge_of_before {start x y z : S} {i j k : Nat} (before : i < j)
    (hereX : (t.reachable start)[i + 1]? = some x) (hereY : (t.reachable start)[j + 1]? = some y)
    (hereZ : (t.reachable start)[k]? = some z) (edge : t.Edge z y) :
    ∃ l ≤ k, ∃ w, (t.reachable start)[l]? = some w ∧ t.Edge w x := by
  obtain ⟨first, least, sorted⟩ := t.exists_first_sightings start
  rw [← List.getElem?_tail] at hereX hereY
  have smaller : first x < first y := by
    obtain ⟨insideX, rfl⟩ := List.getElem?_eq_some_iff.mp hereX
    obtain ⟨insideY, rfl⟩ := List.getElem?_eq_some_iff.mp hereY
    exact List.pairwise_iff_getElem.mp sorted i j insideX insideY before
  obtain ⟨r, member, rfl, rfl⟩ := edge
  obtain ⟨n, rule⟩ := List.mem_iff_getElem?.mp member
  have sighted : toLex (k, n) ∈ t.Sightings (t.reachable start) r.target :=
    ⟨r, hereZ, by simpa using rule, rfl⟩
  have bound : first x ≤ toLex (k, n) :=
    smaller.le.trans ((least _ (List.mem_of_getElem? hereY)).2 sighted)
  obtain ⟨r', hereW, rule', target⟩ := (least x (List.mem_of_getElem? hereX)).1
  exact ⟨_, Prod.Lex.monotone_fst _ _ bound, r'.source, hereW, r',
    by simpa using Array.mem_of_getElem? rule', rfl, target⟩

theorem getElem?_reachable_zero (t : Table S E A) (start : S) :
    (t.reachable start)[0]? = some start := by
  rw [reachable_eq_cons, List.getElem?_cons_zero]

theorem distance_le_of_before {start x y : S} {i j : Nat} (before : i < j)
    (hereX : (t.reachable start)[i]? = some x) (hereY : (t.reachable start)[j]? = some y) :
    t.distance start x ≤ t.distance start y := by
  have path {state : S} {n : Nat} (here : (t.reachable start)[n]? = some state) :
      Relation.ReflTransGen t.Edge start state :=
    (mem_reachable t start state).mp (List.mem_of_getElem? here)
  -- By induction on the distance of the later state: what leads to it on a
  -- shortest path is closer to the start.
  induction length : t.distance start y using Nat.strong_induction_on generalizing x y i j with
  | _ n ih =>
      subst length
      cases i with
      | zero =>
          rw [getElem?_reachable_zero, Option.some.injEq] at hereX
          rw [← hereX, distance_self]
          exact Nat.zero_le _
      | succ i =>
          obtain ⟨j, rfl⟩ := Nat.exists_eq_add_of_lt (i.succ_pos.trans before)
          rw [Nat.zero_add] at hereY before
          have other : y ≠ start := by
            rintro rfl
            have same := hereY.trans (getElem?_reachable_zero t y).symm
            have inside := (List.getElem?_eq_some_iff.mp hereY).1
            exact absurd ((List.getElem?_inj inside (nodup_reachable t y)).mp same) j.succ_ne_zero
          obtain ⟨z, pathZ, edge, length⟩ := exists_edge_of_ne (path hereY) other
          obtain ⟨k, hereZ⟩ := List.mem_iff_getElem?.mp ((mem_reachable t start z).mpr pathZ)
          obtain ⟨l, notLater, w, hereW, edgeW⟩ :=
            exists_edge_of_before (Nat.lt_of_succ_lt_succ before) hereX hereY hereZ edge
          have closer : t.distance start w ≤ t.distance start z := by
            rcases notLater.lt_or_eq with earlier | rfl
            · exact ih _ (by omega) earlier hereW hereZ rfl
            · rw [hereW, Option.some.injEq] at hereZ
              rw [hereZ]
          calc t.distance start x ≤ t.distance start w + 1 := distance_le_succ (path hereW) edgeW
            _ ≤ t.distance start z + 1 := Nat.succ_le_succ closer
            _ = t.distance start y := length.symm

theorem pairwise_distance (t : Table S E A) (start : S) :
    (t.reachable start).Pairwise fun x y => t.distance start x ≤ t.distance start y := by
  rw [List.pairwise_iff_getElem]
  intro i j insideX insideY before
  exact distance_le_of_before before (List.getElem?_eq_getElem insideX)
    (List.getElem?_eq_getElem insideY)

/-! ## The list of reachable states -/

/-- The list begins with the start, no state stands in it twice, and the states
in it are those that lie at the end of a path of rules. It goes from the closer
states to those further away. Among the states after the start, those come first
that are seen first, where a state is seen from every state of the list in turn,
through every rule in turn. -/
theorem reachable_breadth_first (t : Table S E A) (start : S) :
    let order := t.reachable start
    order.head? = some start ∧
    order.Nodup ∧
    (∀ state, state ∈ order ↔ Relation.ReflTransGen t.Edge start state) ∧
    (∀ state ∈ order, IsLeast {n | t.Hops start n state} (t.distance start state)) ∧
    (order.Pairwise fun x y => t.distance start x ≤ t.distance start y) ∧
    ∃ first : S → ℕ ×ₗ ℕ,
      (∀ state ∈ order.tail, IsLeast (t.Sightings order state) (first state)) ∧
      order.tail.Pairwise fun x y => first x < first y := by
  intro order
  refine ⟨?_, nodup_reachable t start, mem_reachable t start, ?_, pairwise_distance t start,
    exists_first_sightings t start⟩
  · rw [List.head?_eq_getElem?]
    exact getElem?_reachable_zero t start
  · intro state member
    exact isLeast_distance ((mem_reachable t start state).mp member)

end Transducer.Table
