import Transducer.Fleet
import Transducer.Proofs.Recording

/-!
# Machines of a fleet do not notice each other

The machines of a fleet share a table and nothing else. So each of them does
what it would do if the messages to the others were never sent.

* `Fleet.member?_execute_self`, `Fleet.member?_execute_of_ne`: what one message
  does to every member.
* `Fleet.member?_after`, `Fleet.exchangesWith_session`: what a session does to a
  member is what the commands to this member do to it alone.
* `Fleet.after_filter_isSome`: messages to nobody may be left out.
* `Fleet.members_do_not_interfere`: all of this for a fleet that was launched
  over a table.
-/

namespace Transducer.Fleet

variable {S E A K : Type}

theorem commandsTo_cons_self (message : Message E K) (rest : List (Message E K)) :
    commandsTo message.address (message :: rest) =
      message.command :: commandsTo message.address rest := by
  rw [commandsTo, List.filter_cons_of_pos (by simp), List.map_cons, commandsTo]

theorem commandsTo_cons_of_ne {message : Message E K} {i : Nat} (other : message.address ≠ i)
    (rest : List (Message E K)) : commandsTo i (message :: rest) = commandsTo i rest := by
  rw [commandsTo, List.filter_cons_of_neg (by simpa using other), commandsTo]

variable [DecidableEq S] [Hashable S] [DecidableEq E] [Hashable E]

theorem exchangesWith_cons_self (message : Message E K)
    (run? : Option (Run S E A K (Machine.Answer S E))) (rest : List (Reply S E A K)) :
    exchangesWith message.address (⟨message, run?⟩ :: rest) =
      (run?.map (Machine.Exchange.mk message.command)).toList ++
        exchangesWith message.address rest := by
  have concerned : Reply.exchangeWith? message.address ⟨message, run?⟩ =
      run?.map (Machine.Exchange.mk message.command) :=
    if_pos rfl
  rw [exchangesWith, List.filterMap_cons, concerned]
  cases run? with
  | none => rfl
  | some run => rfl

theorem exchangesWith_cons_of_ne {reply : Reply S E A K} {i : Nat}
    (other : reply.message.address ≠ i) (rest : List (Reply S E A K)) :
    exchangesWith i (reply :: rest) = exchangesWith i rest := by
  have unconcerned : reply.exchangeWith? i = none := if_neg other
  rw [exchangesWith, List.filterMap_cons_none unconcerned, exchangesWith]

/-! ## Members -/

theorem member?_replace_self {fleet : Fleet S E A K} {i : Nat} {old : Machine S E A K}
    (present : fleet.member? i = some old) (m : Machine S E A K) :
    (fleet.replace i m).member? i = some m := by
  have inside : i < fleet.members.size := by
    by_contra outside
    rw [member?, Array.getElem?_eq_none (Nat.le_of_not_lt outside)] at present
    contradiction
  rw [member?, replace, Array.getElem?_setIfInBounds_self_of_lt inside]
  rfl

theorem member?_replace_of_ne (fleet : Fleet S E A K) {i j : Nat} (other : i ≠ j)
    (m : Machine S E A K) : (fleet.replace i m).member? j = fleet.member? j := by
  rw [member?, replace, Array.getElem?_setIfInBounds_ne other, member?]

theorem member?_launch (t : Table S E A) (orders : List (Order S E A K)) (i : Nat) :
    (launch t orders).member? i = orders[i]?.bind (·.machine? t) := by
  rw [member?, launch, List.getElem?_toArray, List.getElem?_map]
  cases orders[i]? with
  | none => rfl
  | some order => rfl

/-- Whichever way a machine was come by, it is a machine over the table it was
ordered for. -/
theorem table_of_machine? {order : Order S E A K} {t : Table S E A} {m : Machine S E A K}
    (made : order.machine? t = some m) : m.table = t := by
  unfold Order.machine? at made
  cases origin : order.origin with
  | start state =>
      rw [origin] at made
      cases made
      rfl
  | startRecording state =>
      rw [origin] at made
      cases made
      rfl
  | setup calls =>
      simp only [origin, Machine.Setup.build] at made
      cases initial : (Machine.Setup.ofCalls calls).initial with
      | none =>
          rw [initial] at made
          contradiction
      | some state =>
          simp only [initial] at made
          split at made
          · cases made
            rfl
          · cases made
            rfl

variable [Named S] [Named E]

/-! ## One message -/

theorem execute_of_none {fleet : Fleet S E A K} {i : Nat} (absent : fleet.member? i = none)
    (command : Machine.Command E K) : fleet.execute i command = (fleet, none) := by
  rw [execute, absent]

theorem execute_of_some {fleet : Fleet S E A K} {i : Nat} {m : Machine S E A K}
    (present : fleet.member? i = some m) (command : Machine.Command E K) :
    fleet.execute i command =
      (fleet.replace i (m.execute command).machine, some (m.execute command)) := by
  rw [execute, present]

/-- The member that a message is addressed to executes the command. -/
theorem member?_execute_self (fleet : Fleet S E A K) (i : Nat) (command : Machine.Command E K) :
    (fleet.execute i command).1.member? i =
      (fleet.member? i).map fun m => (m.execute command).machine := by
  cases present : fleet.member? i with
  | none =>
      rw [execute_of_none present]
      exact present
  | some m =>
      rw [execute_of_some present]
      exact member?_replace_self present _

/-- The other members stay as they are. -/
theorem member?_execute_of_ne (fleet : Fleet S E A K) {i j : Nat} (other : i ≠ j)
    (command : Machine.Command E K) :
    (fleet.execute i command).1.member? j = fleet.member? j := by
  cases present : fleet.member? i with
  | none => rw [execute_of_none present]
  | some m =>
      rw [execute_of_some present]
      exact member?_replace_of_ne fleet other _

theorem isSome_member?_execute (fleet : Fleet S E A K) (i j : Nat)
    (command : Machine.Command E K) :
    ((fleet.execute i command).1.member? j).isSome = (fleet.member? j).isSome := by
  by_cases same : i = j
  · subst same
    rw [member?_execute_self, Option.isSome_map]
  · rw [member?_execute_of_ne fleet same]

@[simp]
theorem table_execute (fleet : Fleet S E A K) (i : Nat) (command : Machine.Command E K) :
    (fleet.execute i command).1.table = fleet.table := by
  cases present : fleet.member? i with
  | none => rw [execute_of_none present]
  | some m =>
      rw [execute_of_some present]
      rfl

/-! ## Sessions -/

/-- A member ends up where the commands to it take it, and a place without a
member stays empty. -/
theorem member?_after (fleet : Fleet S E A K) (messages : List (Message E K)) (i : Nat) :
    (fleet.after messages).member? i =
      (fleet.member? i).map (·.after (commandsTo i messages)) := by
  induction messages generalizing fleet with
  | nil =>
      show fleet.member? i = (fleet.member? i).map id
      rw [Option.map_id, id]
  | cons message rest ih =>
      rw [after_cons, ih]
      by_cases addressed : message.address = i
      · subst addressed
        rw [member?_execute_self, commandsTo_cons_self, Option.map_map]
        rfl
      · rw [member?_execute_of_ne fleet addressed, commandsTo_cons_of_ne addressed]

/-- The exchanges with a member are those that it has on the commands to it
alone. -/
theorem exchangesWith_session (fleet : Fleet S E A K) (messages : List (Message E K)) (i : Nat) :
    exchangesWith i (fleet.session messages) =
      (fleet.member? i).elim [] (·.session (commandsTo i messages)) := by
  induction messages generalizing fleet with
  | nil => cases fleet.member? i <;> rfl
  | cons message rest ih =>
      rw [session_cons]
      by_cases addressed : message.address = i
      · subst addressed
        rw [exchangesWith_cons_self, ih, member?_execute_self, commandsTo_cons_self]
        cases present : fleet.member? message.address with
        | none =>
            rw [execute_of_none present]
            rfl
        | some m =>
            rw [execute_of_some present]
            rfl
      · rw [exchangesWith_cons_of_ne addressed, ih, member?_execute_of_ne fleet addressed,
          commandsTo_cons_of_ne addressed]

/-- Messages to nobody may be left out. -/
theorem after_filter_isSome (fleet : Fleet S E A K) (messages : List (Message E K)) :
    fleet.after (messages.filter fun message => (fleet.member? message.address).isSome) =
      fleet.after messages := by
  induction messages generalizing fleet with
  | nil => rfl
  | cons message rest ih =>
      cases present : fleet.member? message.address with
      | none =>
          rw [List.filter_cons_of_neg (by simp [present]), ih, after_cons, execute_of_none present]
      | some m =>
          rw [List.filter_cons_of_pos (by simp [present]), after_cons, after_cons, ← ih]
          simp only [isSome_member?_execute]

theorem table_after (fleet : Fleet S E A K) (messages : List (Message E K)) :
    (fleet.after messages).table = fleet.table := by
  induction messages generalizing fleet with
  | nil => rfl
  | cons message rest ih => rw [after_cons, ih, table_execute]

/-- A member never leaves the table that it was launched over. -/
theorem table_of_member?_after {t : Table S E A} {orders : List (Order S E A K)}
    {messages : List (Message E K)} {i : Nat} {m : Machine S E A K}
    (present : ((launch t orders).after messages).member? i = some m) : m.table = t := by
  rw [member?_after, member?_launch, Option.map_eq_some_iff] at present
  obtain ⟨first, launched, rfl⟩ := present
  obtain ⟨order, _, made⟩ := Option.bind_eq_some_iff.mp launched
  rw [Machine.table_after, table_of_machine? made]

/-- However the machines of a fleet were come by, and however the messages to
them are mixed: every exchange with a machine, and so its answers, its calls,
its state and its journal at every point, is the one that the commands to this
machine lead to when there is nobody else. The table stays the same throughout,
for the fleet and for every machine. Messages to a place without a machine have
no effect, and such a place stays empty. -/
theorem members_do_not_interfere (t : Table S E A) (orders : List (Order S E A K))
    (messages : List (Message E K)) :
    let fleet := launch t orders
    let final := fleet.after messages
    (∀ i m, orders[i]?.bind (·.machine? t) = some m →
      exchangesWith i (fleet.session messages) = m.session (commandsTo i messages) ∧
      final.member? i = some (m.after (commandsTo i messages))) ∧
    (final.table = t ∧ ∀ i m, final.member? i = some m → m.table = t) ∧
    (∀ i, orders[i]?.bind (·.machine? t) = none →
      final.member? i = none ∧ ∀ command, final.execute i command = (final, none)) ∧
    fleet.after (messages.filter fun message => (fleet.member? message.address).isSome) =
      final := by
  intro fleet final
  refine ⟨?_, ⟨table_after fleet messages, ?_⟩, ?_, after_filter_isSome fleet messages⟩
  · intro i m ordered
    have present : fleet.member? i = some m := (member?_launch t orders i).trans ordered
    refine ⟨?_, ?_⟩
    · rw [exchangesWith_session, present]
      rfl
    · rw [member?_after, present]
      rfl
  · intro i m present
    exact table_of_member?_after present
  · intro i unmet
    have absent : final.member? i = none := by
      rw [member?_after, member?_launch, unmet]
      rfl
    exact ⟨absent, execute_of_none absent⟩

/-- Two turnstiles get coins and passages in turn. Another one was ordered
without a start state, and the messages to it and to a number that was not given
out are lost. -/
theorem two_turnstiles_do_not_interfere :
    let sink : Sink Turnstile.State Turnstile.Event Turnstile.Action (List Turnstile.Action) :=
      .total (fun action done => done ++ [action]) (fun _ _ done => done)
    let orders : List (Order _ _ _ _) := [
      ⟨.start .locked0, sink, []⟩,
      ⟨.setup [.recording true], sink, []⟩,
      ⟨.setup [.initial .locked1, .recording true, .initial .unlocked], sink, []⟩]
    let messages : List (Message _ _) := [
      ⟨0, .step ⟨.coin, default⟩⟩, ⟨2, .step ⟨.pass, default⟩⟩, ⟨1, .step ⟨.coin, default⟩⟩,
      ⟨7, .journal⟩, ⟨0, .feed [⟨.coin, default⟩, ⟨.coin, default⟩]⟩, ⟨2, .takeJournal⟩]
    let fleet := launch Turnstile.table orders
    exchangesWith 0 (fleet.session messages) =
      (Machine.start Turnstile.table sink [] .locked0).session
        [.step ⟨.coin, default⟩, .feed [⟨.coin, default⟩, ⟨.coin, default⟩]] ∧
    (fleet.after messages).member? 2 =
      some ((Machine.startRecording Turnstile.table sink [] .unlocked).after
        [.step ⟨.pass, default⟩, .takeJournal]) ∧
    (fleet.after messages).member? 1 = none ∧ (fleet.after messages).member? 7 = none := by
  intro sink orders messages fleet
  obtain ⟨alone, _, lost, _⟩ := members_do_not_interfere Turnstile.table orders messages
  exact ⟨(alone 0 _ rfl).1, (alone 2 _ rfl).2, (lost 1 rfl).1, (lost 7 rfl).1⟩

end Transducer.Fleet
