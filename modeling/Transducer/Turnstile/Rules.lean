import Transducer.Table.Draft

/-!
# The symbols and the rules of the turnstile

Two coins unlock the gate for one passage. A passage without them raises an
alarm, which only a reset ends. Coins beyond the second are kept with thanks.
-/

namespace Transducer.Turnstile

/-! ## Symbols -/

inductive State where
  /-- Locked, and no coin inserted. -/
  | locked0
  /-- Locked, and one coin inserted. -/
  | locked1
  | unlocked
  | alarming
deriving DecidableEq, Hashable, Repr

inductive Event where
  | coin
  | pass
  | reset
deriving DecidableEq, Hashable, Repr

inductive Action where
  | unlock
  | lock
  | alarmOn
  | alarmOff
  | thankYou
deriving DecidableEq, Hashable, Repr

instance : Alphabet State where
  all := [.locked0, .locked1, .unlocked, .alarming]
  ident
    | .locked0 => "Locked0"
    | .locked1 => "Locked1"
    | .unlocked => "Unlocked"
    | .alarming => "Alarming"
  mem_all a := by cases a <;> decide

instance : Alphabet Event where
  all := [.coin, .pass, .reset]
  ident
    | .coin => "Coin"
    | .pass => "Pass"
    | .reset => "Reset"
  mem_all a := by cases a <;> decide

instance : Alphabet Action where
  all := [.unlock, .lock, .alarmOn, .alarmOff, .thankYou]
  ident
    | .unlock => "Unlock"
    | .lock => "Lock"
    | .alarmOn => "AlarmOn"
    | .alarmOff => "AlarmOff"
    | .thankYou => "Thankyou"
  label?
    | .unlock => some "unlock"
    | .lock => some "lock"
    | .alarmOn => some "alarmOn"
    | .alarmOff => some "alarmOff"
    | .thankYou => some "thankyou"
  mem_all a := by cases a <;> decide

/-! ## Rules -/

def rules : List (Rule State Event Action) := [
  ⟨.locked0, .coin, .locked1, []⟩,
  ⟨.locked1, .coin, .unlocked, [.unlock]⟩,
  ⟨.unlocked, .coin, .unlocked, [.thankYou]⟩,
  ⟨.locked0, .pass, .alarming, [.alarmOn]⟩,
  ⟨.locked1, .pass, .alarming, [.alarmOn]⟩,
  ⟨.unlocked, .pass, .locked0, [.lock]⟩,
  ⟨.alarming, .reset, .locked0, [.alarmOff, .lock]⟩]

def table : Table State Event Action :=
  .ofRules rules.toArray

/-- The rules pass the check for repeated keys. -/
theorem build_rules : (Table.Draft.empty.addAll rules).build = .ok table := by
  simp [Table.Draft.build, Table.Draft.buildLogged, Table.Draft.addAll, Table.Draft.empty,
    Table.Draft.firstRepeat?, rules, table, Rule.key]

end Transducer.Turnstile
