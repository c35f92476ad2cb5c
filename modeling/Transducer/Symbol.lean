/-!
# Symbols

States, events and actions are symbols. A symbol is told apart by equality
alone. The name it is shown under is a separate matter, and two symbols may
share one.

* `Named`: types whose values have a name.
* `Alphabet`: a closed set of symbols, listed in the order they were declared.
* `Tagged`: open symbols, where any text is a symbol.
* `Declared`: the symbol set that a list of declarations makes.
-/

namespace Transducer

class Named (α : Type) where
  name : α → String

/-- A closed set of symbols. Every symbol has an identifier and may have a
label. A label hides the identifier wherever the symbol is written. -/
class Alphabet (α : Type) where
  all : List α
  ident : α → String
  label? : α → Option String := fun _ => none
  mem_all : ∀ a : α, a ∈ all

namespace Alphabet

variable {α : Type} [Alphabet α]

def name (a : α) : String :=
  (label? a).getD (ident a)

/-- The first symbol with the given name. -/
def find? (name : String) : Option α :=
  (all : List α).find? fun a => Alphabet.name a == name

variable (α) in
def names : List String :=
  (all : List α).map Alphabet.name

end Alphabet

instance {α : Type} [Alphabet α] : Named α :=
  ⟨Alphabet.name⟩

/-- As text, a symbol of a closed set is its name. -/
instance {α : Type} [Alphabet α] : ToString α :=
  ⟨Alphabet.name⟩

/-- An open symbol: any text. Its name stops before the first `#`, so `A#1` and
`A#2` are different symbols that are both shown as `A`. -/
structure Tagged where
  text : String
deriving DecidableEq, Hashable, Repr

instance : Named Tagged :=
  ⟨fun a => String.ofList (a.text.toList.takeWhile (· ≠ '#'))⟩

/-! ## Declared symbol sets -/

/-- An identifier, with or without a label. -/
structure Declaration where
  ident : String
  label? : Option String := none
deriving DecidableEq, Repr

/-- One symbol for every declaration, in the same order. -/
structure Declared (declarations : List Declaration) where
  index : Fin declarations.length
deriving DecidableEq, Hashable, Repr

instance (declarations : List Declaration) : Alphabet (Declared declarations) where
  all := (List.finRange declarations.length).map .mk
  ident a := (declarations.get a.index).ident
  label? a := (declarations.get a.index).label?
  mem_all a := List.mem_map.mpr ⟨a.index, List.mem_finRange a.index, rfl⟩

end Transducer
