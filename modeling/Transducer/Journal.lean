import Transducer.Instant

/-!
# Journals

A journal is the list of moves that a machine made, oldest first. Nothing in a
journal requires that one move starts where the one before it ended.
-/

namespace Transducer

/-- One step from a state to a state, or back to the same one. -/
structure Move (S E : Type) where
  source : S
  target : S
  event : E
  time : Instant
deriving DecidableEq

structure Journal (S E : Type) where
  moves : Array (Move S E)
deriving DecidableEq

namespace Journal

variable {S E : Type}

def empty : Journal S E :=
  ⟨#[]⟩

def push (j : Journal S E) (move : Move S E) : Journal S E :=
  ⟨j.moves.push move⟩

def size (j : Journal S E) : Nat :=
  j.moves.size

def isEmpty (j : Journal S E) : Bool :=
  j.moves.isEmpty

def toList (j : Journal S E) : List (Move S E) :=
  j.moves.toList

/-- The source of the first move, then the target of every move. -/
def path (j : Journal S E) : List S :=
  match j.toList with
  | [] => []
  | first :: rest => first.source :: (first :: rest).map Move.target

def events (j : Journal S E) : List E :=
  j.toList.map Move.event

/-- The time from the first move to the last. There is none for an empty
journal, or when the time comes out negative. -/
def duration? (j : Journal S E) : Option Span := do
  let first ← j.moves[0]?
  let last ← j.moves.back?
  first.time.span? last.time

@[simp]
theorem toList_empty : (empty : Journal S E).toList = [] :=
  rfl

@[simp]
theorem toList_push (j : Journal S E) (move : Move S E) :
    (j.push move).toList = j.toList ++ [move] := by
  simp [push, toList]

end Journal

end Transducer
