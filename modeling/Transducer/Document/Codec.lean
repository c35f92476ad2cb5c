import Transducer.Document
import Transducer.Symbol

/-!
# Codecs

A codec writes the values of a type as documents and reads them back. Lists
decode their items from left to right and stop at the first error.

* `Alphabet` symbols are written as their name. They are read from their name,
  or from an object whose only key is the name and whose value there is null.
* `Tagged` symbols are written and read as their whole text.
* `field?`, `require`, `item` and `noMore` read the parts of a record. A record
  is either an object or a list of its fields in declaration order.
-/

namespace Transducer

class Codec (α : Type) where
  encode : α → Document
  decode : Document → Except DecodeError α

class LawfulCodec (α : Type) [Codec α] : Prop where
  decode_encode : ∀ a : α, Codec.decode (Codec.encode a) = .ok a

namespace Codec

variable {α : Type} [Codec α]

/-! ## Fields of an object -/

/-- The value of a field, or nothing if the object has no such field. A field
that holds null is there, and its null is decoded. -/
def field? (fields : List (String × Document)) (key : String) :
    Except DecodeError (Option α) :=
  match fields.lookup key with
  | none => .ok none
  | some d => (decode d).map some

def require {β : Type} (key : String) : Option β → Except DecodeError β
  | none => .error (.missingField key)
  | some b => .ok b

/-! ## Items of a list -/

/-- The first item and what follows it. `size` is the length of the whole list,
which is reported when the list has run out. -/
def item (size : Nat) (expected : Expectation) :
    List Document → Except DecodeError (α × List Document)
  | [] => .error (.invalidLength size expected)
  | d :: rest => (decode d).map fun a => (a, rest)

def noMore (size : Nat) : List Document → Except DecodeError Unit
  | [] => .ok ()
  | _ :: _ => .error (.invalidLength size .fewerItems)

def decodePair {β : Type} [Codec β] : Document → Except DecodeError (α × β)
  | .list items => do
      let (a, rest) ← item items.length (.tuple 2) items
      let (b, rest) ← item items.length (.tuple 2) rest
      noMore items.length rest
      return (a, b)
  | d => .error (.invalidType d (.tuple 2))

def decodeItems : List Document → Except DecodeError (List α)
  | [] => .ok []
  | d :: rest => do
      let a ← decode d
      let as ← decodeItems rest
      return a :: as

end Codec

instance {α : Type} [Codec α] : Codec (List α) where
  encode as := .list (as.map Codec.encode)
  decode
    | .list items => Codec.decodeItems items
    | d => .error (.invalidType d .list)

/-! ## Symbols -/

namespace Alphabet

variable {α : Type} [Alphabet α]

def decodeName (given : String) : Except DecodeError α :=
  match find? given with
  | some a => .ok a
  | none => .error (.unknownVariant given (names α))

def decode : Document → Except DecodeError α
  | .text given => decodeName given
  | .object [(given, value)] => do
      let a ← decodeName given
      match value with
      | .null => return a
      | other => .error (.invalidType other .unit)
  | .object fields => .error (.invalidValue (.object fields) .singleKey)
  | d => .error (.invalidType d .symbol)

end Alphabet

instance {α : Type} [Alphabet α] : Codec α where
  encode a := .text (Alphabet.name a)
  decode := Alphabet.decode

instance : Codec Tagged where
  encode a := .text a.text
  decode
    | .text s => .ok ⟨s⟩
    | d => .error (.invalidType d .text)

instance : LawfulCodec Tagged :=
  ⟨fun _ => rfl⟩

theorem Codec.decodeItems_map_encode {α : Type} [Codec α] [LawfulCodec α] (as : List α) :
    Codec.decodeItems (as.map Codec.encode) = .ok as := by
  induction as with
  | nil => rfl
  | cons a as ih =>
      simp [Codec.decodeItems, LawfulCodec.decode_encode, ih, bind, Except.bind, pure,
        Except.pure]

instance {α : Type} [Codec α] [LawfulCodec α] : LawfulCodec (List α) :=
  ⟨Codec.decodeItems_map_encode⟩

end Transducer
