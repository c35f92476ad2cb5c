import Transducer.Journal.Codec
import Transducer.Proofs.Timestamps
import Transducer.Turnstile.Rules

/-!
# Journals read back

What was written as a document is read back as it was. Closed symbols are read
back if their names tell them apart, open symbols and instants always, and
records if their fields are.

* `Codec.normalize`: a document is brought into the form in which its value is
  written.
* `Alphabet.find?_eq_some_iff`: with distinct names, a symbol is found under its
  own name only.
* `Journal.read_back_in_normal_form`: a journal with any symbols that are read
  back is read back, and a document that holds it has a normal form.
-/

namespace Transducer

namespace Codec

variable {α : Type} [Codec α]

/-- Errors hold documents and cannot be compared, but a value that was read
can. -/
instance [DecidableEq α] (document : Document) (a : α) : Decidable (decode document = .ok a) :=
  match decode document with
  | .ok b => decidable_of_iff (b = a) (by simp)
  | .error _ => isFalse (by simp)

/-- A field is read back if the object has it under its key. -/
theorem field?_of_lookup [LawfulCodec α] {fields : List (String × Document)} {key : String} {a : α}
    (found : fields.lookup key = some (encode a)) : field? fields key = .ok (some a) := by
  unfold field?
  rw [found]
  show (decode (encode a)).map some = .ok (some a)
  rw [LawfulCodec.decode_encode]
  rfl

/-! ## Normal forms -/

variable (α) in
/-- Writes anew what a document says. -/
def normalize (document : Document) : Except DecodeError Document :=
  (decode document : Except DecodeError α).map encode

theorem normalize_of_decode {document : Document} {a : α} (read : decode document = .ok a) :
    normalize α document = .ok (encode a) := by
  rw [normalize, read]
  rfl

theorem normalize_encode [LawfulCodec α] (a : α) : normalize α (encode a) = .ok (encode a) :=
  normalize_of_decode (LawfulCodec.decode_encode a)

end Codec

/-! ## Symbols -/

namespace Alphabet

variable (α : Type) [Alphabet α]

/-- No two symbols have the same name. -/
class Distinct : Prop where
  name_injective : ∀ a b : α, name a = name b → a = b

variable {α}

/-- For a given set this can be decided. -/
theorem distinct_of_all
    (distinct : ∀ a ∈ (all : List α), ∀ b ∈ (all : List α), name a = name b → a = b) :
    Distinct α :=
  ⟨fun a b => distinct a (mem_all a) b (mem_all b)⟩

theorem find?_eq_some_iff [Distinct α] {given : String} {a : α} :
    find? given = some a ↔ name a = given := by
  constructor
  · intro found
    have same := List.find?_some found
    exact beq_iff_eq.mp same
  · rintro rfl
    cases found : (find? (name a) : Option α) with
    | none =>
        have other := List.find?_eq_none.mp found a (mem_all a)
        exact absurd (beq_self_eq_true (name a)) other
    | some b =>
        have same := List.find?_some found
        rw [Distinct.name_injective b a (beq_iff_eq.mp same)]

instance [Distinct α] : LawfulCodec α where
  decode_encode a := by
    show decodeName (name a) = .ok a
    rw [decodeName, find?_eq_some_iff.mpr rfl]

end Alphabet

instance : Alphabet.Distinct Turnstile.State :=
  Alphabet.distinct_of_all (by decide)

instance : Alphabet.Distinct Turnstile.Event :=
  Alphabet.distinct_of_all (by decide)

/-! ## Journals -/

instance : LawfulCodec Instant where
  decode_encode t := by
    simp only [Codec.decode, Codec.encode, Instant.parse?_render]

variable {S E : Type} [Codec S] [LawfulCodec S] [Codec E] [LawfulCodec E]

instance : LawfulCodec (Move S E) where
  decode_encode m := by
    show Move.decode (Move.encode m) = .ok m
    rw [Move.encode, Move.decode, Codec.field?_of_lookup (a := m.event) rfl,
      Codec.field?_of_lookup (a := m.source) rfl, Codec.field?_of_lookup (a := m.time) rfl,
      Codec.field?_of_lookup (a := m.target) rfl]
    rfl

instance : LawfulCodec (Journal S E) where
  decode_encode j := by
    show Journal.decode (Journal.encode j) = .ok j
    rw [Journal.encode, Journal.decode, Codec.field?_of_lookup (a := j.toList) rfl]
    rfl

example : LawfulCodec (Journal Turnstile.State Turnstile.Event) :=
  inferInstance

namespace Journal

/-- A journal is read back with the same moves in the same order, whatever their
times. A document in another form is brought into the form in which its journal
is written, and the times in that form are all the universal times of the
supported years. -/
theorem read_back_in_normal_form :
    (∀ j : Journal S E, decode j.encode = .ok j) ∧
    (∀ (document : Document) (j : Journal S E), decode document = .ok j →
      ∃ normal, Codec.normalize (Journal S E) document = .ok normal ∧
        decode normal = .ok j ∧ Codec.normalize (Journal S E) normal = .ok normal) ∧
    (∀ t : Instant, Instant.parse? t.render = some t) ∧
    ∀ w : Instant.Written, w.Universal →
      ∃ t : Instant, Instant.Written.ofChars? t.render.toList = some w := by
  refine ⟨LawfulCodec.decode_encode, ?_, Instant.parse?_render, ?_⟩
  · intro document j read
    exact ⟨j.encode, Codec.normalize_of_decode read, LawfulCodec.decode_encode j,
      Codec.normalize_encode j⟩
  · intro w universal
    obtain ⟨t, rfl⟩ := Instant.exists_written universal
    refine ⟨t, ?_⟩
    rw [Instant.render, String.toList_ofList]
    exact t.ofChars?_toChars

/-- Two moves that do not follow on each other: one in the second 60 of the
first minute of the supported years, the other in the last nanosecond of
them. -/
def farApart : Journal Turnstile.State Tagged :=
  ⟨#[⟨.alarming, .locked1, ⟨"A#1"⟩, ⟨Calendar.daysBefore Instant.firstYear, 59, 1999999999,
      by decide, by decide, by decide, by decide, by decide⟩⟩,
    ⟨.unlocked, .unlocked, ⟨"A#2"⟩, ⟨Calendar.daysBefore (Instant.lastYear + 1) - 1, 86399,
      1999999999, by decide, by decide, by decide, by decide, by decide⟩⟩]⟩

/-- The same journal in lists, with local times. -/
def farApartLocally : Document :=
  .list [.list [
    .list [.text "Alarming", .object [("Locked1", .null)], .text "A#1",
      .text "-262143-1-1t00:30:60.999999999+00:30"],
    .list [.text "Unlocked", .text "Unlocked", .text "A#2",
      .text " +262142-12-31 22 :59:60.9999999994 -0100"]]]

theorem far_apart_read_back :
    decode farApart.encode = .ok farApart ∧
    decode farApartLocally = .ok farApart ∧
    ∃ normal, Codec.normalize (Journal Turnstile.State Tagged) farApartLocally = .ok normal ∧
      decode normal = .ok farApart ∧
      Codec.normalize (Journal Turnstile.State Tagged) normal = .ok normal := by
  have read : decode farApartLocally = .ok farApart := by
    show Codec.decode farApartLocally = .ok farApart
    decide +kernel
  have ⟨back, normal, _⟩ := read_back_in_normal_form (S := Turnstile.State) (E := Tagged)
  exact ⟨back farApart, read, normal farApartLocally farApart read⟩

end Journal

end Transducer
