/-!
# Documents

A document is a value of the interchange format in which rules, symbols and
journals are stored: null, truth values, numbers, text, lists and objects. An
object is read by key, so the order of its fields carries no meaning.

`DecodeError` lists the ways in which a document can fail to describe a value,
and `DecodeError.message` words them. Text is quoted in a message, with a quote,
a backslash and the control characters of ASCII escaped. Every other character
stands for itself.
-/

namespace Transducer.Text

/-- The control characters without an escape of their own are written by code
point, in lower-case hexadecimal without leading zeros. -/
def escaped (c : Char) : List Char :=
  if c = '\x22' then ['\\', '\x22']
  else if c = '\\' then ['\\', '\\']
  else if c = '\n' then ['\\', 'n']
  else if c = '\r' then ['\\', 'r']
  else if c = '\t' then ['\\', 't']
  else if c = '\x00' then ['\\', '0']
  else if c.toNat < 0x20 ∨ c.toNat = 0x7f then
    ['\\', 'u', '\x7b'] ++ Nat.toDigits 16 c.toNat ++ ['\x7d']
  else [c]

def quoted (s : String) : String :=
  String.ofList (['\x22'] ++ s.toList.flatMap escaped ++ ['\x22'])

end Transducer.Text

namespace Transducer

inductive Document where
  | null
  | bool (value : Bool)
  | int (value : Int)
  /-- A number with a decimal point, by its digits. -/
  | decimal (digits : String)
  | text (value : String)
  | list (items : List Document)
  | object (fields : List (String × Document))
deriving Inhabited

/-- What a message says was found. Lists and objects are named without their
contents. -/
def Document.describe : Document → String
  | .null => "null"
  | .bool b => s!"boolean `{b}`"
  | .int n => s!"integer `{n}`"
  | .decimal digits => s!"floating point `{digits}`"
  | .text s => s!"string {Text.quoted s}"
  | .list _ => "sequence"
  | .object _ => "map"

/-- What a decoder was looking for. -/
inductive Expectation where
  /-- The null that goes with the only key of an object that stands for a
  symbol. -/
  | unit
  | symbol
  | singleKey
  | text
  | list
  | tuple (size : Nat)
  | record (name : String)
  | recordItems (name : String) (size : Nat)
  /-- A list that ends where its last expected item was read. -/
  | fewerItems
  | instant
deriving DecidableEq, Repr

def Expectation.describe : Expectation → String
  | .unit => "unit"
  | .symbol => "string or map"
  | .singleKey => "map with a single key"
  | .text => "a string"
  | .list => "a sequence"
  | .tuple size => s!"a tuple of size {size}"
  | .record name => s!"struct {name}"
  | .recordItems name size =>
      s!"struct {name} with {size} " ++ if size = 1 then "element" else "elements"
  | .fewerItems => "fewer elements in array"
  | .instant => "an RFC 3339 formatted date and time string"

inductive DecodeError where
  | unknownVariant (given : String) (known : List String)
  | invalidType (found : Document) (expected : Expectation)
  | invalidValue (found : Document) (expected : Expectation)
  | invalidLength (length : Nat) (expected : Expectation)
  | missingField (field : String)
  /-- A text that is no point in time, or one outside the supported years. -/
  | timestamp
deriving Inhabited

namespace DecodeError

/-- One name alone, two joined by "or", more as a list. -/
def oneOf : List String → String
  | [] => "there are no variants"
  | [a] => s!"expected `{a}`"
  | [a, b] => s!"expected `{a}` or `{b}`"
  | names => "expected one of " ++ ", ".intercalate (names.map fun n => s!"`{n}`")

/-- The wording of an error. A rejected point in time has none. -/
def message? : DecodeError → Option String
  | .unknownVariant given known => some (s!"unknown variant `{given}`, " ++ oneOf known)
  | .invalidType found expected =>
      some s!"invalid type: {found.describe}, expected {expected.describe}"
  | .invalidValue found expected =>
      some s!"invalid value: {found.describe}, expected {expected.describe}"
  | .invalidLength length expected =>
      some s!"invalid length {length}, expected {expected.describe}"
  | .missingField field => some s!"missing field `{field}`"
  | .timestamp => none

end DecodeError

end Transducer
