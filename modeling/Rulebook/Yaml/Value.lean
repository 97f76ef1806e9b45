import Rulebook.Text.Literal
import Rulebook.Yaml.Scalar
import Rulebook.Decimal.Notation

/-!
# Untyped YAML values

Where no type is asked for, a YAML node is a **value**: null, a truth value, a number, a text, a
list, a table whose keys are any values, or a value with a tag of its own.

A table may not hold one key twice. `Value.same` is the equality that decides this: numbers are
compared as numbers, and tables without regard to the order of their entries.
-/

namespace Rulebook.Yaml

open Rulebook.Decimal (Binary64 Number Style)

/-- **An untyped YAML value.** -/
inductive Value where
  /-- The absence of a value. -/
  | null
  /-- A truth value. -/
  | flag (value : Bool)
  /-- A number. -/
  | number (value : Number)
  /-- A text. -/
  | text (value : String)
  /-- A list. -/
  | list (items : List Value)
  /-- A table. -/
  | table (entries : List (Value × Value))
  /-- A value with a tag. -/
  | tagged (tag : String) (value : Value)
deriving Inhabited, Repr

namespace Value

/-- Whether two numbers are the same key. Every undefined number is the same, and the two zeros
are. -/
def sameNumber : Number → Number → Bool
  | .integer a, .integer b => a == b
  | .float a, .float b =>
    a == b || (a.isNaN && b.isNaN) || (a.magnitude.1 == 0 && b.magnitude.1 == 0)
  | _, _ => false

mutual

/-- **Whether two values are the same key.** -/
def same : Value → Value → Bool
  | .null, .null => true
  | .flag a, .flag b => a == b
  | .number a, .number b => sameNumber a b
  | .text a, .text b => a == b
  | .list a, .list b => sameItems a b
  | .table a, .table b => a.length == b.length && sameEntries a b
  | .tagged s a, .tagged t b => s == t && same a b
  | _, _ => false

/-- `same` item by item. -/
def sameItems : List Value → List Value → Bool
  | [], [] => true
  | a :: as, b :: bs => same a b && sameItems as bs
  | _, _ => false

/-- Whether every entry of one table is an entry of the other. -/
def sameEntries : List (Value × Value) → List (Value × Value) → Bool
  | [], _ => true
  | (key, value) :: rest, other =>
    other.any (fun entry => same key entry.1 && same value entry.2) && sameEntries rest other

end

/-- A number as a message shows it. -/
def numberText : Number → String
  | .integer value => toString value
  | .float value =>
    if value.isNaN then ".nan"
    else if !value.isFinite then if value.isNegative then "-.inf" else ".inf"
    else value.text .bare

/-- How a message names a key that is given twice. -/
def keyText : Value → String
  | .null => "with null key"
  | .flag value => "with key `" ++ (if value then "true" else "false") ++ "`"
  | .number value => "with key " ++ numberText value
  | .text value => "with key " ++ Text.quoted value
  | _ => "in YAML map"

end Value

end Rulebook.Yaml
