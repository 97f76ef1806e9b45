import Rulebook.Decimal.Numeral
import Rulebook.Error

/-!
# Levels of the log

A level is given by its name in letters of either case, or by its number, counted from the most
severe one. `warning` is a second name of one of them.
-/

namespace Rulebook.Settings

open Rulebook.Decimal (bounded? twoPow)

/-- **How severe an entry of the log is.** -/
inductive Level where
  /-- Every step. -/
  | trace
  /-- What helps to find a fault. -/
  | debug
  /-- What is done. -/
  | info
  /-- What may be wrong. -/
  | warn
  /-- What failed. -/
  | error
deriving DecidableEq, Repr

namespace Level

/-- The name of a level. -/
def name : Level → String
  | .trace => "TRACE"
  | .debug => "DEBUG"
  | .info => "INFO"
  | .warn => "WARN"
  | .error => "ERROR"

/-- The levels from the most severe one on. -/
def all : List Level := [.error, .warn, .info, .debug, .trace]

/-- The level with a number, the most severe one having the number one. -/
def ofNumber? : Nat → Option Level
  | 0 => none
  | n + 1 => all[n]?

/-- The level that a text names. -/
def named? (text : String) : Option Level :=
  let upper := String.ofList (text.toList.map Char.toUpper)
  if upper == "WARNING" then some .warn else all.find? (·.name == upper)

/-- **The level that a text stands for.** -/
def ofText (text : String) : Except Error Level :=
  match named? text, (bounded? (twoPow 64 - 1) text.toList).bind ofNumber? with
  | some level, _ | none, some level => pure level
  | none, none =>
    .error (.configuration ("Invalid log level '" ++ text ++
      "', expected trace, debug, info, warn or error") none)

end Level

end Rulebook.Settings
