import Rulebook.Decimal.Notation
import Rulebook.Text.Literal

/-!
# Why a document is refused

A document is refused because its text is not well-formed or because its data do not have the
shape that was asked for. Either way the refusal is a **fault**: a cause, and the place in the
document where it was noticed when the format keeps track of places.

The causes are data. What a reader of a message sees is `Cause.message`; where a fault is the
fault of an entry deep inside a document, the place is written in front by `Place.text`.
-/

namespace Rulebook.Document

open Rulebook.Decimal (Binary64 Style)
open Rulebook.Text (quoted quotedChar)

/-- **What was found** where something else was asked for. -/
inductive Found where
  /-- A truth value. -/
  | flag (value : Bool)
  /-- A whole number that is not negative. -/
  | unsigned (value : Nat)
  /-- A whole number of a signed kind. -/
  | signed (value : Int)
  /-- A number with a point or an exponent. -/
  | float (value : Binary64)
  /-- A single character. -/
  | letter (value : Char)
  /-- A text. -/
  | text (value : String)
  /-- An empty value. -/
  | unit
  /-- The literal `null`. -/
  | null
  /-- A list. -/
  | sequence
  /-- A table. -/
  | mapping
  /-- A value with a tag. -/
  | tagged
  /-- Something described in words. -/
  | other (description : String)
deriving DecidableEq, Repr

/-- The text of a number that shows it has a point. -/
def pointedText (value : Binary64) : String :=
  let text := value.text .plain
  if value.isFinite && !text.contains '.' then text ++ ".0" else text

/-- How a message names what was found. -/
def Found.message : Found → String
  | .flag value => "boolean `" ++ (if value then "true" else "false") ++ "`"
  | .unsigned value => "integer `" ++ toString value ++ "`"
  | .signed value => "integer `" ++ toString value ++ "`"
  | .float value => "floating point `" ++ pointedText value ++ "`"
  | .letter value => "character `" ++ String.singleton value ++ "`"
  | .text value => "string " ++ quoted value
  | .unit => "unit value"
  | .null => "null"
  | .sequence => "sequence"
  | .mapping => "map"
  | .tagged => "enum"
  | .other description => description

/-- **Why a document is refused.** -/
inductive Cause where
  /-- A value of another kind than the one asked for. -/
  | invalidType (found : Found) (expected : String)
  /-- A value of the right kind that is not among those asked for. -/
  | invalidValue (found : Found) (expected : String)
  /-- A list with too few or too many items. -/
  | invalidLength (count : Nat) (expected : String)
  /-- A record without a field that it needs. -/
  | missingField (name : String)
  /-- A record with a field given twice. -/
  | duplicateField (name : String)
  /-- A name that is none of those that may be chosen. -/
  | unknownVariant (name : String) (choices : List String)
  /-- A table with a key given twice; the key as the message shows it. -/
  | duplicateEntry (key : String)
  /-- Data that contradict each other, in words. -/
  | inconsistent (reason : String)
  /-- Text that is not well-formed, in words. -/
  | malformed (reason : String)
  /-- The text ends where a value is still to come. -/
  | endOfInput
  /-- A second document follows the first. -/
  | moreThanOneDocument
  /-- Values are nested too deeply. -/
  | recursionLimit
  /-- References are followed too often. -/
  | repetitionLimit
  /-- A reference to a name that was not given. -/
  | unknownAnchor
deriving DecidableEq, Repr

/-- The names that may be chosen, as a message lists them. -/
def choicesText : List String → String
  | [] => "there are no variants"
  | [a] => "expected `" ++ a ++ "`"
  | [a, b] => "expected `" ++ a ++ "` or `" ++ b ++ "`"
  | many => "expected one of " ++ ", ".intercalate (many.map fun name => "`" ++ name ++ "`")

/-- **The words of a cause.** -/
def Cause.message : Cause → String
  | .invalidType found expected => "invalid type: " ++ found.message ++ ", expected " ++ expected
  | .invalidValue found expected => "invalid value: " ++ found.message ++ ", expected " ++ expected
  | .invalidLength count expected =>
    "invalid length " ++ toString count ++ ", expected " ++ expected
  | .missingField name => "missing field `" ++ name ++ "`"
  | .duplicateField name => "duplicate field `" ++ name ++ "`"
  | .unknownVariant name choices => "unknown variant `" ++ name ++ "`, " ++ choicesText choices
  | .duplicateEntry key => "duplicate entry " ++ key
  | .inconsistent reason => reason
  | .malformed reason => reason
  | .endOfInput => "EOF while parsing a value"
  | .moreThanOneDocument =>
    "deserializing from YAML containing more than one document is not supported"
  | .recursionLimit => "recursion limit exceeded"
  | .repetitionLimit => "repetition limit exceeded"
  | .unknownAnchor => "unknown anchor"

/-- Whether the cause lies in the data and not in the text that carries them. Only such a cause
has a place. -/
def Cause.isAboutData : Cause → Bool
  | .malformed _ | .endOfInput | .moreThanOneDocument | .recursionLimit | .repetitionLimit
  | .unknownAnchor => false
  | _ => true

/-- One step from a value to a part of it. -/
inductive Step where
  /-- To the part with a key. -/
  | key (name : String)
  /-- To the item with an index. -/
  | index (n : Nat)
  /-- To a part whose key is no text. -/
  | unnamed
deriving DecidableEq, Repr

/-- **A place in a document**: the steps that lead there, the last one first. -/
abbrev Place := List Step

/-- **A place as a message shows it**: keys joined by points, indices in brackets, and a point for
the whole document. -/
def Place.text : Place → String
  | [] => "."
  | .index n :: parent => Place.text parent ++ "[" ++ toString n ++ "]"
  | [.key name] => name
  | .key name :: parent => Place.text parent ++ "." ++ name
  | [.unnamed] => "?"
  | .unnamed :: parent => Place.text parent ++ ".?"

/-- **A refusal**: its cause, and the place where it was noticed if that is known. -/
structure Fault where
  /-- What is wrong. -/
  cause : Cause
  /-- Where it was noticed. -/
  place : Option Place
deriving DecidableEq, Repr

namespace Fault

/-- A fault whose place is not known. -/
def of (cause : Cause) : Fault := ⟨cause, none⟩

/-- Gives a fault of the data a place if it has none. -/
def placedAt (place : Place) (fault : Fault) : Fault :=
  if fault.place.isNone && fault.cause.isAboutData then ⟨fault.cause, some place⟩ else fault

/-- **The words of a fault**: its place, unless that is written as the whole document is, and its
cause. -/
def message (fault : Fault) : String :=
  match fault.place with
  | none => fault.cause.message
  | some place =>
    if place.text = Place.text [] then fault.cause.message
    else place.text ++ ": " ++ fault.cause.message

end Fault

end Rulebook.Document
