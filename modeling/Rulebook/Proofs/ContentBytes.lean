import Rulebook.Proofs.JsonValues
import Rulebook.Proofs.MessagePack
import Rulebook.Service.Cell

/-!
# The content is served without loss

What is answered to a request for the content are the rules in MessagePack, whoever asked before:
the cell holds nothing else (`Cell.Holds`), so a request that finds it filled and one that fills it
answer the same bytes.

From these bytes exactly the rules are read, and no byte is left (`content_lossless`). Plain data
of rules are always of a shape that MessagePack keeps (`Rules.shape`), as they are of one that JSON
keeps. Only the lengths in them are not bounded by their type; they must be such that four bytes
hold them, which is all that the format has for a length.
-/

namespace Rulebook

open Rulebook.Document
open Rulebook.MessagePack (Shape)

/-! ## The shape of rules -/

/-- What JSON keeps is of a shape that can be read back from MessagePack. -/
theorem Json.Kept.shape {depth : Nat} {data : Data} (h : Json.Kept depth data) :
    Shape depth data := by
  induction h with
  | null depth => exact .null depth
  | flag depth value => exact .flag depth value
  | integer depth low high => exact .integer depth _ ⟨low, high⟩
  | text depth value => exact .text depth value
  | list h ih => exact .list ih
  | table h ih => exact .table ih

/-- **Rules are of a shape that can be read back**, whatever is in them. -/
theorem Rules.shape (depth : Nat) (rules : Rules) : Shape (depth + 7) rules.toData :=
  (Rules.kept depth rules).shape

end Rulebook

namespace Rulebook.Service

open Rulebook.Decimal (twoPow)
open Rulebook.MessagePack (Shape)

/-! ## The cell -/

/-- **A cell holds nothing but the rules**: they were written into it, or nothing was. -/
def Cell.Holds (rules : Rules) (cell : Cell) : Prop := ∀ bytes ∈ cell, bytes = contentBytes rules

/-- **A request answers the bytes of the rules** and leaves them in the cell. -/
theorem Worker.finish_eq {rules : Rules} {cell : Cell} (h : cell.Holds rules) :
    Worker.finish rules cell = (some (contentBytes rules), contentBytes rules) := by
  cases cell with
  | none => rfl
  | some bytes =>
    obtain rfl := h bytes rfl
    rfl

/-- The cell after a number of requests for the content. -/
def Cell.after (rules : Rules) : Nat → Cell
  | 0 => none
  | before + 1 => (Worker.finish rules (Cell.after rules before)).1

/-- **However many requests there were, the cell holds nothing but the rules.** -/
theorem Cell.holds_after (rules : Rules) (before : Nat) :
    (Cell.after rules before).Holds rules := by
  induction before with
  | zero => exact fun _ h => nomatch h
  | succ before ih =>
    intro bytes hbytes
    rw [Cell.after, Worker.finish_eq ih] at hbytes
    exact (Option.some.inj hbytes).symm

/-! ## The answer -/

/-- **The rules are read back from their bytes.** -/
theorem read_contentBytes (rules : Rules)
    (hlengths : ∀ length ∈ MessagePack.lengths rules.toData, length < twoPow 32)
    (rest : List UInt8) :
    MessagePack.read Rules.read (contentBytes rules ++ rest) = some (rules, rest) := by
  have hshape : Shape MessagePack.maxDepth rules.toData := Rules.shape 1017 rules
  have hvalue : (Rules.read rules.toData).value = .ok rules := by
    rw [Rules.reads Document.Data.faithful rules rules.toData rfl]
    rfl
  unfold MessagePack.read contentBytes
  rw [MessagePack.decode_encode hshape hlengths rest]
  dsimp only
  rw [hvalue]
  rfl

/-- **The content is served without loss.** However many requests there were before, from the bytes
that are answered the rules are read back, and all the bytes are used up. Texts, lists and tables
must be no longer than the format can say. -/
theorem content_lossless (rules : Rules) (before : Nat)
    (hlengths : ∀ length ∈ MessagePack.lengths rules.toData, length < twoPow 32) :
    MessagePack.read Rules.read (Worker.finish rules (Cell.after rules before)).2
      = some (rules, []) := by
  rw [Worker.finish_eq (Cell.holds_after rules before)]
  have hread := read_contentBytes rules hlengths []
  rwa [List.append_nil] at hread

/-- One rule with an error key, with labels, and with characters of up to four bytes. -/
def storageRules : Rules where
  codes := { impact := ⟨[("Ausfall", 4)], List.pairwise_singleton ..⟩ }
  rules := ⟨[("volume_full", {
    texts := { generic := "Speicher läuft über", reason := "≥ 95 %", hasReason := true }
    plugin := { name := "volume_full", nodeId := "6217921" }
    errorKeys := ⟨[("VOLUME&FULL", {
      texts := { generic := "🖴 voll", reason := "≥ 95 %" }
      metadata := {
        impact := { name := "Ausfall", code := 4 }
        likelihood := -2147483648
        resolutionRisk := 300
        tags := ["storage", "größe"] } })], List.pairwise_singleton ..⟩ })],
    List.pairwise_singleton ..⟩

/-- The rules of an example are read back from what the second request is answered. -/
theorem content_lossless_storageRules :
    (∀ length ∈ MessagePack.lengths storageRules.toData, length < twoPow 32)
      ∧ MessagePack.read Rules.read (Worker.finish storageRules (Cell.after storageRules 1)).2
        = some (storageRules, []) := by
  have hlengths : ∀ length ∈ MessagePack.lengths storageRules.toData, length < twoPow 32 := by
    decide
  exact ⟨hlengths, content_lossless storageRules 1 hlengths⟩

end Rulebook.Service
