import Rulebook.Proofs.JsonText
import Rulebook.Proofs.ReadBack

/-!
# Typed values written in JSON are read back

A text in JSON carries plain data: a place in it stands at some data if the node there is the node
of the data, and the levels that may still be entered are enough for them (`Focus.Stands`). Such a
place answers every question as the data do (`faithful`), so a type whose layout as plain data fits
the way it is read is read back from JSON (`read_compact`).

Rules are such a type (`Rules.kept`): their numbers are whole and have 32 bits, and they are nested
seven levels deep whatever is in them.
-/

namespace Rulebook.Json

open Rulebook.Document
open Rulebook.Decimal (twoPow)

/-- **A place in a text stands at some data.** -/
def Focus.Stands (focus : Focus) (data : Data) : Prop :=
  focus.node = Node.ofData data ∧ Kept focus.depth data

namespace Focus

/-- The items of a list are entered one level down. -/
theorem stands_items {depth : Nat} {items : List Data} (h : ∀ item ∈ items, Kept depth item) :
    List.Forall₂ Stands ((Node.ofItems items).map (Focus.mk · depth)) items := by
  induction items with
  | nil => exact .nil
  | cons item rest ih =>
    obtain ⟨hitem, hrest⟩ := List.forall_mem_cons.1 h
    exact .cons ⟨rfl, hitem⟩ (ih hrest)

/-- So are the entries of an object. -/
theorem stands_entries {depth : Nat} {entries : List (String × Data)}
    (h : ∀ entry ∈ entries, Kept depth entry.2) :
    List.Forall₂ (AtEntry Stands)
      ((Node.ofEntries entries).map fun member => (⟨member.1, depth⟩, ⟨member.2, depth⟩))
      entries := by
  induction entries with
  | nil => exact .nil
  | cons entry rest ih =>
    obtain ⟨hvalue, hrest⟩ := List.forall_mem_cons.1 h
    exact .cons ⟨⟨rfl, .text depth entry.1⟩, rfl, hvalue⟩ (ih hrest)

end Focus

/-- **JSON is faithful to the data it carries.** -/
theorem faithful : Faithful Focus.Stands where
  text expected focus text h := by
    obtain ⟨node, depth⟩ := focus
    obtain ⟨rfl, -⟩ := h
    rfl
  int32 {focus n} h := by
    obtain ⟨node, depth⟩ := focus
    obtain ⟨rfl, -⟩ := h
    exact int32OfInteger_toInt n
  flag {focus value} h := by
    obtain ⟨node, depth⟩ := focus
    obtain ⟨rfl, -⟩ := h
    rfl
  items {focus items} h := by
    obtain ⟨node, depth⟩ := focus
    obtain ⟨rfl, hkept⟩ := h
    cases hkept with
    | list h => exact ⟨_, rfl, Focus.stands_items h⟩
  entries {focus entries} h := by
    obtain ⟨node, depth⟩ := focus
    obtain ⟨rfl, hkept⟩ := h
    cases hkept with
    | table h => exact ⟨_, rfl, Focus.stands_entries h⟩
  fields title focus entries h := by
    obtain ⟨node, depth⟩ := focus
    obtain ⟨rfl, hkept⟩ := h
    cases hkept with
    | table h => exact ⟨_, rfl, Focus.stands_entries h⟩
  within _ _ := rfl

section ReadBack

variable {α : Type} {reader : Focus → Reading α} {data : Data} {value : α}

/-- **What is written compactly is read back** as the value whose data were written. -/
theorem read_compact (hkept : Kept maxDepth data) (hreads : Reads Focus.Stands reader data value) :
    Json.read reader (compact data) = .ok value :=
  readBytes_of_spells (spells_encode_compact hkept) (hreads _ ⟨rfl, hkept⟩)

end ReadBack

/-! ## Parts of values -/

namespace Kept

/-- A whole number of 32 bits is kept. -/
theorem int32 (depth : Nat) (n : Int32) : Kept depth (.integer n.toInt) := by
  have hle := n.le_toInt
  have hlt := n.toInt_lt
  have hlow : (-twoPow 63 : Int) ≤ -2 ^ 31 := by decide
  have hhigh : (2 ^ 31 : Int) ≤ twoPow 64 := by decide
  exact .integer depth (Int.le_trans hlow hle) (Int.lt_of_lt_of_le hlt hhigh)

/-- A list of texts is one level deep. -/
theorem ofTexts (depth : Nat) (texts : List String) : Kept (depth + 1) (.ofTexts texts) := by
  refine .list fun item hitem => ?_
  obtain ⟨text, -, rfl⟩ := List.mem_map.1 hitem
  exact .text depth text

/-- A table is one level deeper than its values. -/
theorem ofTable {V : Type} {toData : V → Data} {depth : Nat}
    (h : ∀ value, Kept depth (toData value)) (table : Table V) :
    Kept (depth + 1) (.ofTable toData table) := by
  refine .table fun entry hentry => ?_
  obtain ⟨⟨name, value⟩, -, rfl⟩ := List.mem_map.1 hentry
  exact h value

end Kept

end Rulebook.Json

namespace Rulebook

open Rulebook.Json (Kept)

/-! ## Rules -/

section Rules

variable (depth : Nat)

theorem LabelCodes.kept (codes : LabelCodes) : Kept (depth + 2) codes.toData := by
  have hcodes (table : Table Int32) : Kept (depth + 1) (.ofTable codeData table) :=
    Kept.ofTable (fun code => Kept.int32 depth code) table
  refine .table ?_
  simp [hcodes]

theorem Plugin.kept (plugin : Plugin) : Kept (depth + 1) plugin.toData := by
  refine .table ?_
  simp [Kept.text]

theorem Impact.kept (impact : Impact) : Kept (depth + 1) impact.toData := by
  refine .table ?_
  simp [Kept.text, Kept.int32]

theorem Metadata.kept (metadata : Metadata) : Kept (depth + 2) metadata.toData := by
  refine .table ?_
  simp [Kept.text, Kept.int32, Kept.ofTexts, Impact.kept]

theorem Texts.kept (texts : Texts) : ∀ entry ∈ texts.entries, Kept depth entry.2 := by
  simp [Texts.entries, Kept.text, Kept.flag]

theorem ErrorKey.kept (key : ErrorKey) : Kept (depth + 3) key.toData := by
  refine .table (List.forall_mem_append.2 ⟨Texts.kept (depth + 2) key.texts, ?_⟩)
  simp [Metadata.kept]

theorem Rule.kept (rule : Rule) : Kept (depth + 5) rule.toData := by
  refine .table (List.forall_mem_append.2 ⟨Texts.kept (depth + 4) rule.texts, ?_⟩)
  simp [Plugin.kept, Kept.ofTable (ErrorKey.kept depth)]

/-- **Rules are kept by JSON**, whatever is in them. -/
theorem Rules.kept (rules : Rules) : Kept (depth + 7) rules.toData := by
  refine .table ?_
  simp [LabelCodes.kept (depth + 4), Kept.ofTable (Rule.kept depth)]

end Rules

end Rulebook
