import Rulebook.Error
import Rulebook.Proofs.JsonText
import Rulebook.Proofs.RecordReading
import Mathlib.Tactic.SplitIfs

/-!
# Records in JSON

A text in JSON that is read to its end is a **document** with a value (`Document`), and such a value
breaks off nowhere. What a record is read from it is then said without a reader: the value gives for
each field what stands under its name in an object, or in its place in a list (`Node.Gives`). In an
object each field may be given once, and other members take no part; a list may have no more values
than there are fields.

A record is read exactly from the values that give it each of its parts (`gives_of_readRecord`,
`readRecord_of_gives`). A value of any kind is read when nothing in it lies too deep and each number
and text in it can be read, the names in objects included (`Node.Readable`).
-/

namespace Rulebook.Json

open Rulebook.Document
open Rulebook.Decimal (Number)

namespace Node

/-- The object with given members. -/
def ofMembers (members : List (String × Node)) : Node :=
  .object (members.map fun member => (.text (.ok member.1), member.2)) none

/-! ## Passing over values -/

/-- **A value that does not break off is passed over without a flaw.** -/
def Passable (outcome : Node × Option (List UInt8)) : Prop :=
  outcome.2.isSome → outcome.1.skipFlaw? = none

/-- So are the items of a list. -/
def PassableItems (outcome : List Node × Option Break × Option (List UInt8)) : Prop :=
  outcome.2.2.isSome → itemsFlaw? outcome.1 outcome.2.1 = none

/-- So are the entries of an object. -/
def PassableMembers (outcome : List (Node × Node) × Option Break × Option (List UInt8)) : Prop :=
  outcome.2.2.isSome → membersFlaw? outcome.1 outcome.2.1 = none

/-- What breaks off need not be passed over. -/
theorem passable_none (node : Node) : Passable (node, none) := by
  intro h
  cases h

theorem passableItems_none (items : List Node) (ending : Option Break) :
    PassableItems (items, ending, none) := by
  intro h
  cases h

theorem passableMembers_none (members : List (Node × Node)) (ending : Option Break) :
    PassableMembers (members, ending, none) := by
  intro h
  cases h

theorem parseLiteral_passable {node : Node} (hnode : node.skipFlaw? = none)
    (expected bytes : List UInt8) : Passable (parseLiteral node expected bytes) := by
  induction expected generalizing bytes with
  | nil => exact fun _ => hnode
  | cons b expected ih =>
    cases bytes with
    | nil => exact passable_none _
    | cons c bytes =>
      rw [parseLiteral]
      split
      · exact ih bytes
      · exact passable_none _

theorem parseString_passable (bytes : List UInt8) : Passable (parseString bytes) := by
  rw [parseString]
  obtain ⟨pieces, closing⟩ := pieces bytes
  cases closing with
  | closed rest => exact fun _ => rfl
  | flawed flaw inCode => exact passable_none _

theorem parseNumber_passable (bytes : List UInt8) : Passable (parseNumber bytes) := by
  unfold parseNumber
  dsimp only
  split
  · rename_i outcome hparts
    obtain ⟨⟨digits, behind⟩, -, hparts⟩ := bind_eq_ok.1 hparts
    obtain ⟨⟨fraction, exponent, rest⟩, -, hparts⟩ := bind_eq_ok.1 hparts
    cases hparts
    exact fun _ => rfl
  · exact passable_none _

section Steps

variable {fuel : Nat} (hvalue : ∀ bytes, Passable (parseValue fuel bytes))
include hvalue

theorem parseItemThen_passable (hitems : ∀ first bytes, PassableItems (parseItems fuel first bytes))
    (bytes : List UInt8) : PassableItems (parseItemThen (fuel + 1) bytes) := by
  have hnode := hvalue bytes
  rw [parseItemThen]
  split
  · exact passableItems_none _ _
  · rename_i node rest hparse
    rw [hparse] at hnode
    intro h
    rw [itemsFlaw?, hnode rfl]
    exact hitems false rest h

theorem parseMemberThen_passable
    (hmembers : ∀ first bytes, PassableMembers (parseMembers fuel first bytes))
    (bytes : List UInt8) : PassableMembers (parseMemberThen (fuel + 1) bytes) := by
  unfold parseMemberThen
  dsimp only
  split
  · rename_i behind
    have hkey := parseString_passable behind
    split
    · exact passableMembers_none _ _
    · rename_i key rest hparse
      rw [hparse] at hkey
      split
      · rename_i behindColon _
        have hnode := hvalue behindColon
        split
        · exact passableMembers_none _ _
        · rename_i node rest hparse
          rw [hparse] at hnode
          intro h
          rw [membersFlaw?, hkey rfl, hnode rfl]
          exact hmembers false rest h
      · exact passableMembers_none _ _
      · exact passableMembers_none _ _
  · exact passableMembers_none _ _

end Steps

/-- **What is well-formed up to its end is passed over without a flaw.** The functions that read
values call one another with less fuel each time. -/
theorem parse_passable (fuel : Nat) :
    (∀ bytes, Passable (parseValue fuel bytes))
      ∧ (∀ first bytes, PassableItems (parseItems fuel first bytes))
      ∧ (∀ bytes, PassableItems (parseItemThen fuel bytes))
      ∧ (∀ first bytes, PassableMembers (parseMembers fuel first bytes))
      ∧ ∀ bytes, PassableMembers (parseMemberThen fuel bytes) := by
  induction fuel with
  | zero =>
    exact ⟨fun _ => passable_none _, fun _ _ => passableItems_none _ _,
      fun _ => passableItems_none _ _, fun _ _ => passableMembers_none _ _,
      fun _ => passableMembers_none _ _⟩
  | succ fuel ih =>
    obtain ⟨hvalue, hitems, hitem, hmembers, hmember⟩ := ih
    refine ⟨fun bytes => ?_, fun first bytes => ?_, parseItemThen_passable hvalue hitems,
      fun first bytes => ?_, parseMemberThen_passable hvalue hmembers⟩
    · rw [parseValue]
      split
      · exact passable_none _
      · split_ifs
        · exact parseLiteral_passable rfl _ _
        · exact parseLiteral_passable rfl _ _
        · exact parseLiteral_passable rfl _ _
        · exact parseString_passable _
        · exact parseNumber_passable _
        · exact hitems true _
        · exact hmembers true _
        · exact passable_none _
    · rw [parseItems]
      split
      · exact passableItems_none _ _
      · split_ifs
        · exact fun _ => rfl
        · exact hitem _
        · split
          · exact passableItems_none _ _
          · split_ifs
            · exact passableItems_none _ _
            · exact hitem _
        · exact passableItems_none _ _
    · rw [parseMembers]
      split
      · exact passableMembers_none _ _
      · split_ifs
        · exact fun _ => rfl
        · exact hmember _
        · split
          · exact passableMembers_none _ _
          · split_ifs
            · exact passableMembers_none _ _
            · exact hmember _
        · exact passableMembers_none _ _

end Node

/-! ## Documents -/

/-- **Bytes are a document with a value**, behind which there is white space only. -/
def Document (bytes : List UInt8) (node : Node) : Prop :=
  ∃ rest, Node.ofBytes bytes = (node, some rest) ∧ Node.dropSpace rest = []

/-- The value of a document breaks off nowhere. -/
theorem Document.skipFlaw? {bytes : List UInt8} {node : Node} (h : Document bytes node) :
    node.skipFlaw? = none := by
  obtain ⟨rest, hparse, -⟩ := h
  have hwhole := (Node.parse_passable (2 * bytes.length + 2)).1 bytes
  rw [show Node.parseValue (2 * bytes.length + 2) bytes = _ from hparse] at hwhole
  exact hwhole rfl

/-- Bytes that spell a value are a document with it. -/
theorem Node.Spells.document {bytes : List UInt8} {node : Node} (h : Node.Spells bytes node) :
    Document bytes node :=
  ⟨[], h.ofBytes, rfl⟩

/-- **What is read of bytes is read of the value of a document.** -/
theorem readBytes_iff {α : Type} {reader : Focus → Reading α} {bytes : List UInt8} {value : α} :
    readBytes reader bytes = .ok value
      ↔ ∃ node, Document bytes node ∧ (reader ⟨node, maxDepth⟩).value = .ok value := by
  rw [readBytes]
  constructor
  · intro h
    obtain ⟨found, hfound, h⟩ := bind_eq_ok.1 h
    split at h
    · rename_i rest hrest
      split at h
      · rename_i hspace
        cases h
        exact ⟨_, ⟨rest, Prod.ext rfl hrest, List.isEmpty_iff.1 hspace⟩, hfound⟩
      · cases h
    · cases h
  · rintro ⟨node, ⟨rest, hparse, hrest⟩, hvalue⟩
    rw [hparse]
    refine bind_eq_ok.2 ⟨value, hvalue, ?_⟩
    dsimp only
    rw [hrest]
    rfl

namespace Node

/-! ## Values that do not break off -/

theorem itemsFlaw?_eq_none_iff {items : List Node} {ending : Option Break} :
    itemsFlaw? items ending = none ↔ (∀ node ∈ items, node.skipFlaw? = none) ∧ ending = none := by
  induction items with
  | nil => simp [itemsFlaw?]
  | cons node rest ih =>
    rw [itemsFlaw?, List.forall_mem_cons]
    cases node.skipFlaw? with
    | none => simpa using ih
    | some flaw => simp

theorem membersFlaw?_eq_none_iff {members : List (Node × Node)} {ending : Option Break} :
    membersFlaw? members ending = none
      ↔ (∀ member ∈ members, member.1.skipFlaw? = none ∧ member.2.skipFlaw? = none)
        ∧ ending = none := by
  induction members with
  | nil => simp [membersFlaw?]
  | cons member rest ih =>
    obtain ⟨key, node⟩ := member
    rw [membersFlaw?, List.forall_mem_cons]
    cases key.skipFlaw? with
    | some flaw => simp
    | none =>
      cases node.skipFlaw? with
      | none => simpa using ih
      | some flaw => simp

/-- Members whose names can be read are members under these names. -/
theorem exists_ofMembers {members : List (Node × Node)}
    (h : ∀ member ∈ members, ∃ name, member.1 = .text (.ok name)) :
    ∃ named : List (String × Node), .object members none = ofMembers named := by
  suffices hnamed : ∃ named : List (String × Node),
      members = named.map fun member => (.text (.ok member.1), member.2) by
    obtain ⟨named, rfl⟩ := hnamed
    exact ⟨named, rfl⟩
  induction members with
  | nil => exact ⟨[], rfl⟩
  | cons member rest ih =>
    obtain ⟨⟨name, hname⟩, hrest⟩ := List.forall_mem_cons.1 h
    obtain ⟨named, rfl⟩ := ih hrest
    exact ⟨(name, member.2) :: named, by rw [List.map_cons, ← hname]⟩

/-- The members of an object that breaks off nowhere do not either. -/
theorem skipFlaw?_of_ofMembers {members : List (String × Node)}
    (h : (ofMembers members).skipFlaw? = none) : ∀ member ∈ members, member.2.skipFlaw? = none :=
  fun _ hmember =>
    ((membersFlaw?_eq_none_iff.1 h).1 _ (List.mem_map_of_mem hmember)).2

/-! ## What a value gives for a record -/

/-- **What a value gives for the fields of a record** with certain names. -/
inductive Gives (names : List String) : Node → (String → Option Node) → Prop where
  /-- An object gives what stands under a name, and no field twice. -/
  | object {members : List (String × Node)} (h : Once names members) :
    Gives names (ofMembers members) fun name => Table.find? name members
  /-- A list gives what stands in the place of a field, and nothing behind the last one. -/
  | list {items : List Node} (h : items.length ≤ names.length) :
    Gives names (.list items none) fun name => items[names.idxOf name]?

/-- What is given breaks off nowhere if the value does not. -/
theorem Gives.skipFlaw? {names : List String} {node : Node} {given : String → Option Node}
    (h : node.Gives names given) (hnode : node.skipFlaw? = none) {name : String} {value : Node}
    (hvalue : given name = some value) : value.skipFlaw? = none := by
  cases h with
  | object => exact skipFlaw?_of_ofMembers hnode _ (Table.mem_of_find? hvalue)
  | list => exact (itemsFlaw?_eq_none_iff.1 hnode).1 _ (List.mem_of_getElem? hvalue)

end Node

namespace Focus

/-- No value of another kind takes the place of one that is expected. -/
theorem not_yields_mismatch {α : Type} (focus : Focus) (expected : String) (value : α) :
    ¬ (focus.mismatch expected).Yields value := by
  unfold mismatch
  split <;> exact Reading.Yields.not_refuse _ _

/-- A name is read if it is a text that can be read. -/
theorem node_of_text {focus : Focus} {expected name : String}
    (h : (focus.text expected).Yields name) : focus.node = .text (.ok name) := by
  unfold text at h
  split at h
  · rename_i value hnode
    rw [hnode, Reading.Yields.pure_iff.1 h]
  · exact absurd h (not_yields_mismatch _ _ _)

/-- Fields are those of an object or of a list. -/
theorem node_of_fields {focus : Focus} {title : String} {found : Fields Focus}
    (h : (focus.fields title).Yields found) :
    (∃ members ending, focus.node = .object members ending)
      ∨ ∃ items ending, focus.node = .list items ending := by
  unfold fields at h
  split at h
  · exact .inl ⟨_, _, ‹_›⟩
  · exact .inr ⟨_, _, ‹_›⟩
  · exact absurd h (not_yields_mismatch _ _ _)

/-- The fields of a record that is given as an object are the members, one level down. -/
theorem fields_object (title : String) (members : List (String × Node)) (depth : Nat) :
    Source.fields title (Focus.mk (.ofMembers members) (depth + 1))
      = pure (.named ⟨keyedBy (fun name => ⟨.text (.ok name), depth⟩)
          (members.map fun member => (member.1, ⟨member.2, depth⟩)), none⟩) := by
  have hparts : (members.map fun member => (Node.text (.ok member.1), member.2)).map
        (fun member => (Focus.mk member.1 depth, Focus.mk member.2 depth))
      = keyedBy (fun name => ⟨.text (.ok name), depth⟩)
        (members.map fun member => (member.1, ⟨member.2, depth⟩)) := by
    simp [keyedBy]
  exact congrArg (fun parts => (pure (.named ⟨parts, none⟩) : Reading (Fields Focus))) hparts

/-- The fields of a record that is given as a list are the items, one level down. -/
theorem fields_list (title : String) (items : List Node) (depth : Nat) :
    Source.fields title (Focus.mk (.list items none) (depth + 1))
      = pure (.listed ⟨items.map (Focus.mk · depth), none⟩) :=
  rfl

/-- Nothing is left behind the fields of a record that is read. -/
theorem eq_nil_of_surplus {run : List Focus} (h : (Focus.surplus ⟨run, none⟩).Yields ()) :
    run = [] := by
  cases run with
  | nil => rfl
  | cons => exact absurd h (Reading.Yields.not_refuse _ _)

end Focus

/-! ## Reading a record -/

section Records

variable {ρ : Type} {parts : List (Part Focus ρ)} {start result : ρ} {title : String} {node : Node}
  {depth : Nat} {given : String → Option Node}

/-- The place of a part is that of its name. -/
theorem idxOf_name (hlayout : Layout parts) {position : Nat} {part : Part Focus ρ}
    (h : parts[position]? = some part) : (parts.map (·.name)).idxOf part.name = position := by
  obtain ⟨hlt, rfl⟩ := List.getElem?_eq_some_iff.1 h
  have hplace := hlayout.names.idxOf_getElem position (by rwa [List.length_map])
  rwa [List.getElem_map] at hplace

/-- **What was read of a record was given for each of its parts.** -/
theorem gives_of_readRecord (hlayout : Layout parts) (hnode : node.skipFlaw? = none)
    (h : (readRecord title start (parts.map Part.field) (Focus.mk node (depth + 1))).Yields
      result) :
    ∃ given, node.Gives (parts.map (·.name)) given ∧ ∀ part ∈ parts,
      (given part.name = none → part.needed = false)
        ∧ part.Holds ((given part.name).map (Focus.mk · depth)) start result := by
  obtain ⟨_, hfields, hread⟩ := Reading.Yields.of_bind h
  rcases Focus.node_of_fields hfields with ⟨members, ending, rfl⟩ | ⟨items, ending, rfl⟩
  · obtain rfl := (Node.membersFlaw?_eq_none_iff.1 hnode).2
    have hnames : ∀ member ∈ members, ∃ name, member.1 = .text (.ok name) := by
      cases Reading.Yields.pure_iff.1 hfields
      obtain ⟨_, hread, -⟩ := hread.of_bind
      intro member hmember
      obtain ⟨name, hname⟩ := text_of_readNamed hread _ (List.mem_map_of_mem hmember)
      exact ⟨name, Focus.node_of_text hname⟩
    obtain ⟨named, hnamed⟩ := Node.exists_ofMembers hnames
    rw [hnamed] at h ⊢
    obtain ⟨honce, hparts⟩ := hlayout.of_readRecord_named (fun _ => rfl) (fun _ _ h => h)
      (Focus.fields_object title named depth) h
    refine ⟨_, .object (List.pairwise_map.1 honce), fun part hpart => ?_⟩
    have hholds := hparts part hpart
    rw [Table.find?_map (Focus.mk · depth), Option.map_eq_none_iff] at hholds
    exact hholds
  · obtain rfl := (Node.itemsFlaw?_eq_none_iff.1 hnode).2
    have hsurplus := surplus_of_readRecord_listed (fun _ _ h => h)
      (Focus.fields_list title items depth) h
    refine ⟨_, .list ?_, fun part hpart => ?_⟩
    · have hnone := Focus.eq_nil_of_surplus hsurplus
      rw [List.drop_eq_nil_iff, List.length_map] at hnone
      rwa [List.length_map]
    · obtain ⟨position, hposition⟩ := List.getElem?_of_mem hpart
      have hholds := hlayout.of_readRecord_listed (fun _ _ h => h)
        (Focus.fields_list title items depth) h hposition
      rw [List.getElem?_map, Option.map_eq_none_iff] at hholds
      rw [idxOf_name hlayout hposition]
      exact hholds

/-- **A record is read when each of its parts is given and can be read.** -/
theorem readRecord_of_gives (hlayout : Layout parts) (hnode : node.skipFlaw? = none)
    (h : node.Gives (parts.map (·.name)) given)
    (hread : ∀ part ∈ parts,
      part.Readable ((given part.name).map (Focus.mk · depth)) start result) :
    readRecord title start (parts.map Part.field) (Focus.mk node (depth + 1)) = pure result := by
  cases h with
  | @object members honce =>
    refine hlayout.readRecord_named (fun _ => rfl) (fun _ => rfl)
      (Focus.fields_object title members depth) ?_ (List.pairwise_map.2 honce) fun part hpart => ?_
    · refine List.forall_mem_map.2 fun member hmember => ?_
      show Focus.skip _ = _
      rw [Focus.skip, Node.skipFlaw?_of_ofMembers hnode member hmember]
    · rw [Table.find?_map (Focus.mk · depth)]
      exact hread part hpart
  | @list items hlength =>
    refine hlayout.readRecord_listed (fun _ => rfl) (Focus.fields_list title items depth) ?_ ?_
    · rw [List.length_map] at hlength
      rw [List.drop_eq_nil_of_le (by rwa [List.length_map])]
      rfl
    · intro position part hposition
      have hvalue := hread part (List.mem_of_getElem? hposition)
      dsimp only at hvalue
      rw [idxOf_name hlayout hposition] at hvalue
      rwa [List.getElem?_map]

end Records

/-! ## Reading values of any kind -/

/-- **A value can be read to the end** when so many levels may be entered. -/
inductive Node.Readable : Nat → Node → Prop where
  /-- Nothing. -/
  | null (depth : Nat) : Readable depth .null
  /-- A truth value. -/
  | flag (depth : Nat) (value : Bool) : Readable depth (.flag value)
  /-- A number. -/
  | number (depth : Nat) (value : Number) : Readable depth (.number (.ok value))
  /-- A text. -/
  | text (depth : Nat) (value : String) : Readable depth (.text (.ok value))
  /-- A list, one level above its items. -/
  | list {depth : Nat} {items : List Node} (h : ∀ node ∈ items, Readable depth node) :
    Readable (depth + 1) (.list items none)
  /-- An object, one level above its values. -/
  | object {depth : Nat} {members : List (String × Node)}
    (h : ∀ member ∈ members, Readable depth member.2) : Readable (depth + 1) (ofMembers members)

/-- A run that is read to its end does not break off. -/
theorem ending_of_finish {α : Type} {parts : List α} {ending : Option Break}
    (h : (Run.finish ⟨parts, endingFault ending⟩).Yields ()) : ending = none := by
  cases ending with
  | none => rfl
  | some break_ => exact absurd h (Reading.Yields.not_throw _ _)

/-- Whoever reads the members of an object reads all their names and values. -/
theorem yields_of_readDataMembers {read : Focus → Reading Data} {members : List (Focus × Focus)}
    {done table : Table Data} (h : (readDataMembers read members done).Yields table) :
    ∀ member ∈ members, (∃ name, member.1.node = .text (.ok name))
      ∧ ∃ data, (read member.2).Yields data := by
  induction members generalizing done with
  | nil => exact fun _ hmember => nomatch hmember
  | cons member rest ih =>
    obtain ⟨name, hname, h⟩ := Reading.Yields.of_bind h
    obtain ⟨data, hdata, h⟩ := h.of_bind
    exact List.forall_mem_cons.2 ⟨⟨⟨name, Focus.node_of_text hname⟩, data, hdata⟩, ih h⟩

/-- **What is read can be read to the end.** -/
theorem readable_of_readDataAt {depth : Nat} {node : Node} {data : Data}
    (h : (readDataAt depth (Focus.mk node depth)).Yields data) : node.Readable depth := by
  induction depth using Nat.strongRecOn generalizing node data with
  | ind depth ih =>
    rw [readDataAt.eq_def] at h
    dsimp only at h
    split at h
    · exact .null depth
    · exact .flag depth _
    · exact .number depth _
    · exact .number depth _
    · exact .text depth _
    · rename_i items ending
      cases depth with
      | zero => exact absurd h (Reading.Yields.not_refuse _ _)
      | succ depth =>
        obtain ⟨run, hrun, h⟩ := Reading.Yields.of_bind h
        cases Reading.Yields.pure_iff.1 hrun
        obtain ⟨_, h, -⟩ := h.of_map
        obtain ⟨_, hitems, h⟩ := h.of_bind
        obtain ⟨_, hfinish, -⟩ := h.of_bind
        obtain rfl := ending_of_finish hfinish
        refine .list fun item hitem => ?_
        obtain ⟨_, hread⟩ := hitems.of_mapM _ (List.mem_map_of_mem hitem)
        exact ih depth (Nat.lt_succ_self depth) hread
    · rename_i members ending
      cases depth with
      | zero => exact absurd h (Reading.Yields.not_refuse _ _)
      | succ depth =>
        obtain ⟨run, hrun, h⟩ := Reading.Yields.of_bind h
        cases Reading.Yields.pure_iff.1 hrun
        obtain ⟨_, hmembers, h⟩ := h.of_bind
        obtain ⟨_, hfinish, -⟩ := h.of_bind
        obtain rfl := ending_of_finish hfinish
        have hread := List.forall_mem_map.1 (yields_of_readDataMembers hmembers)
        obtain ⟨named, hnamed⟩ := Node.exists_ofMembers fun member hmember =>
          (hread member hmember).1
        rw [hnamed]
        cases hnamed
        refine .object fun member hmember => ?_
        obtain ⟨-, _, hvalue⟩ := hread _ (List.mem_map_of_mem hmember)
        exact ih depth (Nat.lt_succ_self depth) hvalue
    · exact absurd h (Focus.not_yields_mismatch _ _ _)

/-- Values are read one after the other when each is read by itself. -/
theorem exists_mapM {α β : Type} {read : α → Reading β} {list : List α}
    (h : ∀ a ∈ list, ∃ value, read a = pure value) :
    ∃ values, list.mapM read = pure values := by
  induction list with
  | nil => exact ⟨[], List.mapM_nil⟩
  | cons a rest ih =>
    obtain ⟨⟨value, hvalue⟩, hrest⟩ := List.forall_mem_cons.1 h
    obtain ⟨values, hvalues⟩ := ih hrest
    exact ⟨value :: values, by rw [List.mapM_cons, hvalue, pure_bind, hvalues, pure_bind]⟩

/-- Members with names are read when their values are. -/
theorem exists_readDataMembers {read : Focus → Reading Data} {depth : Nat}
    {members : List (String × Node)} (done : Table Data)
    (h : ∀ member ∈ members, ∃ data, read (Focus.mk member.2 depth) = pure data) :
    ∃ table, readDataMembers read
      ((members.map fun member => (Node.text (.ok member.1), member.2)).map fun member =>
        (Focus.mk member.1 depth, Focus.mk member.2 depth)) done = pure table := by
  induction members generalizing done with
  | nil => exact ⟨done, rfl⟩
  | cons member rest ih =>
    obtain ⟨⟨data, hdata⟩, hrest⟩ := List.forall_mem_cons.1 h
    obtain ⟨table, htable⟩ := ih (done.insert member.1 data) hrest
    refine ⟨table, ?_⟩
    rw [← htable, List.map_cons, List.map_cons, readDataMembers, hdata]
    rfl

/-- **What can be read to the end is read.** -/
theorem exists_readDataAt {depth : Nat} {node : Node} (h : node.Readable depth) :
    ∃ data, readDataAt depth (Focus.mk node depth) = pure data := by
  induction h with
  | null | flag | text => exact ⟨_, by rw [readDataAt.eq_def]⟩
  | number depth value => cases value <;> exact ⟨_, by rw [readDataAt.eq_def]⟩
  | @list depth items _ ih =>
    obtain ⟨values, hvalues⟩ := exists_mapM (List.forall_mem_map.2 ih)
    refine ⟨.list values, ?_⟩
    rw [readDataAt.eq_def]
    show Data.list <$> readParts _ ⟨items.map (Focus.mk · depth), none⟩ = _
    rw [readParts, hvalues]
    rfl
  | @object depth members _ ih =>
    obtain ⟨table, htable⟩ := exists_readDataMembers ∅ ih
    refine ⟨.table table.entries, ?_⟩
    rw [readDataAt.eq_def]
    simp only [Node.ofMembers, Focus.enterMembers, Focus.enter, pure_bind, htable]
    rfl

end Rulebook.Json
