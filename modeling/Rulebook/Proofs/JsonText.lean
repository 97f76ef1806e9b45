import Rulebook.Proofs.JsonScalars

/-!
# What is written in JSON is read back

Plain data can be written in two layouts, which differ in their white space. Neither matters to the
reader of a text: bytes **spell** a node if they are read as it wherever they stand
(`Node.Spells`), and a list or an object is spelled by its parts with any white space between them.
So each layout spells the same node, the one that the data amount to (`Node.ofData`).

The reader has fuel for two steps a byte, and does not use it up: three steps lead into a list or an
object, which has two brackets, and two steps lead from one part to the next, with a comma between.

From the node the data themselves are read, every table in the order of its keys
(`readBytes_compact`). Data in which all tables are in that order come back as
they are (`Data.sorted_eq_self`).
-/

namespace Rulebook.Json

open Rulebook.Document
open Rulebook.Decimal (twoPow)
open Text (encodeList)

namespace Node

/-! ## White space -/

/-- White space and nothing else. -/
def Blank (bytes : List UInt8) : Prop := ∀ b ∈ bytes, isSpace b = true

theorem dropSpace_blank {gap : List UInt8} (h : Blank gap) (rest : List UInt8) :
    dropSpace (gap ++ rest) = dropSpace rest :=
  List.dropWhile_append_of_pos h

theorem dropSpace_cons {first : UInt8} (h : isSpace first = false) (rest : List UInt8) :
    dropSpace (first :: rest) = first :: rest :=
  List.dropWhile_cons_of_neg (by simp [h])

/-- A value may stand behind white space. -/
theorem parseValue_blank {gap : List UInt8} (h : Blank gap) (fuel : Nat) (rest : List UInt8) :
    parseValue fuel (gap ++ rest) = parseValue fuel rest := by
  cases fuel with
  | zero => rfl
  | succ fuel => rw [parseValue, parseValue, dropSpace_blank h]

/-! ## Values and their parts -/

/-- **Bytes spell a value** if they are read as it wherever they stand. -/
structure Spells (bytes : List UInt8) (node : Node) : Prop where
  /-- They start with something that is no white space and closes nothing. -/
  opens : ∃ first more, bytes = first :: more ∧ isSpace first = false ∧ first ≠ 93
  /-- They are read as the value, with fuel for their number. -/
  parses : ∀ fuel rest, 2 * bytes.length ≤ fuel + 1 → Ends rest →
    parseValue fuel (bytes ++ rest) = (node, some rest)

/-- **Bytes spell the items of a list that are still to come**, and its end. -/
structure SpellsItems (bytes : List UInt8) (nodes : List Node) : Prop where
  /-- A value may stand before them. -/
  ends : ∀ rest, Ends (bytes ++ rest)
  /-- They are not empty. -/
  length_pos : 0 < bytes.length
  /-- They are read as the items. -/
  parses : ∀ fuel rest, 2 * bytes.length ≤ fuel + 1 →
    parseItems fuel false (bytes ++ rest) = (nodes, none, some rest)

/-- **Bytes spell the entries of an object that are still to come**, and its end. -/
structure SpellsMembers (bytes : List UInt8) (members : List (Node × Node)) : Prop where
  /-- A value may stand before them. -/
  ends : ∀ rest, Ends (bytes ++ rest)
  /-- They are not empty. -/
  length_pos : 0 < bytes.length
  /-- They are read as the entries. -/
  parses : ∀ fuel rest, 2 * bytes.length ≤ fuel + 1 →
    parseMembers fuel false (bytes ++ rest) = (members, none, some rest)

/-- What may stand behind a value may do so behind white space. -/
theorem Ends.blank {gap bytes : List UInt8} (h : Blank gap) (hbytes : Ends bytes) :
    Ends (gap ++ bytes) := by
  cases gap with
  | nil => exact hbytes
  | cons b gap =>
    rintro _ ⟨⟩
    exact .inl (h b (List.mem_cons_self ..))

namespace SpellsItems

variable {gap bytes tail : List UInt8} {node : Node} {nodes : List Node}

/-- No item is left. -/
theorem nil (hgap : Blank gap) : SpellsItems (gap ++ [93]) [] where
  ends rest := by
    rw [List.append_assoc]
    refine Ends.blank hgap ?_
    rintro _ ⟨⟩
    exact .inr (.inr (.inl rfl))
  length_pos := by simp
  parses fuel rest hfuel := by
    rw [List.length_append, List.length_singleton] at hfuel
    obtain ⟨fuel, rfl⟩ : ∃ more, fuel = more + 1 := ⟨fuel - 1, by omega⟩
    rw [List.append_assoc, parseItems, dropSpace_blank hgap, List.singleton_append,
      dropSpace_cons (by decide)]
    rfl

/-- An item is read, and those behind it. -/
theorem parseItemThen_eq (h : Spells bytes node) (htail : SpellsItems tail nodes) (fuel : Nat)
    (hfuel : 2 * (bytes.length + tail.length) ≤ fuel + 2) (rest : List UInt8) :
    parseItemThen fuel (bytes ++ (tail ++ rest)) = (node :: nodes, none, some rest) := by
  obtain ⟨first, more, hbytes, -, -⟩ := h.opens
  have hitem : 0 < bytes.length := by simp [hbytes]
  have hends := htail.length_pos
  -- The item and what is behind it are read with the same fuel, which is enough for either.
  obtain ⟨fuel, rfl⟩ : ∃ less, fuel = less + 1 := ⟨fuel - 1, by omega⟩
  rw [parseItemThen, h.parses fuel _ (by omega) (htail.ends rest)]
  dsimp only
  rw [htail.parses fuel rest (by omega)]

/-- One more item. -/
theorem cons (hgap : Blank gap) (h : Spells bytes node) (htail : SpellsItems tail nodes) :
    SpellsItems (44 :: gap ++ bytes ++ tail) (node :: nodes) where
  ends rest := by
    rintro _ ⟨⟩
    exact .inr (.inl rfl)
  length_pos := by simp
  parses fuel rest hfuel := by
    simp only [List.length_append, List.length_cons] at hfuel
    obtain ⟨fuel, rfl⟩ : ∃ less, fuel = less + 1 := ⟨fuel - 1, by omega⟩
    have hthen := parseItemThen_eq h htail fuel (by omega) rest
    obtain ⟨first, more, rfl, hspace, hopens⟩ := h.opens
    have hbytes : 44 :: gap ++ (first :: more) ++ tail ++ rest
      = 44 :: (gap ++ first :: (more ++ (tail ++ rest))) := by simp
    rw [hbytes, parseItems, dropSpace_cons (by decide)]
    dsimp only
    rw [if_neg (by decide), if_neg Bool.false_ne_true, if_pos (by decide), dropSpace_blank hgap,
      dropSpace_cons hspace]
    dsimp only
    -- Behind the comma stands an item: no value starts with the closing bracket.
    rw [if_neg (by simpa using hopens)]
    exact hthen

end SpellsItems

namespace SpellsMembers

variable {gap space bytes tail : List UInt8} {node : Node} {members : List (Node × Node)}

/-- No entry is left. -/
theorem nil (hgap : Blank gap) : SpellsMembers (gap ++ [125]) [] where
  ends rest := by
    rw [List.append_assoc]
    refine Ends.blank hgap ?_
    rintro _ ⟨⟩
    exact .inr (.inr (.inr rfl))
  length_pos := by simp
  parses fuel rest hfuel := by
    rw [List.length_append, List.length_singleton] at hfuel
    obtain ⟨fuel, rfl⟩ : ∃ less, fuel = less + 1 := ⟨fuel - 1, by omega⟩
    rw [List.append_assoc, parseMembers, dropSpace_blank hgap, List.singleton_append,
      dropSpace_cons (by decide)]
    rfl

/-- An entry is read, and those behind it. -/
theorem parseMemberThen_eq (key : String) (hspace : Blank space) (h : Spells bytes node)
    (htail : SpellsMembers tail members) (fuel : Nat)
    (hfuel : 2 * (bytes.length + tail.length) ≤ fuel + 2) (rest : List UInt8) :
    parseMemberThen fuel
        (encodeList (stringChars key) ++ (58 :: space ++ (bytes ++ (tail ++ rest))))
      = ((.text (.ok key), node) :: members, none, some rest) := by
  obtain ⟨first, more, hbytes, -, -⟩ := h.opens
  have hitem : 0 < bytes.length := by simp [hbytes]
  have hends := htail.length_pos
  obtain ⟨fuel, rfl⟩ : ∃ less, fuel = less + 1 := ⟨fuel - 1, by omega⟩
  rw [encode_stringChars, List.cons_append, List.append_assoc, List.singleton_append,
    parseMemberThen, parseString_chars]
  simp only [List.cons_append, dropSpace_cons (show isSpace 58 = false by decide)]
  rw [parseValue_blank hspace, h.parses fuel _ (by omega) (htail.ends rest)]
  simp only [htail.parses fuel rest (by omega)]

/-- One more entry. -/
theorem cons (key : String) (hgap : Blank gap) (hspace : Blank space) (h : Spells bytes node)
    (htail : SpellsMembers tail members) :
    SpellsMembers (44 :: gap ++ (encodeList (stringChars key) ++ (58 :: space ++ bytes ++ tail)))
      ((.text (.ok key), node) :: members) where
  ends rest := by
    rintro _ ⟨⟩
    exact .inr (.inl rfl)
  length_pos := by simp
  parses fuel rest hfuel := by
    simp only [List.length_append, List.length_cons] at hfuel
    obtain ⟨fuel, rfl⟩ : ∃ less, fuel = less + 1 := ⟨fuel - 1, by omega⟩
    have hthen := parseMemberThen_eq key hspace h htail fuel (by omega) rest
    have hbytes :
        44 :: gap ++ (encodeList (stringChars key) ++ (58 :: space ++ bytes ++ tail)) ++ rest
          = 44 :: (gap ++
              (encodeList (stringChars key) ++ (58 :: space ++ (bytes ++ (tail ++ rest))))) := by
      simp
    rw [hbytes, parseMembers, dropSpace_cons (by decide)]
    dsimp only
    rw [if_neg (by decide), if_neg Bool.false_ne_true, if_pos (by decide), dropSpace_blank hgap]
    rw [encode_stringChars] at hthen ⊢
    rw [List.cons_append, dropSpace_cons (by decide)]
    exact hthen

end SpellsMembers

namespace Spells

/-- What is read without looking any further spells a value. -/
theorem of_first {first : UInt8} {more : List UInt8} {node : Node} (hspace : isSpace first = false)
    (hopens : first ≠ 93) (h : ∀ fuel rest, 2 * (first :: more).length ≤ fuel + 2 → Ends rest →
      parseValue (fuel + 1) (first :: (more ++ rest)) = (node, some rest)) :
    Spells (first :: more) node where
  opens := ⟨first, more, rfl, hspace, hopens⟩
  parses fuel rest hfuel hends := by
    have hpos : 0 < (first :: more).length := by simp
    obtain ⟨fuel, rfl⟩ : ∃ less, fuel = less + 1 := ⟨fuel - 1, by omega⟩
    exact h fuel rest (by omega) hends

theorem null : Spells (encodeList (scalarChars .null)) .null :=
  .of_first (by decide) (by decide) fun fuel rest _ _ => by
    rw [parseValue, dropSpace_cons (by decide)]
    rfl

theorem flag (value : Bool) : Spells (encodeList (scalarChars (.flag value))) (.flag value) := by
  cases value with
  | false =>
    refine .of_first (by decide) (by decide) fun fuel rest _ _ => ?_
    rw [parseValue, dropSpace_cons (by decide)]
    rfl
  | true =>
    refine .of_first (by decide) (by decide) fun fuel rest _ _ => ?_
    rw [parseValue, dropSpace_cons (by decide)]
    rfl

theorem text (value : String) :
    Spells (encodeList (scalarChars (.text value))) (.text (.ok value)) := by
  rw [scalarChars, encode_stringChars]
  refine .of_first (by decide) (by decide) fun fuel rest _ _ => ?_
  rw [List.append_assoc, List.singleton_append, parseValue, dropSpace_cons (by decide)]
  exact parseString_chars value rest

/-- Whole numbers start with a digit or a minus sign. -/
theorem integerChars_first (value : Int) : ∃ first more,
    encodeList (integerChars value) = first :: more ∧ (isDigit first = true ∨ first = 45) := by
  cases value with
  | ofNat n =>
    rcases Nat.eq_zero_or_pos n with rfl | hpos
    · exact ⟨48, [], by decide, .inl (by decide)⟩
    · obtain ⟨first, more, hdigits, -⟩ := head_digits hpos
      exact ⟨first, more, hdigits, .inl (isDigit_digits n first (by simp [hdigits]))⟩
  | negSucc n => exact ⟨45, _, rfl, .inr rfl⟩

theorem integer {value : Int} (hlow : -twoPow 63 ≤ value) (hhigh : value < twoPow 64) :
    Spells (encodeList (scalarChars (.integer value))) (.number (.ok (.integer value))) := by
  obtain ⟨first, more, hbytes, hfirst⟩ := integerChars_first value
  have hall : ∀ b : UInt8, isDigit b = true ∨ b = 45 → isSpace b = false ∧ b ≠ 93 ∧ b ≠ 110
      ∧ b ≠ 116 ∧ b ≠ 102 ∧ b ≠ 34 := by
    rintro b (h | rfl)
    · simp only [isDigit, Bool.and_eq_true, decide_eq_true_iff, UInt8.le_iff_toNat_le] at h
      have hne {n : UInt8} (hn : n.toNat < 48 ∨ 57 < n.toNat) : b ≠ n := by
        rintro rfl
        have hlow : 48 ≤ b.toNat := h.1
        have hhigh : b.toNat ≤ 57 := h.2
        omega
      simp [isSpace, hne]
    · decide
  obtain ⟨hspace, hclose, hnull, htrue, hfalse, hquote⟩ := hall first hfirst
  rw [scalarChars, hbytes]
  refine .of_first hspace hclose fun fuel rest _ hends => ?_
  have hnumber := hends.parseNumber_integer hlow hhigh
  rw [hbytes] at hnumber
  rw [parseValue, dropSpace_cons hspace]
  dsimp only
  rw [if_neg (by simpa using hnull), if_neg (by simpa using htrue), if_neg (by simpa using hfalse),
    if_neg (by simpa using hquote), if_pos (by simpa using hfirst.symm)]
  exact hnumber

section Lists

variable {gap bytes tail : List UInt8} {node : Node} {nodes : List Node}

/-- The list without items. -/
theorem list_nil : Spells [91, 93] (.list [] none) :=
  .of_first (by decide) (by decide) fun fuel rest hfuel _ => by
    obtain ⟨fuel, rfl⟩ : ∃ less, fuel = less + 1 := ⟨fuel - 1, by simp at hfuel; omega⟩
    rw [parseValue, dropSpace_cons (by decide)]
    rfl

/-- A list of items. -/
theorem list_cons (hgap : Blank gap) (h : Spells bytes node) (htail : SpellsItems tail nodes) :
    Spells (91 :: (gap ++ (bytes ++ tail))) (.list (node :: nodes) none) := by
  refine .of_first (by decide) (by decide) fun fuel rest hfuel _ => ?_
  simp only [List.length_append, List.length_cons] at hfuel
  have hpos := htail.length_pos
  obtain ⟨fuel, rfl⟩ : ∃ less, fuel = less + 1 := ⟨fuel - 1, by omega⟩
  have hthen := SpellsItems.parseItemThen_eq h htail fuel (by omega) rest
  obtain ⟨first, more, rfl, hspace, hopens⟩ := h.opens
  have hbytes : gap ++ (first :: more ++ tail) ++ rest
    = gap ++ first :: (more ++ (tail ++ rest)) := by simp
  have hitems : parseItems (fuel + 1) true (gap ++ (first :: more ++ tail) ++ rest)
      = (node :: nodes, none, some rest) := by
    rw [hbytes, parseItems, dropSpace_blank hgap, dropSpace_cons hspace]
    dsimp only
    rw [if_neg (by simpa using hopens), if_pos rfl]
    exact hthen
  rw [parseValue, dropSpace_cons (by decide)]
  dsimp only
  rw [hitems]
  rfl

end Lists

section Objects

variable {gap space bytes tail : List UInt8} {node : Node} {members : List (Node × Node)}

/-- The object without entries. -/
theorem object_nil : Spells [123, 125] (.object [] none) :=
  .of_first (by decide) (by decide) fun fuel rest hfuel _ => by
    obtain ⟨fuel, rfl⟩ : ∃ less, fuel = less + 1 := ⟨fuel - 1, by simp at hfuel; omega⟩
    rw [parseValue, dropSpace_cons (by decide)]
    rfl

/-- An object of entries. -/
theorem object_cons (key : String) (hgap : Blank gap) (hspace : Blank space) (h : Spells bytes node)
    (htail : SpellsMembers tail members) :
    Spells (123 :: (gap ++ (encodeList (stringChars key) ++ (58 :: space ++ (bytes ++ tail)))))
      (.object ((.text (.ok key), node) :: members) none) := by
  refine .of_first (by decide) (by decide) fun fuel rest hfuel _ => ?_
  simp only [List.length_append, List.length_cons] at hfuel
  have hpos := htail.length_pos
  obtain ⟨fuel, rfl⟩ : ∃ less, fuel = less + 1 := ⟨fuel - 1, by omega⟩
  have hthen := SpellsMembers.parseMemberThen_eq key hspace h htail fuel (by omega) rest
  have hbytes : gap ++ (encodeList (stringChars key) ++ (58 :: space ++ (bytes ++ tail))) ++ rest
    = gap ++ (encodeList (stringChars key) ++ (58 :: space ++ (bytes ++ (tail ++ rest)))) := by simp
  have hmembers : parseMembers (fuel + 1) true
      (gap ++ (encodeList (stringChars key) ++ (58 :: space ++ (bytes ++ tail))) ++ rest)
      = ((.text (.ok key), node) :: members, none, some rest) := by
    rw [encode_stringChars] at hthen hbytes ⊢
    rw [hbytes, parseMembers, dropSpace_blank hgap, List.cons_append, dropSpace_cons (by decide)]
    exact hthen
  rw [parseValue, dropSpace_cons (by decide)]
  dsimp only
  rw [hmembers]
  rfl

end Objects

end Spells

/-! ## The node of data -/

mutual

/-- **The node that data amount to.** -/
def ofData : Data → Node
  | .null => .null
  | .flag value => .flag value
  | .integer value => .number (.ok (.integer value))
  | .float value => .number (.ok (.float value))
  | .text value => .text (.ok value)
  | .list items => .list (ofItems items) none
  | .table entries => .object (ofEntries entries) none

/-- The nodes of the items of a list. -/
def ofItems : List Data → List Node
  | [] => []
  | item :: rest => ofData item :: ofItems rest

/-- The nodes of the entries of a table. -/
def ofEntries : List (String × Data) → List (Node × Node)
  | [] => []
  | (key, value) :: rest => (.text (.ok key), ofData value) :: ofEntries rest

end

end Node

/-- **Data that JSON keeps**, nested no deeper than given: no number in them has a point, and each
fits into 64 bits. -/
inductive Kept : Nat → Data → Prop
  /-- Nothing. -/
  | null (depth : Nat) : Kept depth .null
  /-- A truth value. -/
  | flag (depth : Nat) (value : Bool) : Kept depth (.flag value)
  /-- A whole number that 64 bits hold. -/
  | integer (depth : Nat) {value : Int} (low : -twoPow 63 ≤ value) (high : value < twoPow 64) :
    Kept depth (.integer value)
  /-- A text. -/
  | text (depth : Nat) (value : String) : Kept depth (.text value)
  /-- A list, one level deeper than its items. -/
  | list {depth : Nat} {items : List Data} (h : ∀ item ∈ items, Kept depth item) :
    Kept (depth + 1) (.list items)
  /-- A table, one level deeper than its values. -/
  | table {depth : Nat} {entries : List (String × Data)}
    (h : ∀ entry ∈ entries, Kept depth entry.2) : Kept (depth + 1) (.table entries)

namespace Node

/-! ## The compact layout -/

theorem encodeList_append (chars more : List Char) :
    encodeList (chars ++ more) = encodeList chars ++ encodeList more :=
  List.flatMap_append

theorem encodeList_comma (chars : List Char) : encodeList (',' :: chars) = 44 :: encodeList chars :=
  rfl

theorem encodeList_colon (chars : List Char) : encodeList (':' :: chars) = 58 :: encodeList chars :=
  rfl

theorem encodeList_space (chars : List Char) : encodeList (' ' :: chars) = 32 :: encodeList chars :=
  rfl

/-- No white space. -/
theorem blank_nil : Blank [] := fun _ h => nomatch h

/-- The items of a list with the bracket behind them are an item and what follows it. -/
theorem compactItems_spells {item : Data} {rest : List Data}
    (h : ∀ data ∈ item :: rest, Spells (encodeList (compactChars data)) (ofData data)) :
    ∃ bytes tail, encodeList (compactItems (item :: rest) ++ [']']) = bytes ++ tail
      ∧ Spells bytes (ofData item) ∧ SpellsItems tail (ofItems rest) := by
  induction rest generalizing item with
  | nil =>
    refine ⟨_, [93], ?_, h item (List.mem_cons_self ..), .nil blank_nil⟩
    rw [compactItems, encodeList_append]
    rfl
  | cons next rest ih =>
    obtain ⟨hitem, hrest⟩ := List.forall_mem_cons.1 h
    obtain ⟨bytes, tail, hbytes, hnext, htail⟩ := ih hrest
    refine ⟨_, 44 :: [] ++ bytes ++ tail, ?_, hitem, .cons blank_nil hnext htail⟩
    rw [compactItems, List.append_assoc, List.cons_append, encodeList_append, encodeList_comma,
      hbytes]
    · rfl
    · exact List.cons_ne_nil next rest

/-- The entries of an object with the bracket behind them are an entry and what follows it. -/
theorem compactEntries_spells {key : String} {value : Data} {rest : List (String × Data)}
    (h : ∀ entry ∈ (key, value) :: rest,
      Spells (encodeList (compactChars entry.2)) (ofData entry.2)) :
    ∃ bytes tail, encodeList (compactEntries ((key, value) :: rest) ++ ['\x7d'])
        = encodeList (stringChars key) ++ 58 :: (bytes ++ tail)
      ∧ Spells bytes (ofData value) ∧ SpellsMembers tail (ofEntries rest) := by
  induction rest generalizing key value with
  | nil =>
    refine ⟨_, [125], ?_, h _ (List.mem_cons_self ..), .nil blank_nil⟩
    rw [compactEntries, List.append_assoc, List.cons_append, encodeList_append, encodeList_colon,
      encodeList_append]
    rfl
  | cons next rest ih =>
    obtain ⟨hvalue, hrest⟩ := List.forall_mem_cons.1 h
    obtain ⟨bytes, tail, hbytes, hnext, htail⟩ := ih hrest
    refine ⟨_, 44 :: [] ++ (encodeList (stringChars next.1) ++ (58 :: [] ++ bytes ++ tail)), ?_,
      hvalue, .cons next.1 blank_nil blank_nil hnext htail⟩
    rw [compactEntries]
    · simp only [List.append_assoc, List.cons_append, encodeList_append, encodeList_colon,
        encodeList_comma, List.nil_append] at hbytes ⊢
      rw [hbytes]
    · exact List.cons_ne_nil next rest

/-- **The compact layout spells the node of the data.** -/
theorem spells_compact {depth : Nat} {data : Data} (h : Kept depth data) :
    Spells (encodeList (compactChars data)) (ofData data) := by
  induction h with
  | null depth => exact .null
  | flag depth value => exact .flag value
  | integer depth low high => exact .integer low high
  | text depth value => exact .text value
  | @list depth items h ih =>
    cases items with
    | nil => exact .list_nil
    | cons item rest =>
      -- The first item stands behind the bracket, and every other one behind a comma.
      obtain ⟨bytes, tail, hbytes, hitem, htail⟩ := compactItems_spells ih
      have hlist := Spells.list_cons blank_nil hitem htail
      rw [List.nil_append, ← hbytes] at hlist
      exact hlist
  | @table depth entries h ih =>
    cases entries with
    | nil => exact .object_nil
    | cons entry rest =>
      obtain ⟨bytes, tail, hbytes, hvalue, htail⟩ := compactEntries_spells ih
      have hobject := Spells.object_cons entry.1 blank_nil blank_nil hvalue htail
      rw [List.nil_append, List.cons_append, List.nil_append, ← hbytes] at hobject
      exact hobject

/-! ## The indented layout -/

/-- A new line is white space. -/
theorem blank_newLine (level : Nat) : Blank (encodeList (newLine level)) := by
  have hspaces (n : Nat) : Blank (encodeList (List.replicate n ' ')) := by
    induction n with
    | zero => exact blank_nil
    | succ n ih => exact List.forall_mem_cons.2 ⟨rfl, ih⟩
  exact List.forall_mem_cons.2 ⟨rfl, hspaces (2 * level)⟩

theorem blank_space : Blank [32] := List.forall_mem_singleton.2 rfl

/-- The items behind the first one, up to the bracket behind them. -/
theorem indentedItems_spells {level : Nat} (outer : Nat) {items : List Data}
    (h : ∀ data ∈ items, Spells (encodeList (indentedChars level data)) (ofData data)) :
    SpellsItems (encodeList (indentedItems level items) ++ (encodeList (newLine outer) ++ [93]))
      (ofItems items) := by
  induction items with
  | nil => exact .nil (blank_newLine outer)
  | cons item rest ih =>
    obtain ⟨hitem, hrest⟩ := List.forall_mem_cons.1 h
    have hitems := SpellsItems.cons (blank_newLine level) hitem (ih hrest)
    simp only [indentedItems, encodeList_append, encodeList_comma, List.cons_append,
      List.append_assoc] at hitems ⊢
    exact hitems

/-- The entries behind the first one, up to the bracket behind them. -/
theorem indentedEntries_spells {level : Nat} (outer : Nat) {entries : List (String × Data)}
    (h : ∀ entry ∈ entries, Spells (encodeList (indentedChars level entry.2)) (ofData entry.2)) :
    SpellsMembers
      (encodeList (indentedEntries level entries) ++ (encodeList (newLine outer) ++ [125]))
      (ofEntries entries) := by
  induction entries with
  | nil => exact .nil (blank_newLine outer)
  | cons entry rest ih =>
    obtain ⟨hvalue, hrest⟩ := List.forall_mem_cons.1 h
    have hentries := SpellsMembers.cons entry.1 (blank_newLine level) blank_space hvalue (ih hrest)
    simp only [indentedEntries, encodeList_append, encodeList_comma, encodeList_colon,
      encodeList_space, List.cons_append, List.nil_append, List.append_assoc] at hentries ⊢
    exact hentries

/-- **The indented layout spells the node of the data** as well. -/
theorem spells_indented {depth : Nat} {data : Data} (h : Kept depth data) (level : Nat) :
    Spells (encodeList (indentedChars level data)) (ofData data) := by
  induction h generalizing level with
  | null depth => exact .null
  | flag depth value => exact .flag value
  | integer depth low high => exact .integer low high
  | text depth value => exact .text value
  | @list depth items h ih =>
    cases items with
    | nil => exact .list_nil
    | cons item rest =>
      obtain ⟨hitem, hrest⟩ := List.forall_mem_cons.1 (fun data hdata => ih data hdata (level + 1))
      have hlist := Spells.list_cons (blank_newLine (level + 1)) hitem
        (indentedItems_spells level hrest)
      simp only [indentedChars, encodeList_append, List.append_assoc]
      exact hlist
  | @table depth entries h ih =>
    cases entries with
    | nil => exact .object_nil
    | cons entry rest =>
      obtain ⟨hvalue, hrest⟩ :=
        List.forall_mem_cons.1 (fun entry hentry => ih entry hentry (level + 1))
      have hobject := Spells.object_cons entry.1 (blank_newLine (level + 1)) blank_space hvalue
        (indentedEntries_spells level hrest)
      simp only [indentedChars, encodeList_append, List.append_assoc]
      exact hobject

end Node

/-! ## The data are read -/

/-- The nodes of items are read as the items. -/
theorem readParts_ofItems {depth : Nat} {items : List Data}
    (h : ∀ item ∈ items, readDataAt depth ⟨Node.ofData item, depth⟩ = pure item.sorted) :
    readParts (readDataAt depth) ⟨(Node.ofItems items).map (Focus.mk · depth), none⟩
      = pure (Data.sortedItems items) := by
  have hmapM : ((Node.ofItems items).map (Focus.mk · depth)).mapM (readDataAt depth)
      = pure (Data.sortedItems items) := by
    induction items with
    | nil => rfl
    | cons item rest ih =>
      obtain ⟨hitem, hrest⟩ := List.forall_mem_cons.1 h
      rw [Node.ofItems, List.map_cons, List.mapM_cons, hitem, pure_bind, ih hrest, pure_bind,
        Data.sortedItems]
  unfold readParts
  dsimp only
  rw [hmapM, pure_bind]
  rfl

/-- The nodes of entries are read as the entries, and put into the table one by one. -/
theorem readDataMembers_ofEntries {depth : Nat} {entries : List (String × Data)}
    (h : ∀ entry ∈ entries, readDataAt depth ⟨Node.ofData entry.2, depth⟩ = pure entry.2.sorted)
    (done : Table Data) :
    readDataMembers (readDataAt depth)
        ((Node.ofEntries entries).map fun member => (⟨member.1, depth⟩, ⟨member.2, depth⟩)) done
      = pure (Data.sortedEntries entries done) := by
  induction entries generalizing done with
  | nil => rfl
  | cons entry rest ih =>
    obtain ⟨hvalue, hrest⟩ := List.forall_mem_cons.1 h
    rw [Node.ofEntries, List.map_cons, readDataMembers, Data.sortedEntries]
    show (pure entry.1 >>= _) = _
    rw [pure_bind, hvalue, pure_bind]
    exact ih hrest (done.insert entry.1 entry.2.sorted)

/-- **From their node data are read**, every table in the order of its keys. -/
theorem readDataAt_ofData {depth : Nat} {data : Data} (h : Kept depth data) :
    readDataAt depth ⟨Node.ofData data, depth⟩ = pure data.sorted := by
  induction h with
  | null depth => rw [readDataAt.eq_def]; rfl
  | flag depth value => rw [readDataAt.eq_def]; rfl
  | integer depth low high => rw [readDataAt.eq_def]; rfl
  | text depth value => rw [readDataAt.eq_def]; rfl
  | @list depth items h ih =>
    rw [readDataAt.eq_def]
    show Data.list <$> readParts (readDataAt depth)
      ⟨(Node.ofItems items).map (Focus.mk · depth), none⟩ = _
    rw [readParts_ofItems ih, map_pure, Data.sorted]
  | @table depth entries h ih =>
    rw [readDataAt.eq_def]
    simp only [Node.ofData, Focus.enterMembers, Focus.enter, pure_bind,
      readDataMembers_ofEntries ih]
    rw [Data.sorted]
    rfl

/-- Bytes that spell a value are its whole text. -/
theorem Node.Spells.ofBytes {bytes : List UInt8} {node : Node} (h : Node.Spells bytes node) :
    Node.ofBytes bytes = (node, some []) := by
  have hparse := h.parses (2 * bytes.length + 2) [] (by omega) (fun _ hb => nomatch hb)
  rwa [List.append_nil] at hparse

/-- A text is read when the node that it spells is. -/
theorem readBytes_of_spells {α : Type} {reader : Focus → Reading α} {bytes : List UInt8}
    {node : Node} {value : α} (h : Node.Spells bytes node)
    (hread : reader ⟨node, maxDepth⟩ = pure value) : readBytes reader bytes = .ok value := by
  rw [readBytes, h.ofBytes]
  dsimp only
  rw [hread]
  rfl

/-- The compact text of data spells them. -/
theorem spells_encode_compact {depth : Nat} {data : Data} (h : Kept depth data) :
    Node.Spells (Text.encode (compact data)) (Node.ofData data) := by
  rw [compact, Text.encode, String.toList_ofList]
  exact Node.spells_compact h

/-- So does the indented one. -/
theorem spells_encode_indented {depth : Nat} {data : Data} (h : Kept depth data) :
    Node.Spells (Text.encode (indented data)) (Node.ofData data) := by
  rw [indented, Text.encode, String.toList_ofList]
  exact Node.spells_indented h 0

/-- **Compact JSON is read back**, every table in the order of its keys. -/
theorem readBytes_compact {data : Data} (h : Kept maxDepth data) :
    readBytes readData (Text.encode (compact data)) = .ok data.sorted :=
  readBytes_of_spells (spells_encode_compact h) (readDataAt_ofData h)

end Rulebook.Json

/-! ## Tables in the order of their keys -/

namespace Rulebook.Document.Data

/-- The entries are sorted one by one, and put into the table. -/
theorem sortedEntries_eq (entries : List (String × Data)) (done : Table Data) :
    sortedEntries entries done = (entries.map fun entry => (entry.1, entry.2.sorted)).foldl
      (fun table entry => table.insert entry.1 entry.2) done := by
  induction entries generalizing done with
  | nil => rfl
  | cons entry entries ih => rw [sortedEntries, ih, List.map_cons, List.foldl_cons]

/-- **Sorting a table** is putting its sorted parts into a table. -/
theorem sorted_table (entries : List (String × Data)) : (Data.table entries).sorted
    = .table (Table.ofList (entries.map fun entry => (entry.1, entry.2.sorted))).entries := by
  rw [sorted, sortedEntries_eq]
  rfl

/-- Entries that are in order stay there when their values are sorted. -/
theorem sorted_entries (table : Table Data) :
    (Data.table table.entries).sorted = .table (table.map sorted).entries := by
  rw [sorted_table]
  exact congrArg (fun table => Data.table (Table.entries table))
    (Table.ofList_entries (table.map sorted))

/-- **What is sorted all through stays as it is.** -/
theorem sorted_eq_self {entries : List (String × Data)}
    (hkeys : (entries.map (·.1)).Pairwise (· < ·))
    (hvalues : ∀ entry ∈ entries, entry.2.sorted = entry.2) :
    (Data.table entries).sorted = .table entries := by
  refine (sorted_entries ⟨entries, List.pairwise_map.1 hkeys⟩).trans (congrArg Data.table ?_)
  refine (List.map_congr_left fun entry hentry => ?_).trans (List.map_id entries)
  rw [hvalues entry hentry]
  rfl

/-- What a table of values becomes is in order already. -/
theorem sorted_ofTable {V : Type} (f : V → Data) (table : Table V) :
    (ofTable f table).sorted = .table (table.map fun value => (f value).sorted).entries := by
  refine (sorted_entries (table.map f)).trans ?_
  simp [Table.map]

end Rulebook.Document.Data
