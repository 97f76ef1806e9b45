import Rulebook.MessagePack
import Rulebook.Document.Plain
import Rulebook.Proofs.Utf8
import Mathlib.Tactic.Ring

/-!
# What is written in MessagePack is read back

A reader of MessagePack looks at the first byte of a value, which says what follows: the value is
there already, or so many bytes of a text, or so many items of a list or entries of a table
(`readHead`). `decode` reads a value in this way and leaves what follows it.

Nothing is lost: `decode_encode` says that plain data that were written are read back and that
exactly their bytes are used up. The lengths must be such that four bytes hold them, whole numbers
such that eight do, and lists and tables must not be nested deeper than the reader follows.
-/

namespace Rulebook.MessagePack

open Rulebook.Decimal (twoPow Binary64)
open Rulebook.Document

/-! ## The reader -/

/-- The number that bytes are, highest first. -/
def bigEndianValue (bytes : List UInt8) : Nat :=
  bytes.foldl (fun n byte => n * 256 + byte.toNat) 0

/-- So many bytes and what follows them, if there are so many. -/
def take? (count : Nat) (bytes : List UInt8) : Option (List UInt8 × List UInt8) :=
  if count ≤ bytes.length then some (bytes.take count, bytes.drop count) else none

/-- A number of so many bytes and what follows it. -/
def readNumber (width : Nat) (bytes : List UInt8) : Option (Nat × List UInt8) :=
  (take? width bytes).map fun (digits, rest) => (bigEndianValue digits, rest)

/-- The whole number that so many bytes are when the highest bit is for the sign. -/
def signed (width n : Nat) : Int :=
  if n < twoPow (8 * width - 1) then n else n - twoPow (8 * width)

/-- **What the beginning of a value says.** -/
inductive Head where
  /-- The value is there. -/
  | whole (data : Data)
  /-- A text of so many bytes follows. -/
  | text (size : Nat)
  /-- A list of so many items follows. -/
  | list (size : Nat)
  /-- A table of so many entries follows. -/
  | table (size : Nat)

/-- A beginning that goes on with a number of so many bytes. -/
def sized (width : Nat) (make : Nat → Head) (bytes : List UInt8) : Option (Head × List UInt8) :=
  (readNumber width bytes).map fun (n, rest) => (make n, rest)

/-- **Reads the beginning of a value.** Bytes that begin no plain data are refused. -/
def readHead : List UInt8 → Option (Head × List UInt8)
  | [] => none
  | first :: rest =>
    let n := first.toNat
    if n < 0x80 then some (.whole (.integer n), rest)
    else if n < 0x90 then some (.table (n - 0x80), rest)
    else if n < 0xA0 then some (.list (n - 0x90), rest)
    else if n < 0xC0 then some (.text (n - 0xA0), rest)
    else if 0xE0 ≤ n then some (.whole (.integer ((n : Int) - 256)), rest)
    else match n with
      | 0xC0 => some (.whole .null, rest)
      | 0xC2 => some (.whole (.flag false), rest)
      | 0xC3 => some (.whole (.flag true), rest)
      | 0xCB => sized 8 (fun bits => .whole (.float ⟨UInt64.ofNat bits⟩)) rest
      | 0xCC => sized 1 (fun n => .whole (.integer n)) rest
      | 0xCD => sized 2 (fun n => .whole (.integer n)) rest
      | 0xCE => sized 4 (fun n => .whole (.integer n)) rest
      | 0xCF => sized 8 (fun n => .whole (.integer n)) rest
      | 0xD0 => sized 1 (fun n => .whole (.integer (signed 1 n))) rest
      | 0xD1 => sized 2 (fun n => .whole (.integer (signed 2 n))) rest
      | 0xD2 => sized 4 (fun n => .whole (.integer (signed 4 n))) rest
      | 0xD3 => sized 8 (fun n => .whole (.integer (signed 8 n))) rest
      | 0xD9 => sized 1 .text rest
      | 0xDA => sized 2 .text rest
      | 0xDB => sized 4 .text rest
      | 0xDC => sized 2 .list rest
      | 0xDD => sized 4 .list rest
      | 0xDE => sized 2 .table rest
      | 0xDF => sized 4 .table rest
      | _ => none

/-- Reads a text of so many bytes. -/
def readText (size : Nat) (bytes : List UInt8) : Option (String × List UInt8) :=
  match take? size bytes with
  | some (content, rest) => (Text.decode? content).map fun text => (text, rest)
  | none => none

/-- Reads so many parts one after the other. -/
def readMany {α : Type} (read : List UInt8 → Option (α × List UInt8)) :
    Nat → List UInt8 → Option (List α × List UInt8)
  | 0, bytes => some ([], bytes)
  | count + 1, bytes =>
    match read bytes with
    | some (part, rest) => (readMany read count rest).map fun (parts, rest) => (part :: parts, rest)
    | none => none

/-- Reads a key and the value behind it. -/
def readEntry (read : List UInt8 → Option (Data × List UInt8)) (bytes : List UInt8) :
    Option ((String × Data) × List UInt8) :=
  match readHead bytes with
  | some (.text size, rest) =>
    match readText size rest with
    | some (key, rest) => (read rest).map fun (value, rest) => ((key, value), rest)
    | none => none
  | _ => none

/-- **Reads plain data**, nested no deeper than given, and leaves what follows them. -/
def decode (depth : Nat) (bytes : List UInt8) : Option (Data × List UInt8) :=
  match readHead bytes with
  | none => none
  | some (.whole data, rest) => some (data, rest)
  | some (.text size, rest) => (readText size rest).map fun (text, rest) => (.text text, rest)
  | some (.list size, rest) =>
    match depth with
    | 0 => none
    | depth + 1 => (readMany (decode depth) size rest).map fun (items, rest) => (.list items, rest)
  | some (.table size, rest) =>
    match depth with
    | 0 => none
    | depth + 1 =>
      (readMany (readEntry (decode depth)) size rest).map fun (entries, rest) =>
        (.table entries, rest)

/-- How deep a reader follows lists and tables. -/
def maxDepth : Nat := 1024

/-- **Reads a typed value** and leaves what follows it. -/
def read {α : Type} (reader : Data → Reading α) (bytes : List UInt8) : Option (α × List UInt8) :=
  match decode maxDepth bytes with
  | some (data, rest) => ((reader data).value.toOption).map fun value => (value, rest)
  | none => none

/-! ## Numbers -/

theorem length_bigEndian (width n : Nat) : (bigEndian width n).length = width := by
  induction width with
  | zero => rfl
  | succ width ih => rw [bigEndian, List.length_cons, ih]

/-- The bytes of a number are read as what so many bytes hold of it. -/
theorem foldl_bigEndian (width n start : Nat) :
    (bigEndian width n).foldl (fun n byte => n * 256 + byte.toNat) start
      = start * twoPow (8 * width) + n % twoPow (8 * width) := by
  induction width generalizing start with
  | zero => simp [bigEndian, twoPow, Nat.mod_one]
  | succ width ih =>
    have hpow : twoPow (8 * (width + 1)) = twoPow (8 * width) * 256 := by
      show 2 ^ (8 * width + 8) = 2 ^ (8 * width) * 256
      rw [Nat.pow_add]
    rw [bigEndian, List.foldl_cons, ih, hpow, Nat.mod_mul, UInt8.toNat_ofNat']
    ring

/-- **A number is read back** when so many bytes hold it. -/
theorem readNumber_bigEndian {width n : Nat} (h : n < twoPow (8 * width)) (rest : List UInt8) :
    readNumber width (bigEndian width n ++ rest) = some (n, rest) := by
  have hlength := length_bigEndian width n
  have htake : take? width (bigEndian width n ++ rest) = some (bigEndian width n, rest) := by
    rw [take?, if_pos (by rw [List.length_append]; omega), List.take_left' hlength,
      List.drop_left' hlength]
  rw [readNumber, htake]
  show some ((bigEndian width n).foldl (fun n byte => n * 256 + byte.toNat) 0, rest) = _
  rw [foldl_bigEndian, Nat.mod_eq_of_lt h, Nat.zero_mul, Nat.zero_add]

theorem sized_bigEndian (width : Nat) {n : Nat} (h : n < twoPow (8 * width)) (make : Nat → Head)
    (rest : List UInt8) : sized width make (bigEndian width n ++ rest) = some (make n, rest) := by
  rw [sized, readNumber_bigEndian h, Option.map_some]

/-! ## Beginnings -/

section Head

variable {n : Nat} (rest : List UInt8)

theorem readHead_number (h : n < 0x80) :
    readHead (UInt8.ofNat n :: rest) = some (.whole (.integer n), rest) := by
  have hn := Text.toNat_ofNat_lt (n := n) (by omega)
  unfold readHead
  simp only [hn]
  rw [if_pos h]

theorem readHead_table (h : n < 16) :
    readHead (UInt8.ofNat (0x80 + n) :: rest) = some (.table n, rest) := by
  have hn := Text.toNat_ofNat_lt (n := 0x80 + n) (by omega)
  unfold readHead
  simp only [hn]
  rw [if_neg (by omega), if_pos (by omega), Nat.add_sub_cancel_left]

theorem readHead_list (h : n < 16) :
    readHead (UInt8.ofNat (0x90 + n) :: rest) = some (.list n, rest) := by
  have hn := Text.toNat_ofNat_lt (n := 0x90 + n) (by omega)
  unfold readHead
  simp only [hn]
  rw [if_neg (by omega), if_neg (by omega), if_pos (by omega), Nat.add_sub_cancel_left]

theorem readHead_text (h : n < 32) :
    readHead (UInt8.ofNat (0xA0 + n) :: rest) = some (.text n, rest) := by
  have hn := Text.toNat_ofNat_lt (n := 0xA0 + n) (by omega)
  unfold readHead
  simp only [hn]
  rw [if_neg (by omega), if_neg (by omega), if_neg (by omega), if_pos (by omega),
    Nat.add_sub_cancel_left]

theorem readHead_negative {value : Int} (h : -32 ≤ value ∧ value < 0) :
    readHead (UInt8.ofNat (value + 256).toNat :: rest) = some (.whole (.integer value), rest) := by
  have hn := Text.toNat_ofNat_lt (n := (value + 256).toNat) (by omega)
  have hvalue : ((value + 256).toNat : Int) - 256 = value := by omega
  unfold readHead
  simp only [hn]
  rw [if_neg (by omega), if_neg (by omega), if_neg (by omega), if_neg (by omega),
    if_pos (by omega), hvalue]

/-- **The beginning of a text is read back.** -/
theorem readHead_textHeader (h : n < twoPow 32) :
    readHead (textHeader n ++ rest) = some (.text n, rest) := by
  unfold textHeader
  split
  · exact readHead_text rest ‹_›
  split
  · exact sized_bigEndian 1 ‹_› .text rest
  split
  · exact sized_bigEndian 2 ‹_› .text rest
  · exact sized_bigEndian 4 h .text rest

/-- **The beginning of a list is read back.** -/
theorem readHead_listHeader (h : n < twoPow 32) :
    readHead (listHeader n ++ rest) = some (.list n, rest) := by
  unfold listHeader
  split
  · exact readHead_list rest ‹_›
  split
  · exact sized_bigEndian 2 ‹_› .list rest
  · exact sized_bigEndian 4 h .list rest

/-- **The beginning of a table is read back.** -/
theorem readHead_tableHeader (h : n < twoPow 32) :
    readHead (tableHeader n ++ rest) = some (.table n, rest) := by
  unfold tableHeader
  split
  · exact readHead_table rest ‹_›
  split
  · exact sized_bigEndian 2 ‹_› .table rest
  · exact sized_bigEndian 4 h .table rest

/-- A negative number is read back from what is left of it in so many bytes. -/
theorem signed_eq {width : Nat} (hwidth : 0 < width) {value : Int}
    (h : -twoPow (8 * width - 1) ≤ value) (hneg : value < 0) :
    signed width (value + twoPow (8 * width)).toNat = value
      ∧ (value + twoPow (8 * width)).toNat < twoPow (8 * width) := by
  have hpow : twoPow (8 * width) = 2 * twoPow (8 * width - 1) := by
    show 2 ^ (8 * width) = 2 * 2 ^ (8 * width - 1)
    rw [← Nat.pow_succ', Nat.succ_eq_add_one, Nat.sub_add_cancel (by omega)]
  rw [signed, if_neg (by omega)]
  omega

/-- **A whole number is read back** when eight bytes hold it. -/
theorem readHead_encodeInteger {value : Int} (h : -twoPow 63 ≤ value ∧ value < twoPow 64) :
    readHead (encodeInteger value ++ rest) = some (.whole (.integer value), rest) := by
  unfold encodeInteger
  split
  · rename_i hpos
    have hvalue : (value.toNat : Int) = value := Int.toNat_of_nonneg hpos
    generalize hn : value.toNat = n at hvalue
    subst hvalue
    dsimp only
    split
    · exact readHead_number rest ‹_›
    split
    · exact sized_bigEndian 1 ‹_› (fun n => .whole (.integer n)) rest
    split
    · exact sized_bigEndian 2 ‹_› (fun n => .whole (.integer n)) rest
    split
    · exact sized_bigEndian 4 ‹_› (fun n => .whole (.integer n)) rest
    · exact sized_bigEndian 8 (Int.ofNat_lt.1 h.2) (fun n => .whole (.integer n)) rest
  · rename_i hneg
    have hnegative {width : Nat} (hwidth : 0 < width) (hvalue : -twoPow (8 * width - 1) ≤ value) :
        sized width (fun n => .whole (.integer (signed width n)))
          (bigEndian width (value + twoPow (8 * width)).toNat ++ rest)
            = some (.whole (.integer value), rest) := by
      obtain ⟨hsigned, hlt⟩ := signed_eq hwidth hvalue (by omega)
      rw [sized_bigEndian width hlt, hsigned]
    split
    · exact readHead_negative rest ⟨‹_›, by omega⟩
    split
    · exact hnegative Nat.one_pos ‹_›
    split
    · exact hnegative Nat.two_pos ‹_›
    split
    · exact hnegative (Nat.succ_pos 3) ‹_›
    · exact hnegative (Nat.succ_pos 7) h.1

end Head

/-! ## Parts -/

/-- **A text is read back** behind its beginning. -/
theorem readText_encode (text : String) (rest : List UInt8) :
    readText (Text.encode text).length (Text.encode text ++ rest) = some (text, rest) := by
  have htake : take? (Text.encode text).length (Text.encode text ++ rest)
      = some (Text.encode text, rest) := by
    rw [take?, if_pos (by simp), List.take_left, List.drop_left]
  rw [readText, htake]
  dsimp only
  rw [Text.decode?_encode, Option.map_some]

/-- **Parts that are each read back are read back one after the other.** -/
theorem readMany_flatMap {α : Type} {read : List UInt8 → Option (α × List UInt8)}
    {write : α → List UInt8} {parts : List α}
    (h : ∀ part ∈ parts, ∀ rest, read (write part ++ rest) = some (part, rest))
    (rest : List UInt8) :
    readMany read parts.length (parts.flatMap write ++ rest) = some (parts, rest) := by
  induction parts with
  | nil => rfl
  | cons part parts ih =>
    have hparts := ih fun part hpart => h part (List.mem_cons_of_mem _ hpart)
    rw [List.length_cons, List.flatMap_cons, List.append_assoc, readMany,
      h part (List.mem_cons_self ..)]
    dsimp only
    rw [hparts, Option.map_some]

theorem encodeItems_eq (items : List Data) : encodeItems items = items.flatMap encode := by
  induction items with
  | nil => rfl
  | cons item rest ih => rw [encodeItems, List.flatMap_cons, ih]

/-- The bytes of an entry. -/
def encodeEntry (entry : String × Data) : List UInt8 := encodeText entry.1 ++ encode entry.2

theorem encodeEntries_eq (entries : List (String × Data)) :
    encodeEntries entries = entries.flatMap encodeEntry := by
  induction entries with
  | nil => rfl
  | cons entry rest ih => rw [encodeEntries, List.flatMap_cons, encodeEntry, ih]

/-! ## Plain data -/

mutual

/-- **The lengths that are written with plain data**: of texts in bytes, of lists and tables in
parts. -/
def lengths : Data → List Nat
  | .text value => [(Text.encode value).length]
  | .list items => items.length :: itemLengths items
  | .table entries => entries.length :: entryLengths entries
  | _ => []

/-- The lengths that are written with items. -/
def itemLengths : List Data → List Nat
  | [] => []
  | item :: rest => lengths item ++ itemLengths rest

/-- The lengths that are written with entries. -/
def entryLengths : List (String × Data) → List Nat
  | [] => []
  | (key, value) :: rest => (Text.encode key).length :: lengths value ++ entryLengths rest

end

theorem mem_itemLengths {items : List Data} {item : Data} (h : item ∈ items) {length : Nat}
    (hlength : length ∈ lengths item) : length ∈ itemLengths items := by
  induction items with
  | nil => cases h
  | cons other rest ih =>
    rw [itemLengths, List.mem_append]
    rcases List.mem_cons.1 h with rfl | h
    · exact .inl hlength
    · exact .inr (ih h)

theorem mem_entryLengths {entries : List (String × Data)} {entry : String × Data}
    (h : entry ∈ entries) {length : Nat}
    (hlength : length = (Text.encode entry.1).length ∨ length ∈ lengths entry.2) :
    length ∈ entryLengths entries := by
  induction entries with
  | nil => cases h
  | cons other rest ih =>
    rw [entryLengths, List.cons_append, List.mem_cons, List.mem_append]
    rcases List.mem_cons.1 h with rfl | h
    · exact hlength.imp_right .inl
    · exact .inr (.inr (ih h))

/-- **Data of a shape that can be read back**: nested no deeper than given, with whole numbers that
eight bytes hold. -/
inductive Shape : Nat → Data → Prop
  /-- Nothing. -/
  | null (depth : Nat) : Shape depth .null
  /-- A truth value. -/
  | flag (depth : Nat) (value : Bool) : Shape depth (.flag value)
  /-- A whole number that eight bytes hold. -/
  | integer (depth : Nat) (value : Int) (h : -twoPow 63 ≤ value ∧ value < twoPow 64) :
    Shape depth (.integer value)
  /-- A number with a point. -/
  | float (depth : Nat) (value : Binary64) : Shape depth (.float value)
  /-- A text. -/
  | text (depth : Nat) (value : String) : Shape depth (.text value)
  /-- A list, one level deeper than its items. -/
  | list {depth : Nat} {items : List Data} (h : ∀ item ∈ items, Shape depth item) :
    Shape (depth + 1) (.list items)
  /-- A table, one level deeper than its values. -/
  | table {depth : Nat} {entries : List (String × Data)}
    (h : ∀ entry ∈ entries, Shape depth entry.2) : Shape (depth + 1) (.table entries)

/-- An entry is read back when its value is. -/
theorem readEntry_encodeEntry {read : List UInt8 → Option (Data × List UInt8)}
    {entry : String × Data} (hkey : (Text.encode entry.1).length < twoPow 32)
    (hvalue : ∀ rest, read (encode entry.2 ++ rest) = some (entry.2, rest)) (rest : List UInt8) :
    readEntry read (encodeEntry entry ++ rest) = some (entry, rest) := by
  unfold readEntry encodeEntry encodeText
  dsimp only
  rw [List.append_assoc, List.append_assoc, readHead_textHeader _ hkey]
  dsimp only
  rw [readText_encode]
  dsimp only
  rw [hvalue, Option.map_some]

/-- **Plain data that were written are read back**, and exactly their bytes are used up. -/
theorem decode_encode {depth : Nat} {data : Data} (h : Shape depth data)
    (hlengths : ∀ length ∈ lengths data, length < twoPow 32) (rest : List UInt8) :
    decode depth (encode data ++ rest) = some (data, rest) := by
  -- the bytes that follow are arbitrary, as behind every part but the last there are other parts
  induction h generalizing rest with
  | null depth =>
    rw [decode]
    rfl
  | flag depth value =>
    rw [decode]
    cases value <;> rfl
  | integer depth value h =>
    rw [encode, decode, readHead_encodeInteger rest h]
  | float depth value =>
    have hbits : value.bits.toNat < twoPow (8 * 8) := value.bits.toNat_lt
    have hhead : readHead (encode (.float value) ++ rest)
        = some (.whole (.float ⟨UInt64.ofNat value.bits.toNat⟩), rest) :=
      sized_bigEndian 8 hbits (fun bits => .whole (.float ⟨UInt64.ofNat bits⟩)) rest
    rw [decode, hhead, UInt64.ofNat_toNat]
  | text depth value =>
    have hlength := hlengths _ (List.mem_singleton_self _)
    rw [encode, encodeText, List.append_assoc, decode, readHead_textHeader _ hlength]
    dsimp only
    rw [readText_encode, Option.map_some]
  | @list depth items h ih =>
    have hlength := hlengths items.length (List.mem_cons_self ..)
    have hitems (item : Data) (hitem : item ∈ items) (rest : List UInt8) :
        decode depth (encode item ++ rest) = some (item, rest) :=
      ih item hitem (fun length hmem =>
        hlengths length (List.mem_cons_of_mem _ (mem_itemLengths hitem hmem))) rest
    rw [encode, encodeItems_eq, List.append_assoc, decode, readHead_listHeader _ hlength]
    dsimp only
    rw [readMany_flatMap hitems, Option.map_some]
  | @table depth entries h ih =>
    have hlength := hlengths entries.length (List.mem_cons_self ..)
    have hentries (entry : String × Data) (hentry : entry ∈ entries) (rest : List UInt8) :
        readEntry (decode depth) (encodeEntry entry ++ rest) = some (entry, rest) := by
      refine readEntry_encodeEntry (hlengths _ (List.mem_cons_of_mem _
        (mem_entryLengths hentry (.inl rfl)))) (ih entry hentry fun length hmem => ?_) rest
      exact hlengths length (List.mem_cons_of_mem _ (mem_entryLengths hentry (.inr hmem)))
    rw [encode, encodeEntries_eq, List.append_assoc, decode, readHead_tableHeader _ hlength]
    dsimp only
    rw [readMany_flatMap hentries, Option.map_some]

end Rulebook.MessagePack
