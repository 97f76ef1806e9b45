import Rulebook.Json.Print
import Rulebook.Json.Source
import Rulebook.Proofs.Utf8

/-!
# Strings and numbers in JSON lose nothing

A string is written character by character, and read back piece by piece: an escape is one piece,
any other character has a piece for each of its bytes. What a character is written as stands for
its bytes again, whatever follows it (`Node.standsFor_escapeChar`), and so the whole string stands
for its text (`Node.parseString_chars`).

A whole number is written by its decimal digits. Where they end is seen only by what follows: that
must not be something with which a number could go on (`Node.Ends`).
-/

namespace Rulebook.Json

open Rulebook.Decimal (digitsOf twoPow)
open Text (encodeList)

namespace Node

/-! ## The pieces of a string -/

section Pieces

variable {a b c d letter : UInt8} {code : Nat}

/-- A byte that is no control, no quote and no backslash stands for itself. -/
theorem pieces_byte (rest : List UInt8) (hcontrol : 32 ≤ b.toNat) (hquote : b.toNat ≠ 34)
    (hbackslash : b.toNat ≠ 92) :
    pieces (b :: rest) = (.byte b :: (pieces rest).1, (pieces rest).2) := by
  have hlt : ¬ b < 32 := by
    rw [UInt8.lt_iff_toNat_lt]
    exact Nat.not_lt.2 hcontrol
  have hne : b ≠ 92 := by
    rintro rfl
    exact hbackslash rfl
  rw [pieces, if_neg hlt]
  · rintro rfl
    exact hquote rfl
  · exact fun h => absurd h hne
  · exact fun _ _ _ _ _ h => absurd h hne
  · exact fun _ _ h => absurd h hne

/-- Bytes that stand for themselves. -/
theorem pieces_bytes {bytes : List UInt8}
    (h : ∀ b ∈ bytes, 32 ≤ b.toNat ∧ b.toNat ≠ 34 ∧ b.toNat ≠ 92) (rest : List UInt8) :
    pieces (bytes ++ rest) = (bytes.map .byte ++ (pieces rest).1, (pieces rest).2) := by
  induction bytes with
  | nil => rfl
  | cons b bytes ih =>
    obtain ⟨⟨hcontrol, hquote, hbackslash⟩, hbytes⟩ := List.forall_mem_cons.1 h
    rw [List.cons_append, pieces_byte _ hcontrol hquote hbackslash, ih hbytes]
    rfl

/-- An escape of one letter. -/
theorem pieces_simple (h : simpleEscape? letter = some b) (rest : List UInt8) :
    pieces (92 :: letter :: rest) = (.byte b :: (pieces rest).1, (pieces rest).2) := by
  have hletter : letter ≠ 117 := by
    rintro rfl
    cases h
  rw [pieces, if_neg (by simpa using hletter), h]
  exact fun _ _ _ _ _ heq => absurd heq hletter

/-- An escape by a code. -/
theorem pieces_code (h : code? a b c d = some code) (rest : List UInt8) :
    pieces (92 :: 117 :: a :: b :: c :: d :: rest)
      = (.code code :: (pieces rest).1, (pieces rest).2) := by
  rw [pieces, h]

/-- Bytes that stand for themselves are joined to themselves. -/
theorem joinPieces_bytes (closing : Closing) (bytes : List UInt8) (rest : List Piece) :
    joinPieces closing (bytes.map .byte ++ rest) = (bytes ++ ·) <$> joinPieces closing rest := by
  induction bytes with
  | nil => exact (id_map _).symm
  | cons b bytes ih =>
    rw [List.map_cons, List.cons_append, joinPieces, ih]
    cases joinPieces closing rest <;> rfl

/-- A code that is no half of a pair stands for its character. -/
theorem joinPieces_code (closing : Closing) {code : Nat} (h : code < 0xD800) (rest : List Piece) :
    joinPieces closing (.code code :: rest)
      = (String.utf8EncodeChar (Char.ofNat code) ++ ·) <$> joinPieces closing rest := by
  have htrailing : isTrailing code = false := by
    simp only [isTrailing, Bool.and_eq_false_iff, decide_eq_false_iff_not]
    omega
  have hleading : isLeading code = false := by
    simp only [isLeading, Bool.and_eq_false_iff, decide_eq_false_iff_not]
    omega
  rw [joinPieces.eq_def]
  dsimp only
  rw [if_neg (by simp [htrailing]), if_neg (by simp [hleading])]
  cases joinPieces closing rest <;> rfl

end Pieces

/-! ## Strings -/

/-- **What is written in a string stands for some bytes**: whatever follows it, it is read as pieces
that are joined to these bytes. -/
def StandsFor (written meant : List UInt8) : Prop :=
  ∃ found : List Piece,
    (∀ rest, pieces (written ++ rest) = (found ++ (pieces rest).1, (pieces rest).2))
      ∧ ∀ closing following, joinPieces closing (found ++ following)
        = (meant ++ ·) <$> joinPieces closing following

namespace StandsFor

/-- Nothing stands for nothing. -/
theorem nil : StandsFor [] [] :=
  ⟨[], fun _ => rfl, fun _ _ => (id_map _).symm⟩

/-- What is written in two goes stands for both. -/
theorem append {written meant written' meant' : List UInt8} (h : StandsFor written meant)
    (h' : StandsFor written' meant') : StandsFor (written ++ written') (meant ++ meant') := by
  obtain ⟨found, hfound, hjoin⟩ := h
  obtain ⟨found', hfound', hjoin'⟩ := h'
  refine ⟨found ++ found', fun rest => ?_, fun closing following => ?_⟩
  · rw [List.append_assoc, hfound, hfound', List.append_assoc]
  · rw [List.append_assoc, hjoin, hjoin', ← comp_map]
    refine congrArg (· <$> _) (funext fun bytes => ?_)
    exact (List.append_assoc _ _ _).symm

/-- Bytes that stand for themselves. -/
theorem bytes {bytes : List UInt8} (h : ∀ b ∈ bytes, 32 ≤ b.toNat ∧ b.toNat ≠ 34 ∧ b.toNat ≠ 92) :
    StandsFor bytes bytes :=
  ⟨bytes.map .byte, pieces_bytes h, fun closing => joinPieces_bytes closing bytes⟩

/-- An escape of one letter stands for one byte. -/
theorem simple {letter b : UInt8} (h : simpleEscape? letter = some b) :
    StandsFor [92, letter] [b] :=
  ⟨[.byte b], pieces_simple h, fun closing => joinPieces_bytes closing [b]⟩

/-- An escape by a code stands for a character. -/
theorem code {a b c d : UInt8} {code : Nat} (h : code? a b c d = some code) (hlt : code < 0xD800) :
    StandsFor [92, 117, a, b, c, d] (String.utf8EncodeChar (Char.ofNat code)) :=
  ⟨[.code code], pieces_code h, fun closing => joinPieces_code closing hlt⟩

end StandsFor

/-- The bytes of a character are its code, or lie beyond ASCII. -/
theorem mem_encodeChar {c : Char} {b : UInt8} (h : b ∈ String.utf8EncodeChar c) :
    b.toNat = c.toNat ∨ 128 ≤ b.toNat := by
  have hbeyond {n : Nat} (hle : 128 ≤ n) (hlt : n < 256) : 128 ≤ (UInt8.ofNat n).toNat := by
    rwa [Text.toNat_ofNat_lt hlt]
  unfold String.utf8EncodeChar at h
  change b.toNat = c.val.toNat ∨ _
  generalize c.val.toNat = n at h ⊢
  dsimp only at h
  split at h
  · rename_i hone
    rw [List.mem_singleton.1 h, Text.toNat_ofNat_lt (by omega)]
    exact .inl rfl
  split at h
  · simp only [List.mem_cons, List.not_mem_nil, or_false] at h
    rcases h with rfl | rfl <;> exact .inr (hbeyond (by omega) (by omega))
  split at h <;> simp only [List.mem_cons, List.not_mem_nil, or_false] at h
  · rcases h with rfl | rfl | rfl <;> exact .inr (hbeyond (by omega) (by omega))
  · rcases h with rfl | rfl | rfl | rfl <;> exact .inr (hbeyond (by omega) (by omega))

/-- The characters with an escape of one letter, that letter, and what it stands for. -/
def shortEscapes : List (Char × UInt8 × UInt8) :=
  [('"', 34, 34), ('\\', 92, 92), ('\x08', 98, 8), ('\x0c', 102, 12), ('\n', 110, 10),
    ('\r', 114, 13), ('\t', 116, 9)]

theorem shortEscapes_spec : ∀ entry ∈ shortEscapes,
    encodeList (escapeChar entry.1) = [92, entry.2.1]
      ∧ String.utf8EncodeChar entry.1 = [entry.2.2]
      ∧ simpleEscape? entry.2.1 = some entry.2.2 := by
  decide

/-- The digits of a control are read back. -/
theorem code?_control : ∀ n < 32,
    encodeList ['\\', 'u', '0', '0', Nat.digitChar (n / 16), Nat.digitChar (n % 16)]
        = [92, 117, 48, 48, UInt8.ofNat (Nat.digitChar (n / 16)).toNat,
            UInt8.ofNat (Nat.digitChar (n % 16)).toNat]
      ∧ code? 48 48 (UInt8.ofNat (Nat.digitChar (n / 16)).toNat)
          (UInt8.ofNat (Nat.digitChar (n % 16)).toNat) = some n := by
  decide

/-- **A character in a string stands for its bytes.** -/
theorem standsFor_escapeChar (c : Char) :
    StandsFor (encodeList (escapeChar c)) (String.utf8EncodeChar c) := by
  -- A character has a short escape, or is another control, or is written as it is.
  by_cases hshort : ∃ entry ∈ shortEscapes, entry.1 = c
  · obtain ⟨entry, hentry, rfl⟩ := hshort
    obtain ⟨hwritten, hmeant, hletter⟩ := shortEscapes_spec entry hentry
    rw [hwritten, hmeant]
    exact .simple hletter
  simp only [shortEscapes, List.mem_cons, List.not_mem_nil, or_false, exists_eq_or_imp,
    exists_eq_left, not_or] at hshort
  obtain ⟨hquote, hbackslash, hbackspace, hfeed, hline, hreturn, htab⟩ := hshort
  have hescape : escapeChar c = if c.toNat < 32 then
      ['\\', 'u', '0', '0', Nat.digitChar (c.toNat / 16), Nat.digitChar (c.toNat % 16)]
      else [c] := by
    simp [escapeChar, Ne.symm hquote, Ne.symm hbackslash, Ne.symm hbackspace, Ne.symm hfeed,
      Ne.symm hline, Ne.symm hreturn, Ne.symm htab]
  rw [hescape]
  split
  · rename_i hcontrol
    obtain ⟨hwritten, hcode⟩ := code?_control c.toNat hcontrol
    have hmeant := StandsFor.code hcode (by omega)
    rwa [Char.ofNat_toNat, ← hwritten] at hmeant
  · rename_i hcontrol
    have hne (n : Nat) (hn : c ≠ Char.ofNat n) : c.toNat ≠ n := by
      rintro rfl
      exact hn (Char.ofNat_toNat c).symm
    have hsingle : encodeList [c] = String.utf8EncodeChar c := List.flatMap_singleton ..
    rw [hsingle]
    refine .bytes fun b hb => ?_
    have hquote := hne 34 (Ne.symm hquote)
    have hbackslash := hne 92 (Ne.symm hbackslash)
    rcases mem_encodeChar hb with heq | hbeyond <;> omega

/-- Texts are written character by character. -/
theorem standsFor_chars (chars : List Char) :
    StandsFor (encodeList (chars.flatMap escapeChar)) (encodeList chars) := by
  induction chars with
  | nil => exact .nil
  | cons c chars ih =>
    rw [List.flatMap_cons, encodeList, List.flatMap_append]
    exact (standsFor_escapeChar c).append ih

/-- The bytes of a string are its quotes and what is written between them. -/
theorem encode_stringChars (text : String) : encodeList (stringChars text)
    = 34 :: (encodeList (text.toList.flatMap escapeChar) ++ [34]) := by
  rw [stringChars, List.cons_append, encodeList, List.flatMap_cons, List.flatMap_append]
  rfl

/-- **A string is read back**, and what follows it is left. -/
theorem parseString_chars (text : String) (rest : List UInt8) :
    parseString (encodeList (text.toList.flatMap escapeChar) ++ 34 :: rest)
      = (.text (.ok text), some rest) := by
  obtain ⟨found, hfound, hjoin⟩ := standsFor_chars text.toList
  have hpieces : pieces (encodeList (text.toList.flatMap escapeChar) ++ 34 :: rest)
      = (found, .closed rest) := by
    rw [hfound, pieces, List.append_nil]
  have hbytes : joinPieces (.closed rest) found = .ok (Text.encode text) := by
    have h := hjoin (.closed rest) []
    rw [List.append_nil] at h
    rw [h]
    exact congrArg Except.ok (List.append_nil _)
  have htext : textOf found (.closed rest) = .ok text := by
    rw [textOf, hbytes]
    simp only [bind, Except.bind, Text.decode?_encode]
    rfl
  rw [parseString, hpieces]
  dsimp only
  rw [htext]

/-! ## Whole numbers -/

/-- **What may stand behind a value**: nothing, white space, a comma or a closing bracket. -/
def Ends (rest : List UInt8) : Prop :=
  ∀ b ∈ rest.head?, isSpace b = true ∨ b = 44 ∨ b = 93 ∨ b = 125

theorem digits_of_lt : ∀ n < 10, encodeList (digitsOf n) = [UInt8.ofNat (48 + n)] := by
  decide

theorem digits_of_le {n : Nat} (h : 10 ≤ n) :
    encodeList (digitsOf n) = encodeList (digitsOf (n / 10)) ++ [UInt8.ofNat (48 + n % 10)] := by
  have hlast : ∀ n < 10, encodeList [Nat.digitChar n] = [UInt8.ofNat (48 + n)] := by decide
  rw [digitsOf, Nat.toDigits_of_base_le (by decide) h, encodeList, List.flatMap_append]
  exact congrArg _ (hlast _ (Nat.mod_lt n (by decide)))

/-- The digits of a number are those of its tenth, if it has one, and one more. -/
theorem digits_induction {motive : Nat → List UInt8 → Prop}
    (single : ∀ n < 10, motive n [UInt8.ofNat (48 + n)])
    (more : ∀ n digits, 0 < n → motive n digits →
      ∀ d < 10, motive (n * 10 + d) (digits ++ [UInt8.ofNat (48 + d)])) (n : Nat) :
    motive n (encodeList (digitsOf n)) := by
  induction n using Nat.strongRecOn with
  | ind n ih =>
    by_cases hlt : n < 10
    · rw [digits_of_lt n hlt]
      exact single n hlt
    · have htenth := ih (n / 10) (by omega)
      have h := more (n / 10) _ (by omega) htenth (n % 10) (Nat.mod_lt n (by decide))
      rw [digits_of_le (by omega)]
      rwa [show n / 10 * 10 + n % 10 = n by omega] at h

theorem toNat_digit {d : Nat} (h : d < 10) : (UInt8.ofNat (48 + d)).toNat = 48 + d :=
  Text.toNat_ofNat_lt (by omega)

theorem isDigit_digit {d : Nat} (h : d < 10) : isDigit (UInt8.ofNat (48 + d)) = true := by
  rw [isDigit, Bool.and_eq_true, decide_eq_true_iff, decide_eq_true_iff, UInt8.le_iff_toNat_le,
    UInt8.le_iff_toNat_le, toNat_digit h]
  exact ⟨Nat.le_add_right 48 d, Nat.add_le_add_left (Nat.le_of_lt_succ h) 48⟩

/-- Numbers are written by digits. -/
theorem isDigit_digits (n : Nat) : ∀ b ∈ encodeList (digitsOf n), isDigit b = true := by
  refine digits_induction (motive := fun _ digits => ∀ b ∈ digits, isDigit b = true)
    (fun n hn => ?_) (fun n digits _ ih d hd => ?_) n
  · exact List.forall_mem_singleton.2 (isDigit_digit hn)
  · exact List.forall_mem_append.2 ⟨ih, List.forall_mem_singleton.2 (isDigit_digit hd)⟩

/-- Only zero starts with the digit zero. -/
theorem head_digits {n : Nat} (h : 0 < n) :
    ∃ first rest, encodeList (digitsOf n) = first :: rest ∧ first ≠ 48 := by
  refine digits_induction
    (motive := fun n digits => 0 < n → ∃ first rest, digits = first :: rest ∧ first ≠ 48)
    (fun n hn hpos => ?_) (fun n digits hpos ih d _ _ => ?_) n h
  · refine ⟨_, [], rfl, fun heq => ?_⟩
    have hcode := congrArg UInt8.toNat heq
    rw [toNat_digit hn] at hcode
    have hcode : 48 + n = 48 := hcode
    omega
  · obtain ⟨first, rest, rfl, hfirst⟩ := ih hpos
    exact ⟨first, _, rfl, hfirst⟩

/-- **The digits of a number spell it.** -/
theorem foldl_digits (n : Nat) :
    (encodeList (digitsOf n)).foldl (fun n b => n * 10 + digitValue b) 0 = n := by
  have hvalue {d : Nat} (hd : d < 10) : digitValue (UInt8.ofNat (48 + d)) = d := by
    rw [digitValue, toNat_digit hd, Nat.add_sub_cancel_left]
  refine digits_induction (motive := fun n digits =>
    digits.foldl (fun n b => n * 10 + digitValue b) 0 = n) (fun n hn => ?_)
    (fun n digits _ ih d hd => ?_) n
  · rw [List.foldl_cons, List.foldl_nil, hvalue hn, Nat.zero_mul, Nat.zero_add]
  · rw [List.foldl_append, ih, List.foldl_cons, List.foldl_nil, hvalue hd]

section Numbers

variable {rest : List UInt8} (hends : Ends rest)
include hends

/-- What may stand behind a value is none of the bytes with which a number goes on. -/
theorem Ends.head_ne : ∀ b ∈ rest.head?, isDigit b = false ∧ b ≠ 46 ∧ b ≠ 101 ∧ b ≠ 69 := by
  intro b hb
  have hall : ∀ b : UInt8, b = 32 ∨ b = 10 ∨ b = 13 ∨ b = 9 ∨ b = 44 ∨ b = 93 ∨ b = 125 →
      isDigit b = false ∧ b ≠ 46 ∧ b ≠ 101 ∧ b ≠ 69 := by
    rintro b (rfl | rfl | rfl | rfl | rfl | rfl | rfl) <;> decide
  refine hall b ?_
  simpa only [isSpace, Bool.or_eq_true, beq_iff_eq, or_assoc] using hends b hb

/-- The whole digits of a number are all of its digits. -/
theorem Ends.wholePart_digits (n : Nat) :
    wholePart (encodeList (digitsOf n) ++ rest) = .ok (encodeList (digitsOf n), rest) := by
  have hnone : rest.takeWhile isDigit = [] := by
    cases rest with
    | nil => rfl
    | cons b rest =>
      rw [List.takeWhile_cons, if_neg (by simp [(hends.head_ne b rfl).1])]
  have htake : (encodeList (digitsOf n) ++ rest).takeWhile isDigit = encodeList (digitsOf n) := by
    rw [List.takeWhile_append_of_pos (isDigit_digits n), hnone, List.append_nil]
  rcases Nat.eq_zero_or_pos n with rfl | hpos
  · have hzero : encodeList (digitsOf 0) = [48] := by decide
    have hhead : rest.head?.any isDigit = false := by
      cases rest with
      | nil => rfl
      | cons b rest => exact (hends.head_ne b rfl).1
    rw [hzero, List.singleton_append, wholePart.eq_def]
    dsimp only
    rw [if_pos (by decide), hhead]
    rfl
  · obtain ⟨first, more, hdigits, hfirst⟩ := head_digits hpos
    have hdigit : isDigit first = true := isDigit_digits n first (by simp [hdigits])
    have hdrop : (encodeList (digitsOf n) ++ rest).drop (encodeList (digitsOf n)).length = rest :=
      List.drop_left
    rw [hdigits, List.cons_append] at htake hdrop ⊢
    rw [wholePart.eq_def]
    dsimp only
    rw [if_neg (by simpa using hfirst), if_pos hdigit, htake, hdrop]
    rfl

/-- Nothing follows the whole digits. -/
theorem Ends.fractionPart_eq : fractionPart rest = .ok (none, none, rest) := by
  cases rest with
  | nil => rfl
  | cons b rest =>
    obtain ⟨-, hpoint, hsmall, hlarge⟩ := hends.head_ne b rfl
    have hletter : ¬ (b == 101 || b == 69) = true := by simp [hsmall, hlarge]
    unfold fractionPart
    split
    · rename_i heq
      exact absurd (List.cons.inj heq).1 hpoint
    · show (if (b == 101 || b == 69) = true then _ else _) = _
      rw [if_neg hletter]
      rfl

/-- **A whole number of 64 bits is read back**, and what follows it is left. -/
theorem Ends.parseNumber_integer {n : Int} (hlow : -twoPow 63 ≤ n) (hhigh : n < twoPow 64) :
    parseNumber (encodeList (integerChars n) ++ rest)
      = (.number (.ok (.integer n)), some rest) := by
  cases n with
  | ofNat n =>
    have hwhole : whole false (encodeList (digitsOf n)) = .ok (.integer n) := by
      have hle : n ≤ maxSignificand := Nat.le_sub_one_of_lt (Int.ofNat_lt.1 hhigh)
      rw [whole, foldl_digits, if_neg Bool.false_ne_true, if_pos hle]
      rfl
    -- The reader looks for a minus sign first, and no digit is one.
    have hsign : ∀ more, encodeList (digitsOf n) ++ rest ≠ 45 :: more := by
      intro more heq
      have hwhole := hends.wholePart_digits n
      rw [heq] at hwhole
      cases hwhole
    rw [integerChars, parseNumber]
    · simp only [hends.wholePart_digits, hends.fractionPart_eq, bind, Except.bind, pure,
        Except.pure, hwhole]
      rfl
    · exact hsign
  | negSucc n =>
    have hwhole : whole true (encodeList (digitsOf (n + 1))) = .ok (.integer (.negSucc n)) := by
      have hle : n + 1 ≤ twoPow 63 := by omega
      rw [whole, foldl_digits, if_pos rfl, if_pos (by simpa using hle)]
      rfl
    have hminus : encodeList (integerChars (.negSucc n)) ++ rest
      = 45 :: (encodeList (digitsOf (n + 1)) ++ rest) := rfl
    rw [hminus, parseNumber]
    simp only [hends.wholePart_digits, hends.fractionPart_eq, bind, Except.bind, pure, Except.pure,
      hwhole]

end Numbers

end Node

end Rulebook.Json
