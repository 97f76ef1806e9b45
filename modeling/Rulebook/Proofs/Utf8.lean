import Rulebook.Text.Utf8

/-!
# UTF-8 loses nothing

The bytes of a text are read back as the text, whatever follows them: a character takes one to four
bytes, and each of these forms is read back as the character (`units_encodeChar`).
-/

namespace Rulebook.Text

open Utf8

/-! ## The forms of a character -/

section Forms

variable {a b c d : UInt8} {rest : List UInt8}

theorem units_one (h : a.toNat < 128) :
    units (a :: rest) = some (Char.ofNat a.toNat) :: units rest := by
  have ha : a < 0x80 := UInt8.lt_iff_toNat_lt.2 h
  rw [units.eq_def]
  dsimp only
  rw [if_pos ha]

theorem isContinuation_iff : isContinuation b = true ↔ 128 ≤ b.toNat ∧ b.toNat < 192 := by
  simp only [isContinuation, Bool.and_eq_true, decide_eq_true_eq, UInt8.le_iff_toNat_le]
  exact and_congr_right fun _ => Nat.lt_succ_iff.symm

theorem units_two (ha : 0xC2 ≤ a.toNat ∧ a.toNat ≤ 0xDF) (hb : isContinuation b = true) :
    units (a :: b :: rest) = some (Char.ofNat (a.toNat % 32 * 64 + low b)) :: units rest := by
  have hone : ¬ a < 0x80 := by
    rw [UInt8.lt_iff_toNat_lt]
    show ¬ a.toNat < 128
    omega
  have htwo : (decide (0xC2 ≤ a) && decide (a ≤ 0xDF)) = true := by
    simpa [UInt8.le_iff_toNat_le] using ha
  rw [units.eq_def]
  dsimp only
  rw [if_neg hone, if_pos htwo]
  simp only [hb, if_true]

theorem units_three (ha : 0xE0 ≤ a.toNat ∧ a.toNat ≤ 0xEF) (hb : secondOfThree a b = true)
    (hc : isContinuation c = true) : units (a :: b :: c :: rest)
      = some (Char.ofNat (a.toNat % 16 * 4096 + low b * 64 + low c)) :: units rest := by
  have hone : ¬ a < 0x80 := by
    rw [UInt8.lt_iff_toNat_lt]
    show ¬ a.toNat < 128
    omega
  have htwo : ¬ (decide (0xC2 ≤ a) && decide (a ≤ 0xDF)) = true := by
    simp [UInt8.le_iff_toNat_le]
    omega
  have hthree : (decide (0xE0 ≤ a) && decide (a ≤ 0xEF)) = true := by
    simpa [UInt8.le_iff_toNat_le] using ha
  rw [units.eq_def]
  dsimp only
  rw [if_neg hone, if_neg htwo, if_pos hthree]
  simp only [hb, hc, if_true]

theorem units_four (ha : 0xF0 ≤ a.toNat ∧ a.toNat ≤ 0xF4) (hb : secondOfFour a b = true)
    (hc : isContinuation c = true) (hd : isContinuation d = true) :
    units (a :: b :: c :: d :: rest)
      = some (Char.ofNat (a.toNat % 8 * 262144 + low b * 4096 + low c * 64 + low d))
        :: units rest := by
  have hone : ¬ a < 0x80 := by
    rw [UInt8.lt_iff_toNat_lt]
    show ¬ a.toNat < 128
    omega
  have htwo : ¬ (decide (0xC2 ≤ a) && decide (a ≤ 0xDF)) = true := by
    simp [UInt8.le_iff_toNat_le]
    omega
  have hthree : ¬ (decide (0xE0 ≤ a) && decide (a ≤ 0xEF)) = true := by
    simp [UInt8.le_iff_toNat_le]
    omega
  have hfour : (decide (0xF0 ≤ a) && decide (a ≤ 0xF4)) = true := by
    simpa [UInt8.le_iff_toNat_le] using ha
  rw [units.eq_def]
  dsimp only
  rw [if_neg hone, if_neg htwo, if_neg hthree, if_pos hfour]
  simp only [hb, hc, hd, if_true]

end Forms

theorem toNat_ofNat_lt {n : Nat} (h : n < 256) : (UInt8.ofNat n).toNat = n :=
  UInt8.toNat_ofNat_of_lt' h

theorem toNat_ofNat_low (n : Nat) : (UInt8.ofNat (n % 64 + 128)).toNat = n % 64 + 128 :=
  toNat_ofNat_lt (by omega)

theorem isContinuation_low (n : Nat) : isContinuation (UInt8.ofNat (n % 64 + 128)) = true := by
  rw [isContinuation_iff, toNat_ofNat_low]
  omega

theorem low_low (n : Nat) : low (UInt8.ofNat (n % 64 + 128)) = n % 64 := by
  rw [low, toNat_ofNat_low]
  omega

/-- A second byte may follow a first byte of three unless both belong to a shorter form or to a
surrogate. -/
theorem secondOfThree_eq {a b : UInt8} (hb : isContinuation b = true)
    (hshort : a.toNat = 0xE0 → 0xA0 ≤ b.toNat) (hsurrogate : a.toNat = 0xED → b.toNat ≤ 0x9F) :
    secondOfThree a b = true := by
  have hb' := isContinuation_iff.1 hb
  unfold secondOfThree
  split
  · rename_i ha
    have := hshort (congrArg UInt8.toNat (eq_of_beq ha))
    simp [UInt8.le_iff_toNat_le]
    omega
  · split
    · rename_i ha
      have := hsurrogate (congrArg UInt8.toNat (eq_of_beq ha))
      simp [UInt8.le_iff_toNat_le]
      omega
    · exact hb

/-- A second byte may follow a first byte of four unless both belong to a shorter form or lie beyond
the last code point. -/
theorem secondOfFour_eq {a b : UInt8} (hb : isContinuation b = true)
    (hshort : a.toNat = 0xF0 → 0x90 ≤ b.toNat) (hbeyond : a.toNat = 0xF4 → b.toNat ≤ 0x8F) :
    secondOfFour a b = true := by
  have hb' := isContinuation_iff.1 hb
  unfold secondOfFour
  split
  · rename_i ha
    have := hshort (congrArg UInt8.toNat (eq_of_beq ha))
    simp [UInt8.le_iff_toNat_le]
    omega
  · split
    · rename_i ha
      have := hbeyond (congrArg UInt8.toNat (eq_of_beq ha))
      simp [UInt8.le_iff_toNat_le]
      omega
    · exact hb

/-! ## Texts -/

/-- **A character is read back**, whatever follows it. -/
theorem units_encodeChar (char : Char) (rest : List UInt8) :
    units (String.utf8EncodeChar char ++ rest) = some char :: units rest := by
  have hvalid : char.toNat < 0xD800 ∨ 0xDFFF < char.toNat ∧ char.toNat < 0x110000 := char.valid
  have hchar {n : Nat} (h : n = char.toNat) : Char.ofNat n = char := h ▸ Char.ofNat_toNat char
  unfold String.utf8EncodeChar
  generalize hn : char.val.toNat = n
  change char.toNat = n at hn
  rw [hn] at hvalid
  dsimp only
  split
  · rename_i hone
    have ha := toNat_ofNat_lt (n := n) (by omega)
    refine (units_one (by omega)).trans ?_
    exact congrArg (some · :: units rest) (hchar (ha.trans hn.symm))
  split
  · rename_i hone htwo
    have ha := toNat_ofNat_lt (n := n / 64 % 32 + 192) (by omega)
    refine (units_two (by omega) (isContinuation_low n)).trans ?_
    refine congrArg (some · :: units rest) (hchar ?_)
    rw [ha, low_low, hn]
    omega
  split
  · rename_i hone htwo hthree
    have ha := toNat_ofNat_lt (n := n / 4096 % 16 + 224) (by omega)
    have hb := toNat_ofNat_low (n / 64)
    have hsecond := secondOfThree_eq (a := UInt8.ofNat (n / 4096 % 16 + 224))
      (isContinuation_low (n / 64)) (by omega) (by omega)
    refine (units_three (by omega) hsecond (isContinuation_low n)).trans ?_
    refine congrArg (some · :: units rest) (hchar ?_)
    rw [ha, low_low, low_low, hn]
    omega
  · rename_i hone htwo hthree
    have ha := toNat_ofNat_lt (n := n / 262144 % 8 + 240) (by omega)
    have hb := toNat_ofNat_low (n / 4096)
    have hsecond := secondOfFour_eq (a := UInt8.ofNat (n / 262144 % 8 + 240))
      (isContinuation_low (n / 4096)) (by omega) (by omega)
    refine (units_four (by omega) hsecond (isContinuation_low (n / 64))
      (isContinuation_low n)).trans ?_
    refine congrArg (some · :: units rest) (hchar ?_)
    rw [ha, low_low, low_low, low_low, hn]
    omega

theorem units_encodeList (chars : List Char) : units (encodeList chars) = chars.map some := by
  induction chars with
  | nil => rw [encodeList, List.flatMap_nil, units.eq_def, List.map_nil]
  | cons char rest ih =>
    rw [encodeList, List.flatMap_cons, units_encodeChar, List.map_cons]
    exact congrArg _ ih

/-- **The bytes of a text are read back as the text.** -/
theorem decode?_encode (text : String) : decode? (encode text) = some text := by
  have hall (chars : List Char) : (chars.map some).mapM id = some chars := by
    induction chars with
    | nil => rfl
    | cons char rest ih => simp [List.mapM_cons, ih]
  rw [decode?, decodeList?, encode, units_encodeList, hall, Option.map_some, String.ofList_toList]

/-- **The lenient reader changes nothing in the bytes of a text.** -/
theorem decodeLenient_encode (text : String) : decodeLenient (encode text) = text := by
  have hmap : (text.toList.map some).map (fun unit => unit.getD '\uFFFD') = text.toList := by
    rw [List.map_map]
    exact List.map_id _
  rw [decodeLenient, encode, units_encodeList, hmap, String.ofList_toList]

end Rulebook.Text
