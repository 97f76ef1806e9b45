import Rulebook.Base64
import Rulebook.Error
import Rulebook.Proofs.Utf8
import Rulebook.Text.Blank
import Mathlib.Data.List.Basic

/-!
# Reading base64 accepts what is written, and nothing else

Every byte sequence has one text in base64, and reading inverts writing exactly (`decode_iff`): a
text is read if it is the text of some bytes, and then these bytes are read. So there is no second
way to write the same bytes, be it with other spare bits, with less padding or with blank space.

The argument follows the two parts of a text. Groups of four symbols stand for three bytes and three
bytes for four symbols, so what is read in front of the last group is written back as it was
(`encode_of_readGroups`, `readGroups_encode`). The last group is symbols and padding behind them;
that it has four bytes and that its spare bits are zero leaves one way to write one, two or three
bytes (`LastGroup`).
-/

namespace Rulebook.Base64

/-! ## Symbols -/

/-- **A symbol stands for the value it is the symbol of.** -/
theorem symbolValue?_iff {b : UInt8} {value : Nat} :
    symbolValue? b = some value ↔ value < 64 ∧ symbolOf value = b := by
  have hvalue : ∀ value < 64, symbolValue? (symbolOf value) = some value := by decide +kernel
  have hbyte : ∀ n < 256, ∀ value ∈ symbolValue? (UInt8.ofNat n),
      value < 64 ∧ symbolOf value = UInt8.ofNat n := by decide +kernel
  constructor
  · intro h
    have hall := hbyte b.toNat b.toNat_lt value
    rw [UInt8.ofNat_toNat] at hall
    exact hall h
  · rintro ⟨hlt, rfl⟩
    exact hvalue value hlt

theorem readSymbol_iff {offset : Nat} {b : UInt8} {value : Nat} :
    readSymbol offset b = .ok value ↔ value < 64 ∧ symbolOf value = b := by
  rw [← symbolValue?_iff, readSymbol]
  cases symbolValue? b with
  | none => simp [throw, throwThe, MonadExceptOf.throw]
  | some found => simp [pure, Except.pure]

/-- No symbol is the padding. -/
theorem symbolOf_ne_padding {value : Nat} (h : value < 64) : symbolOf value ≠ padding := by
  intro heq
  have hvalue := symbolValue?_iff.2 ⟨h, heq⟩
  cases hvalue

/-! ## Groups -/

/-- A byte is made of a number below two hundred and fifty-six. -/
theorem ofNat_eq_iff {n : Nat} {b : UInt8} (h : n < 256) : UInt8.ofNat n = b ↔ b.toNat = n := by
  rw [← UInt8.toNat_inj, UInt8.toNat_ofNat', Nat.mod_eq_of_lt h, eq_comm]

/-- What the bytes of four values are. -/
theorem bytesOf_iff {x y z w : Nat} {a b c : UInt8} (hx : x < 64) (hy : y < 64) (hz : z < 64)
    (hw : w < 64) : bytesOf x y z w = [a, b, c] ↔ a.toNat = x * 4 + y / 16
      ∧ b.toNat = y % 16 * 16 + z / 4 ∧ c.toNat = z % 4 * 64 + w := by
  simp only [bytesOf, List.cons.injEq, and_true]
  rw [ofNat_eq_iff (by omega), ofNat_eq_iff (by omega), ofNat_eq_iff (by omega)]

/-- **The bytes of four values are written with the symbols of these.** -/
theorem groupOf_of_bytesOf {x y z w : Nat} {a b c : UInt8} (hx : x < 64) (hy : y < 64)
    (hz : z < 64) (hw : w < 64) (h : bytesOf x y z w = [a, b, c]) :
    groupOf a b c = [symbolOf x, symbolOf y, symbolOf z, symbolOf w] := by
  obtain ⟨ha, hb, hc⟩ := (bytesOf_iff hx hy hz hw).1 h
  have hfirst : ((a.toNat * 256 + b.toNat) * 256 + c.toNat) / 262144 = x := by omega
  have hsecond : ((a.toNat * 256 + b.toNat) * 256 + c.toNat) / 4096 % 64 = y := by omega
  have hthird : ((a.toNat * 256 + b.toNat) * 256 + c.toNat) / 64 % 64 = z := by omega
  have hfourth : ((a.toNat * 256 + b.toNat) * 256 + c.toNat) % 64 = w := by omega
  rw [groupOf, hfirst, hsecond, hthird, hfourth]

/-- **Three bytes are those of four values.** -/
theorem exists_bytesOf (a b c : UInt8) :
    ∃ x < 64, ∃ y < 64, ∃ z < 64, ∃ w < 64, bytesOf x y z w = [a, b, c] := by
  have ha := a.toNat_lt
  have hb := b.toNat_lt
  have hc := c.toNat_lt
  refine ⟨a.toNat / 4, by omega, a.toNat % 4 * 16 + b.toNat / 16, by omega,
    b.toNat % 16 * 4 + c.toNat / 64, by omega, c.toNat % 64, by omega, ?_⟩
  rw [bytesOf_iff (by omega) (by omega) (by omega) (by omega)]
  omega

/-- **A group is read as a whole**: four symbols, and what follows. -/
theorem readGroups_cons_iff {offset : Nat} {a b c d : UInt8} {rest out : List UInt8} :
    readGroups offset (a :: b :: c :: d :: rest) = .ok out
      ↔ ∃ x < 64, ∃ y < 64, ∃ z < 64, ∃ w < 64,
        [symbolOf x, symbolOf y, symbolOf z, symbolOf w] = [a, b, c, d]
          ∧ ∃ more, readGroups (offset + 4) rest = .ok more ∧ bytesOf x y z w ++ more = out := by
  rw [readGroups]
  simp only [bind_eq_ok, readSymbol_iff, pure, Except.pure, Except.ok.injEq, List.cons.injEq,
    and_true]
  constructor
  · rintro ⟨x, ⟨hx, ha⟩, y, ⟨hy, hb⟩, z, ⟨hz, hc⟩, w, ⟨hw, hd⟩, more⟩
    exact ⟨x, hx, y, hy, z, hz, w, hw, ⟨ha, hb, hc, hd⟩, more⟩
  · rintro ⟨x, hx, y, hy, z, hz, w, hw, ⟨ha, hb, hc, hd⟩, more⟩
    exact ⟨x, ⟨hx, ha⟩, y, ⟨hy, hb⟩, z, ⟨hz, hc⟩, w, ⟨hw, hd⟩, more⟩

/-- What is read of whole groups is written as it was read. -/
theorem encode_of_readGroups {offset : Nat} {bytes out : List UInt8} (hlength : 4 ∣ bytes.length)
    (h : readGroups offset bytes = .ok out) : 3 ∣ out.length ∧ encode out = bytes := by
  induction offset, bytes using readGroups.induct generalizing out with
  | case1 offset a b c d rest ih =>
    obtain ⟨x, hx, y, hy, z, hz, w, hw, hsymbols, more, hmore, rfl⟩ := readGroups_cons_iff.1 h
    obtain ⟨hthree, hencode⟩ := ih ((Nat.dvd_add_left (Nat.dvd_refl 4)).1 hlength) hmore
    refine ⟨(Nat.dvd_add_left (Nat.dvd_refl 3)).2 hthree, ?_⟩
    show groupOf _ _ _ ++ encode more = _
    rw [groupOf_of_bytesOf hx hy hz hw rfl, hsymbols, hencode]
    rfl
  | case2 bytes offset hgroup =>
    have hempty : bytes = [] := by
      match bytes with
      | [] => rfl
      | [_] | [_, _] | [_, _, _] =>
        simp only [List.length_cons, List.length_nil] at hlength
        omega
      | a :: b :: c :: d :: rest => exact absurd rfl (hgroup a b c d rest)
    subst hempty
    cases h
    exact ⟨Nat.dvd_zero 3, rfl⟩

/-- Whole groups are read. -/
theorem readGroups_encode (offset : Nat) {out : List UInt8} (h : 3 ∣ out.length) :
    readGroups offset (encode out) = .ok out := by
  induction out using encode.induct generalizing offset with
  | case1 => rfl
  | case2 a | case3 a b =>
    simp only [List.length_cons, List.length_nil] at h
    omega
  | case4 a b c rest ih =>
    obtain ⟨x, hx, y, hy, z, hz, w, hw, hbytes⟩ := exists_bytesOf a b c
    have hrest := ih (offset + 4) ((Nat.dvd_add_left (Nat.dvd_refl 3)).1 h)
    rw [encode, groupOf_of_bytesOf hx hy hz hw hbytes]
    refine readGroups_cons_iff.2 ⟨x, hx, y, hy, z, hz, w, hw, rfl, rest, hrest, ?_⟩
    rw [hbytes]
    rfl

/-! ## The last group -/

/-- **Symbols are read as the values they stand for.** -/
theorem readSymbols_iff {offset : Nat} {bytes : List UInt8} {values : List Nat} :
    readSymbols offset bytes = .ok values
      ↔ (∀ value ∈ values, value < 64) ∧ values.map symbolOf = bytes := by
  induction bytes generalizing offset values with
  | nil => cases values <;> simp [readSymbols, pure, Except.pure]
  | cons b rest ih =>
    rw [readSymbols]
    simp only [bind_eq_ok, readSymbol_iff, ih, pure, Except.pure, Except.ok.injEq]
    constructor
    · rintro ⟨value, ⟨hlt, rfl⟩, more, ⟨hmore, rfl⟩, rfl⟩
      exact ⟨List.forall_mem_cons.2 ⟨hlt, hmore⟩, rfl⟩
    · rintro ⟨hvalues, hmap⟩
      cases values with
      | nil => cases hmap
      | cons value more =>
        obtain ⟨rfl, rfl⟩ := List.cons.inj hmap
        obtain ⟨hlt, hmore⟩ := List.forall_mem_cons.1 hvalues
        exact ⟨value, ⟨hlt, rfl⟩, more, ⟨hmore, rfl⟩, rfl⟩

/-- A step behind a refusal is taken when there is no reason for the refusal. -/
theorem ite_throw_eq_ok {reason : Prop} [Decidable reason] {flaw : Flaw} {α β : Type}
    {next : β → Except Flaw α} {step : Except Flaw α} {result : α} :
    (if reason then (throw flaw : Except Flaw β) >>= next else step) = .ok result
      ↔ ¬ reason ∧ step = .ok result := by
  by_cases h : reason
  · simp [h, throw, throwThe, MonadExceptOf.throw, bind, Except.bind]
  · simp [h]

/-- **A last group**: the values of its symbols, how often it is padded, and its bytes. -/
inductive LastGroup : List Nat → Nat → List UInt8 → Prop where
  /-- There is nothing. -/
  | empty : LastGroup [] 0 []
  /-- One byte takes two symbols. -/
  | one {x y : Nat} {a : UInt8} (h : bytesOf x y 0 0 = [a, 0, 0]) : LastGroup [x, y] 2 [a]
  /-- Two bytes take three symbols. -/
  | two {x y z : Nat} {a b : UInt8} (h : bytesOf x y z 0 = [a, b, 0]) : LastGroup [x, y, z] 1 [a, b]
  /-- Three bytes take four symbols. -/
  | three {x y z w : Nat} {a b c : UInt8} (h : bytesOf x y z w = [a, b, c]) :
    LastGroup [x, y, z, w] 0 [a, b, c]

/-- A last group is written with its symbols and its padding. -/
theorem LastGroup.encode_eq {values : List Nat} {pads : Nat} {out : List UInt8}
    (h : LastGroup values pads out) (hlt : ∀ value ∈ values, value < 64) :
    encode out = values.map symbolOf ++ List.replicate pads padding := by
  cases h with
  | empty => rfl
  | one h | two h | three h =>
    simp only [List.forall_mem_cons] at hlt
    simp [encode, groupOf_of_bytesOf _ _ _ _ h, hlt, List.replicate]

/-- **Any last bytes are those of a last group.** -/
theorem exists_lastGroup {out : List UInt8} (h : out.length ≤ 3) :
    ∃ values pads, (∀ value ∈ values, value < 64) ∧ LastGroup values pads out := by
  match out with
  | [] => exact ⟨[], 0, by simp, .empty⟩
  | [a] =>
    obtain ⟨x, hx, y, hy, z, hz, w, hw, hbytes⟩ := exists_bytesOf a 0 0
    obtain ⟨-, hb, hc⟩ := (bytesOf_iff hx hy hz hw).1 hbytes
    obtain ⟨rfl, rfl⟩ : z = 0 ∧ w = 0 := by
      rw [UInt8.toNat_zero] at hb hc
      omega
    exact ⟨[x, y], 2, by simp [hx, hy], .one hbytes⟩
  | [a, b] =>
    obtain ⟨x, hx, y, hy, z, hz, w, hw, hbytes⟩ := exists_bytesOf a b 0
    obtain ⟨-, -, hc⟩ := (bytesOf_iff hx hy hz hw).1 hbytes
    obtain rfl : w = 0 := by
      rw [UInt8.toNat_zero] at hc
      omega
    exact ⟨[x, y, z], 1, by simp [hx, hy, hz], .two hbytes⟩
  | [a, b, c] =>
    obtain ⟨x, hx, y, hy, z, hz, w, hw, hbytes⟩ := exists_bytesOf a b c
    exact ⟨[x, y, z, w], 0, by simp [hx, hy, hz, hw], .three hbytes⟩

/-- A last group is read. -/
theorem LastGroup.readLast {values : List Nat} {pads : Nat} {out : List UInt8}
    (h : LastGroup values pads out) (hlt : ∀ value ∈ values, value < 64) (offset : Nat) :
    readLast offset (values.map symbolOf ++ List.replicate pads padding) = .ok out := by
  have hsymbols : (values.map symbolOf ++ List.replicate pads padding).takeWhile (· != padding)
      = values.map symbolOf := by
    rw [List.takeWhile_append_of_pos]
    · cases pads <;> simp [List.replicate_succ]
    · simp only [List.mem_map]
      rintro _ ⟨value, hvalue, rfl⟩
      simpa using symbolOf_ne_padding (hlt value hvalue)
  rw [Base64.readLast]
  dsimp only
  rw [hsymbols, List.drop_left]
  refine bind_eq_ok.2 ⟨values, readSymbols_iff.2 ⟨hlt, rfl⟩, ?_⟩
  simp only [ite_throw_eq_ok]
  cases h with
  | empty => simp [pure, Except.pure]
  | @one x y a h =>
    have hy : y % 16 = 0 := by
      have hb := ((bytesOf_iff (by simp_all) (by simp_all) (by decide) (by decide)).1 h).2.1
      rw [UInt8.toNat_zero] at hb
      omega
    simp [h, hy, pure, Except.pure, List.replicate]
  | @two x y z a b h =>
    have hz : z % 4 = 0 := by
      have hc := ((bytesOf_iff (by simp_all) (by simp_all) (by simp_all) (by decide)).1 h).2.2
      rw [UInt8.toNat_zero] at hc
      omega
    simp [h, hz, pure, Except.pure, List.replicate]
  | three h => simp [h, pure, Except.pure]

/-- **The number of symbols says how a last group is padded.** It has four bytes, at least two of
them symbols, or none at all. -/
theorem LastGroup.of_values {values : List Nat} {pads : Nat} {out : List UInt8} {flaw : Flaw}
    (h : (match values with
      | [x, y] => if y % 16 = 0 then pure ((bytesOf x y 0 0).take 1) else throw flaw
      | [x, y, z] => if z % 4 = 0 then pure ((bytesOf x y z 0).take 2) else throw flaw
      | [x, y, z, w] => pure (bytesOf x y z w)
      | _ => pure [] : Except Flaw (List UInt8)) = .ok out)
    (hcount : values.length + pads ≤ 4) (hfour : (values.length + pads) % 4 = 0)
    (hpads : pads ≠ 0 → 2 ≤ values.length) (hone : pads = 0 → values.length ≠ 1) :
    LastGroup values pads out := by
  have hnumber : values.length = 0 ∧ pads = 0 ∨ values.length = 2 ∧ pads = 2
      ∨ values.length = 3 ∧ pads = 1 ∨ values.length = 4 ∧ pads = 0 := by omega
  clear hcount hfour hpads hone
  rcases hnumber with ⟨hvalues, rfl⟩ | ⟨hvalues, rfl⟩ | ⟨hvalues, rfl⟩ | ⟨hvalues, rfl⟩
  · obtain rfl := List.length_eq_zero_iff.1 hvalues
    cases h
    exact .empty
  · obtain ⟨x, y, rfl⟩ := List.length_eq_two.1 hvalues
    dsimp only at h
    split at h
    · rename_i hy
      cases h
      exact .one (by simp [bytesOf, hy])
    · cases h
  · obtain ⟨x, y, z, rfl⟩ := List.length_eq_three.1 hvalues
    dsimp only at h
    split at h
    · rename_i hz
      cases h
      exact .two (by simp [bytesOf, hz])
    · cases h
  · obtain ⟨x, y, z, w, rfl⟩ : ∃ x y z w, values = [x, y, z, w] := by
      match values, hvalues with
      | [x, y, z, w], _ => exact ⟨x, y, z, w, rfl⟩
    cases h
    exact .three rfl

/-- **Whatever is read of four bytes or fewer is a last group.** -/
theorem exists_of_readLast {offset : Nat} {bytes out : List UInt8} (hlength : bytes.length ≤ 4)
    (h : Base64.readLast offset bytes = .ok out) :
    ∃ values pads, (∀ value ∈ values, value < 64) ∧ LastGroup values pads out
      ∧ values.map symbolOf ++ List.replicate pads padding = bytes := by
  rw [Base64.readLast] at h
  dsimp only at h
  simp only [bind_eq_ok, ite_throw_eq_ok] at h
  obtain ⟨values, hvalues, hpads, hone, hfour, h⟩ := h
  obtain ⟨hlt, hmap⟩ := readSymbols_iff.1 hvalues
  have hsplit := List.prefix_iff_eq_append.1 (bytes.takeWhile_prefix (· != padding))
  rw [← hmap] at hsplit hpads hone
  generalize bytes.drop (values.map symbolOf).length = pads at hsplit hpads hone
  simp only [bne_iff_ne, ne_eq, decide_eq_true_eq, Bool.and_eq_true, Bool.or_eq_true,
    Bool.not_eq_true', List.isEmpty_eq_false_iff, List.any_eq_true, List.isEmpty_iff, not_and,
    not_or, not_exists, Classical.not_not] at hpads hone hfour
  have hreplicate : pads = List.replicate pads.length padding :=
    List.eq_replicate_iff.2 ⟨rfl, fun b hb => (hpads (List.ne_nil_of_mem hb)).2 b hb⟩
  have hcount : values.length + pads.length = bytes.length := by
    rw [← hsplit, List.length_append, List.length_map]
  refine ⟨values, pads.length, hlt, ?_, hreplicate ▸ hsplit⟩
  refine .of_values h (hcount ▸ hlength) (hcount ▸ hfour) (fun hne => ?_) fun hzero => ?_
  · exact Nat.le_of_not_lt (hpads (mt List.length_eq_zero_iff.2 hne)).1
  · exact hone (List.length_eq_zero_iff.1 hzero)

/-! ## Whole texts -/

/-- **Bytes behind whole groups are written behind them.** -/
theorem encode_append {front : List UInt8} (h : 3 ∣ front.length) (back : List UInt8) :
    encode (front ++ back) = encode front ++ encode back := by
  induction front using encode.induct with
  | case1 => rfl
  | case2 a | case3 a b =>
    simp only [List.length_cons, List.length_nil] at h
    omega
  | case4 a b c rest ih =>
    rw [List.cons_append, List.cons_append, List.cons_append, encode, encode,
      ih ((Nat.dvd_add_left (Nat.dvd_refl 3)).1 h), List.append_assoc]

/-- Four symbols are written for three bytes or fewer. -/
theorem length_encode (out : List UInt8) : (encode out).length = (out.length + 2) / 3 * 4 := by
  induction out using encode.induct with
  | case1 => rfl
  | case2 a | case3 a b => simp [encode, groupOf]
  | case4 a b c rest ih =>
    rw [encode, List.length_append, ih]
    simp only [groupOf, List.length_cons, List.length_nil]
    omega

/-- **Bytes are whole groups and up to three last ones**, which is where their text is divided. -/
theorem exists_split (out : List UInt8) : ∃ front back, front ++ back = out ∧ 3 ∣ front.length
    ∧ back.length ≤ 3
    ∧ bodyLength (encode (front ++ back)).length = (encode front).length := by
  have hdrop : (out.drop ((out.length - 1) / 3 * 3)).length ≤ 3 := by
    rw [List.length_drop]
    omega
  have htake : (out.take ((out.length - 1) / 3 * 3)).length = (out.length - 1) / 3 * 3 := by
    rw [List.length_take]
    omega
  refine ⟨_, _, List.take_append_drop ((out.length - 1) / 3 * 3) out, ?_, hdrop, ?_⟩
  · rw [htake]
    exact Nat.dvd_mul_left ..
  · rw [List.take_append_drop, length_encode, length_encode, htake, bodyLength,
      if_pos (Nat.mul_mod_left ..)]
    omega

/-- **Reading inverts writing**: a text is read as some bytes exactly when it is what is written for
them. -/
theorem decode_iff {bytes out : List UInt8} : decode bytes = .ok out ↔ encode out = bytes := by
  rw [decode]
  dsimp only
  simp only [ite_throw_eq_ok, bind_eq_ok]
  constructor
  · rintro ⟨-, front, hfront, back, hback, h⟩
    cases h
    have hbody : 4 ∣ (bytes.take (bodyLength bytes.length)).length
        ∧ (bytes.drop (bodyLength bytes.length)).length ≤ 4 := by
      rw [List.length_take, List.length_drop, bodyLength]
      split <;> omega
    obtain ⟨hthree, hencode⟩ := encode_of_readGroups hbody.1 hfront
    obtain ⟨values, pads, hlt, hlast, hbytes⟩ := exists_of_readLast hbody.2 hback
    rw [encode_append hthree, hencode, hlast.encode_eq hlt, hbytes, List.take_append_drop]
  · rintro rfl
    obtain ⟨front, back, rfl, hthree, hback, hbody⟩ := exists_split out
    obtain ⟨values, pads, hlt, hlast⟩ := exists_lastGroup hback
    rw [hbody, encode_append hthree, List.take_left, List.drop_left, hlast.encode_eq hlt]
    refine ⟨?_, front, readGroups_encode 0 hthree, back, hlast.readLast hlt _, rfl⟩
    rw [← hlast.encode_eq hlt, ← encode_append hthree, length_encode]
    simp

/-! ## Texts of characters -/

/-- **The text that is written for bytes.** -/
def text (bytes : List UInt8) : String :=
  String.ofList ((encode bytes).map fun b => Char.ofNat b.toNat)

/-- Symbols are printed characters. -/
theorem symbolOf_printed (value : Nat) :
    33 ≤ (symbolOf value).toNat ∧ (symbolOf value).toNat ≤ 122 := by
  unfold symbolOf
  split
  · rw [UInt8.toNat_ofNat']
    omega
  · split
    · rw [UInt8.toNat_ofNat']
      omega
    · split
      · rw [UInt8.toNat_ofNat']
        omega
      · split <;> decide

/-- **Only printed characters are written.** -/
theorem printed_of_mem_encode {bytes : List UInt8} {b : UInt8} (h : b ∈ encode bytes) :
    33 ≤ b.toNat ∧ b.toNat ≤ 122 := by
  have hgroup {a c d : UInt8} (h : b ∈ groupOf a c d) : 33 ≤ b.toNat ∧ b.toNat ≤ 122 := by
    simp only [groupOf, List.mem_cons, List.not_mem_nil, or_false] at h
    rcases h with rfl | rfl | rfl | rfl <;> exact symbolOf_printed _
  have hpadding {pads : List UInt8} (hpads : ∀ c ∈ pads, c = padding) (h : b ∈ pads) :
      33 ≤ b.toNat ∧ b.toNat ≤ 122 := by
    rw [hpads b h]
    decide
  induction bytes using encode.induct with
  | case1 => cases h
  | case2 | case3 =>
    rcases List.mem_append.1 h with h | h
    · exact hgroup (List.mem_of_mem_take h)
    · exact hpadding (by simp) h
  | case4 _ _ _ _ ih =>
    rcases List.mem_append.1 h with h | h
    · exact hgroup h
    · exact ih h

/-- The character of a printed byte has its number. -/
theorem toNat_charOf {b : UInt8} (h : b.toNat ≤ 122) : (Char.ofNat b.toNat).toNat = b.toNat := by
  have hvalid : b.toNat.isValidChar := .inl (by omega)
  rw [Char.ofNat, dif_pos hvalid]
  rfl

/-- The bytes of the text are those that are written. -/
theorem encode_text (bytes : List UInt8) : Text.encode (text bytes) = encode bytes := by
  have hchars {written : List UInt8} (h : ∀ b ∈ written, b.toNat ≤ 122) :
      Text.encodeList (written.map fun b => Char.ofNat b.toNat) = written := by
    induction written with
    | nil => rfl
    | cons b rest ih =>
      obtain ⟨hb, hrest⟩ := List.forall_mem_cons.1 h
      have hone : String.utf8EncodeChar (Char.ofNat b.toNat) = [b] := by
        have hchar : (Char.ofNat b.toNat).val.toNat = b.toNat := toNat_charOf hb
        have hle : b.toNat ≤ 127 := by omega
        simp [String.utf8EncodeChar, hchar, hle]
      rw [List.map_cons, Text.encodeList, List.flatMap_cons, hone]
      exact congrArg (b :: ·) (ih hrest)
  rw [Text.encode, text, String.toList_ofList]
  exact hchars fun b hb => (printed_of_mem_encode hb).2

/-- **A text is read as some bytes exactly when it is the text that is written for them.** -/
theorem decode_encode_iff {written : String} {bytes : List UInt8} :
    decode (Text.encode written) = .ok bytes ↔ written = text bytes := by
  rw [decode_iff, ← encode_text]
  constructor
  · intro h
    have hdecode := congrArg Text.decode? h
    rw [Text.decode?_encode, Text.decode?_encode] at hdecode
    exact (Option.some.inj hdecode).symm
  · rintro rfl
    rfl

/-- **Blank space around the text is trimmed**, and nothing of the text. -/
theorem trim_surrounded {front back : String} (hfront : Text.allBlank front = true)
    (hback : Text.allBlank back = true) (bytes : List UInt8) :
    Text.trim (front ++ text bytes ++ back) = text bytes := by
  have hchars : ∀ c ∈ (text bytes).toList, Text.isBlank c = false := by
    intro c hc
    rw [text, String.toList_ofList] at hc
    obtain ⟨b, hb, rfl⟩ := List.mem_map.1 hc
    obtain ⟨hlow, hhigh⟩ := printed_of_mem_encode hb
    rw [← toNat_charOf hhigh] at hlow hhigh
    exact Text.isBlank_of_printed hlow (by omega)
  rw [Text.trim, Text.trimWith, String.toList_append, String.toList_append,
    Text.trimList_surrounded (List.all_eq_true.1 hfront) (List.all_eq_true.1 hback),
    Text.trimList_eq_self, String.ofList_toList]
  · exact fun c hc => hchars c (List.mem_of_mem_head? hc)
  · exact fun c hc => hchars c (List.mem_of_mem_getLast? hc)

end Rulebook.Base64
