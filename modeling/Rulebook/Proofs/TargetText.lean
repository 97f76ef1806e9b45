import Rulebook.Files.Path
import Rulebook.Http.Target
import Rulebook.Proofs.Utf8
import Mathlib.Data.List.Forall2

/-!
# What a target is written for is what is asked

Any text can be asked for by the value of a query parameter, if each of its bytes is written by its
code (`PercentEncodes`): such a value has nothing in it that separates one parameter from the next
or a name from its value, and it is decoded after it has been separated (`queryOf_parameters`).

Paths have the same codes. A path `Leads` to its segments; one that has no code in it leads to what
stands between its slashes (`leads_plain`).
-/

namespace Rulebook

/-! ## Pieces -/

namespace Text

/-- A text without the mark is one piece. -/
theorem split_of_notMem {mark : Char} {chars : List Char} (h : mark ∉ chars) :
    split mark chars = [chars] := by
  induction chars with
  | nil => rfl
  | cons c chars ih =>
    obtain ⟨hne, hchars⟩ := not_or.1 (mt List.mem_cons.2 h)
    rw [split, ih hchars]
    dsimp only
    rw [if_neg (by simpa using Ne.symm hne)]

/-- Nothing else is in the pieces of a text than in the text. -/
theorem mem_of_mem_split {mark c : Char} {chars piece : List Char}
    (hpiece : piece ∈ split mark chars) (hc : c ∈ piece) : c ∈ chars := by
  induction chars generalizing piece with
  | nil =>
    obtain rfl := List.mem_singleton.1 hpiece
    cases hc
  | cons first chars ih =>
    rw [split] at hpiece
    cases hsplit : split mark chars with
    | nil => exact absurd hsplit (split_ne_nil mark chars)
    | cons head tail =>
      rw [hsplit] at hpiece ih
      dsimp only at hpiece
      split at hpiece
      · rcases List.mem_cons.1 hpiece with rfl | hpiece
        · cases hc
        · exact List.mem_cons_of_mem _ (ih hpiece hc)
      · rcases List.mem_cons.1 hpiece with rfl | hpiece
        · rcases List.mem_cons.1 hc with rfl | hc
          · exact List.mem_cons_self ..
          · exact List.mem_cons_of_mem _ (ih (List.mem_cons_self ..) hc)
        · exact List.mem_cons_of_mem _ (ih (List.mem_cons_of_mem _ hpiece) hc)

/-- **Joined pieces without the mark are found again.** -/
theorem split_intercalate {mark : Char} {pieces : List (List Char)} (hne : pieces ≠ [])
    (h : ∀ piece ∈ pieces, mark ∉ piece) : split mark ([mark].intercalate pieces) = pieces := by
  induction pieces with
  | nil => exact absurd rfl hne
  | cons piece pieces ih =>
    obtain ⟨hpiece, hpieces⟩ := List.forall_mem_cons.1 h
    cases pieces with
    | nil =>
      rw [List.intercalate_singleton]
      exact split_of_notMem hpiece
    | cons next pieces =>
      rw [List.intercalate_cons_cons, List.append_assoc, List.singleton_append, split_append,
        split_of_notMem hpiece, ih (List.cons_ne_nil next pieces) hpieces]
      rfl

/-- What holds of the mark and of every character of the pieces holds of all that is joined. -/
theorem forall_mem_intercalate {p : Char → Prop} {mark : Char} {pieces : List (List Char)}
    (hmark : p mark) (h : ∀ piece ∈ pieces, ∀ c ∈ piece, p c) :
    ∀ c ∈ [mark].intercalate pieces, p c := by
  induction pieces with
  | nil => exact fun _ hc => nomatch hc
  | cons piece pieces ih =>
    obtain ⟨hpiece, hpieces⟩ := List.forall_mem_cons.1 h
    cases pieces with
    | nil => rwa [List.intercalate_singleton]
    | cons next pieces =>
      rw [List.intercalate_cons_cons]
      simp only [List.forall_mem_append, List.forall_mem_singleton]
      exact ⟨⟨hpiece, hmark⟩, ih hpieces⟩

/-- A name and a value are cut at the mark between them. -/
theorem cut_append {mark : Char} {name : List Char} (h : mark ∉ name) (value : List Char) :
    cut mark (name ++ mark :: value) = (name, value) := by
  have hname : ∀ c ∈ name, (c != mark) = true := by
    rintro c hc
    rw [bne_iff_ne]
    rintro rfl
    exact h hc
  rw [cut, List.takeWhile_append_of_pos hname, List.dropWhile_append_of_pos hname]
  simp

end Text

namespace Http

open Rulebook.Decimal (digitValue?)
open Text (encodeList)

/-! ## Bytes by their codes -/

/-- **Characters give bytes by their codes**: each is written as a percent sign and two hexadecimal
digits, with letters of either case. -/
inductive PercentEncodes : List UInt8 → List Char → Prop
  /-- Nothing is left. -/
  | nil : PercentEncodes [] []
  /-- A byte, and what follows it. -/
  | cons {byte : UInt8} {bytes : List UInt8} {a b : Char} {chars : List Char} {x y : Nat}
    (ha : digitValue? 16 a = some x) (hb : digitValue? 16 b = some y)
    (hbyte : byte.toNat = 16 * x + y) (h : PercentEncodes bytes chars) :
    PercentEncodes (byte :: bytes) ('%' :: a :: b :: chars)

/-- Hexadecimal digits are digits or letters. -/
theorem isAlphanum_of_digitValue? {c : Char} {x : Nat} (h : digitValue? 16 c = some x) :
    c.isAlphanum = true := by
  have hrange (first last : Char) {low high : Char}
      (h : (decide (low ≤ c) && decide (c ≤ high)) = true) (hfirst : first ≤ low)
      (hlast : high ≤ last) : first ≤ c ∧ c ≤ last := by
    simp only [Bool.and_eq_true, decide_eq_true_eq] at h
    exact ⟨Char.le_trans hfirst h.1, Char.le_trans h.2 hlast⟩
  unfold digitValue? at h
  dsimp only at h
  show (c.isUpper || c.isLower || c.isDigit) = true
  split at h
  · rename_i hdigit
    rw [hdigit, Bool.or_true]
  split at h
  · rename_i hletter
    have hle := hrange 'a' 'z' hletter (by decide) (by decide)
    have hlower : c.isLower = true := Bool.and_eq_true_iff.2 (hle.imp decide_eq_true decide_eq_true)
    rw [hlower, Bool.or_true, Bool.true_or]
  split at h
  · rename_i hletter
    have hupper : c.isUpper = true :=
      decide_eq_true (hrange 'A' 'Z' hletter (by decide) (by decide))
    rw [hupper, Bool.true_or, Bool.true_or]
  · cases h

/-- Characters with which bytes are given by their codes. -/
def IsCodeChar (c : Char) : Prop := c = '%' ∨ ∃ x, digitValue? 16 c = some x

namespace IsCodeChar

/-- They are all such that may stand in a path. -/
theorem isPathChar {c : Char} (h : IsCodeChar c) : isPathChar c = true := by
  rcases h with rfl | ⟨x, hx⟩
  · decide
  · rw [Http.isPathChar, isAlphanum_of_digitValue? hx, Bool.true_or]

/-- None of them separates anything in a query. -/
theorem ne {c mark : Char} (h : IsCodeChar c) (hmark : mark ∈ ['+', '&', '=']) : c ≠ mark := by
  have hall : ∀ mark ∈ ['+', '&', '='], mark ≠ '%' ∧ digitValue? 16 mark = none :=
    List.forall_iff_forall_mem.1 (by decide)
  rintro rfl
  obtain ⟨hpercent, hdigit⟩ := hall c hmark
  rcases h with rfl | ⟨x, hx⟩
  · exact hpercent rfl
  · rw [hdigit] at hx
    cases hx

end IsCodeChar

/-- **Characters write bytes in a path**: a byte is given by its code or, if the character it is the
only byte of may stand in a path and starts no code, by that character. -/
inductive PathEncodes : List UInt8 → List Char → Prop
  /-- Nothing is left. -/
  | nil : PathEncodes [] []
  /-- A byte by its code, and what follows it. -/
  | code {byte : UInt8} {bytes : List UInt8} {a b : Char} {chars : List Char} {x y : Nat}
    (ha : digitValue? 16 a = some x) (hb : digitValue? 16 b = some y)
    (hbyte : byte.toNat = 16 * x + y) (h : PathEncodes bytes chars) :
    PathEncodes (byte :: bytes) ('%' :: a :: b :: chars)
  /-- A character that stands for itself, and what follows it. -/
  | plain {c : Char} {bytes : List UInt8} {chars : List Char} (hpath : isPathChar c = true)
    (hpercent : c ≠ '%') (h : PathEncodes bytes chars) :
    PathEncodes (UInt8.ofNat c.toNat :: bytes) (c :: chars)

namespace PathEncodes

variable {bytes : List UInt8} {chars : List Char}

/-- The characters may stand in a path. -/
theorem isPathChar (h : PathEncodes bytes chars) : ∀ c ∈ chars, isPathChar c = true := by
  have hcode {c : Char} (hc : IsCodeChar c) : Http.isPathChar c = true := hc.isPathChar
  induction h with
  | nil => exact fun _ hc => nomatch hc
  | code ha hb _ _ ih =>
    simp only [List.forall_mem_cons]
    exact ⟨hcode (.inl rfl), hcode (.inr ⟨_, ha⟩), hcode (.inr ⟨_, hb⟩), ih⟩
  | plain hpath _ _ ih => exact List.forall_mem_cons.2 ⟨hpath, ih⟩

/-- **The bytes are read back.** -/
theorem percentBytes (h : PathEncodes bytes chars) : percentBytes chars = bytes := by
  induction h with
  | nil => rfl
  | code ha hb hbyte _ ih =>
    rw [Http.percentBytes, ha, hb]
    dsimp only
    rw [ih, ← hbyte, UInt8.ofNat_toNat]
  | plain _ hpercent _ ih =>
    rw [Http.percentBytes, ih]
    -- A code would start with a percent sign.
    exact fun _ _ _ heq => absurd heq hpercent

/-- **The text of the bytes is read back.** -/
theorem percentDecode {text : String} (h : PathEncodes (Text.encode text) chars) :
    percentDecode chars = text := by
  rw [Http.percentDecode, h.percentBytes, Text.decodeLenient_encode]

end PathEncodes

namespace PercentEncodes

variable {bytes : List UInt8} {chars : List Char}

/-- Only such characters are used. -/
theorem isCodeChar (h : PercentEncodes bytes chars) : ∀ c ∈ chars, IsCodeChar c := by
  induction h with
  | nil => exact fun _ hc => nomatch hc
  | cons ha hb _ _ ih =>
    simp only [List.forall_mem_cons]
    exact ⟨.inl rfl, .inr ⟨_, ha⟩, .inr ⟨_, hb⟩, ih⟩

/-- To give bytes by their codes is one way to write them in a path. -/
theorem pathEncodes (h : PercentEncodes bytes chars) : PathEncodes bytes chars := by
  induction h with
  | nil => exact .nil
  | cons ha hb hbyte _ ih => exact .code ha hb hbyte ih

/-- **The text of the bytes is read back** from a query. -/
theorem formDecode {text : String} (h : PercentEncodes (Text.encode text) chars) :
    formDecode chars = text := by
  have hplus : chars.map (fun c => if c == '+' then ' ' else c) = chars := by
    refine (List.map_congr_left fun c hc => ?_).trans (List.map_id chars)
    exact if_neg (by simpa using (h.isCodeChar c hc).ne (by simp))
  rw [Http.formDecode, hplus, h.pathEncodes.percentDecode]

end PercentEncodes

/-! ## Characters that stand for themselves -/

/-- Characters of a path are in ASCII. -/
theorem lt_of_isPathChar {c : Char} (h : isPathChar c = true) : c.toNat < 128 := by
  have hmarks : ∀ c ∈ "-._~%!$&'()*+,;=:@/".toList, c.toNat < 128 :=
    List.forall_iff_forall_mem.1 (by decide)
  have hle {last : Char} (h : c ≤ last) (hlast : last.toNat < 128) : c.toNat < 128 :=
    Nat.lt_of_le_of_lt (UInt32.le_iff_toNat_le.1 h) hlast
  rw [isPathChar, Bool.or_eq_true] at h
  rcases h with h | h
  · have hparts : (c.isUpper || c.isLower || c.isDigit) = true := h
    rw [Bool.or_eq_true, Bool.or_eq_true] at hparts
    rcases hparts with (hupper | hlower) | hdigit
    · exact hle (of_decide_eq_true hupper).2 (by decide)
    · exact hle (of_decide_eq_true (Bool.and_eq_true_iff.1 hlower).2) (by decide)
    · exact hle (of_decide_eq_true (Bool.and_eq_true_iff.1 hdigit).2) (by decide)
  · exact hmarks c (List.contains_iff_mem.1 h)

/-- Characters of a path other than the percent sign stand for themselves. -/
theorem pathEncodes_plain {chars : List Char}
    (h : ∀ c ∈ chars, isPathChar c = true ∧ c ≠ '%') : PathEncodes (encodeList chars) chars := by
  induction chars with
  | nil => exact .nil
  | cons c chars ih =>
    obtain ⟨⟨hpath, hpercent⟩, hchars⟩ := List.forall_mem_cons.1 h
    have hone : String.utf8EncodeChar c = [UInt8.ofNat c.toNat] := by
      have hle : c.toNat ≤ 127 := Nat.le_of_lt_succ (lt_of_isPathChar hpath)
      simp [String.utf8EncodeChar, hle]
    have hencode : encodeList (c :: chars) = UInt8.ofNat c.toNat :: encodeList chars :=
      congrArg (· ++ encodeList chars) hone
    rw [hencode]
    exact .plain hpath hpercent (ih hchars)

/-- So they are read as themselves. -/
theorem percentDecode_plain {chars : List Char}
    (h : ∀ c ∈ chars, isPathChar c = true ∧ c ≠ '%') :
    percentDecode chars = String.ofList chars := by
  refine PathEncodes.percentDecode ?_
  rw [Text.encode, String.toList_ofList]
  exact pathEncodes_plain h

namespace Target

/-! ## Queries -/

/-- **A name that stands for itself in a query**: its characters may stand in a path, and mean
nothing else in a query. -/
def PlainName (name : String) : Prop :=
  ∀ c ∈ name.toList, isPathChar c = true ∧ c ∉ ['%', '+', '&', '=']

/-- Such a name is decoded to itself. -/
theorem PlainName.formDecode {name : String} (h : PlainName name) :
    formDecode name.toList = name := by
  have hplus : name.toList.map (fun c => if c == '+' then ' ' else c) = name.toList := by
    refine (List.map_congr_left fun c hc => if_neg fun heq => ?_).trans (List.map_id name.toList)
    exact (h c hc).2 (by simp [beq_iff_eq.1 heq])
  have hplain : ∀ c ∈ name.toList, isPathChar c = true ∧ c ≠ '%' := by
    refine fun c hc => ⟨(h c hc).1, fun heq => ?_⟩
    exact (h c hc).2 (by simp [heq])
  rw [Http.formDecode, hplus, percentDecode_plain hplain, String.ofList_toList]

/-- A parameter: a name and a value. -/
def parameter (name : String) (text : List Char) : List Char := name.toList ++ '=' :: text

section Parameters

variable {name : String} {values : List String} {texts : List (List Char)}
  (hname : PlainName name)
  (h : List.Forall₂ (fun value text => PercentEncodes (Text.encode value) text) values texts)
include hname h

/-- A parameter whose value is given by codes has no mark between parameters in it. -/
theorem parameters_chars : ∀ piece ∈ texts.map (parameter name), ∀ c ∈ piece,
    isQueryChar c = true ∧ c ≠ '&' := by
  induction h with
  | nil => exact fun _ hpiece => nomatch hpiece
  | cons hencodes _ ih =>
    refine List.forall_mem_cons.2 ⟨?_, ih⟩
    rw [parameter]
    simp only [List.forall_mem_append, List.forall_mem_cons]
    have hquery {c : Char} (hpath : isPathChar c = true) : isQueryChar c = true := by
      rw [isQueryChar, hpath, Bool.true_or]
    refine ⟨fun c hc => ⟨hquery (hname c hc).1, fun heq => ?_⟩, by decide, fun c hc => ?_⟩
    · exact (hname c hc).2 (by simp [heq])
    · have hcode := hencodes.isCodeChar c hc
      exact ⟨hquery hcode.isPathChar, hcode.ne (by simp)⟩

/-- **Parameters of one name are read as they were written**: one pair for each value. -/
theorem queryOf_parameters (hne : values ≠ []) :
    queryOf (['&'].intercalate (texts.map (parameter name)))
      = values.map fun value => (name, value) := by
  have htexts : texts.map (parameter name) ≠ [] := by
    cases h with
    | nil => exact absurd rfl hne
    | cons _ _ => exact List.cons_ne_nil _ _
  have hmark : ∀ piece ∈ texts.map (parameter name), '&' ∉ piece :=
    fun piece hpiece hmem => (parameters_chars hname h piece hpiece _ hmem).2 rfl
  have hfilter : (texts.map (parameter name)).filter (!·.isEmpty) = texts.map (parameter name) := by
    rw [List.filter_eq_self, List.forall_mem_map]
    intro text _
    rw [parameter]
    cases name.toList <;> rfl
  rw [queryOf, pieces, Text.split_intercalate htexts hmark, hfilter, List.map_map]
  -- The parameters are apart now, and each is read on its own.
  clear hmark htexts hfilter hne
  induction h with
  | nil => rfl
  | cons hencodes _ ih =>
    have hequals : '=' ∉ name.toList := fun hmem => (hname _ hmem).2 (by simp)
    rw [List.map_cons, List.map_cons, ih]
    refine congrArg (· :: _) ?_
    rw [Function.comp_apply, parameter, Text.cut_append hequals]
    dsimp only
    rw [hname.formDecode, hencodes.formDecode]

end Parameters

/-! ## Paths -/

/-- **A path leads to segments** if it is the text of a path and these are its segments. -/
structure Leads (path : String) (segments : List String) : Prop where
  /-- It starts with a slash. -/
  slash : path.toList.head? = some '/'
  /-- Its characters may stand in a path. -/
  chars : ∀ c ∈ path.toList, isPathChar c = true
  /-- It is read as the segments. -/
  segments : segmentsOf path.toList = segments

/-- **A path with a query is read** as its segments and its parameters. -/
theorem Leads.ofText?_query {path : String} {segments : List String} (h : Leads path segments)
    {query : String} (hquery : ∀ c ∈ query.toList, isQueryChar c = true) :
    ofText? (path ++ "?" ++ query) = some ⟨segments, queryOf query.toList⟩ := by
  have hchars : (path ++ "?" ++ query).toList = path.toList ++ '?' :: query.toList := by
    simp
  have hpath : (path.toList ++ '?' :: query.toList).takeWhile isPathChar = path.toList := by
    rw [List.takeWhile_append_of_pos h.chars, List.takeWhile_cons_of_neg (by decide),
      List.append_nil]
  have hhead : (path.toList ++ '?' :: query.toList).head? = some '/' := by
    rw [List.head?_append, h.slash]
    rfl
  rw [ofText?, hchars, hpath, hhead, List.drop_left, if_neg (by simp)]
  show (if query.toList.all isQueryChar = true then _ else _) = _
  rw [if_pos (by simpa using hquery), h.segments]

/-- A path without a query is read as its segments. -/
theorem Leads.ofText? {path : String} {segments : List String} (h : Leads path segments) :
    ofText? path = some ⟨segments, []⟩ := by
  have hpath : path.toList.takeWhile isPathChar = path.toList := by
    rw [← List.append_nil path.toList, List.takeWhile_append_of_pos h.chars]
    rfl
  rw [Target.ofText?, hpath, h.slash, List.drop_length, if_neg (by simp)]
  dsimp only
  rw [h.segments]

/-- **A path without codes leads to what stands between its slashes.** -/
theorem leads_plain {path : String} (hslash : path.toList.head? = some '/')
    (h : ∀ c ∈ path.toList, isPathChar c = true ∧ c ≠ '%') : Leads path (Path.components path) where
  slash := hslash
  chars c hc := (h c hc).1
  segments := by
    rw [segmentsOf, Path.components]
    refine List.map_congr_left fun piece hpiece => percentDecode_plain fun c hc => h c ?_
    exact Text.mem_of_mem_split (List.mem_filter.1 hpiece).1 hc

/-- **A path goes on with a segment** that is written behind a slash and has none in it. -/
theorem Leads.append_segment {path : String} {segments : List String} (h : Leads path segments)
    {segment text : String} (hne : text ≠ "") (hslash : '/' ∉ text.toList)
    (htext : PathEncodes (Text.encode segment) text.toList) :
    Leads (path ++ "/" ++ text) (segments ++ [segment]) := by
  have hchars : (path ++ "/" ++ text).toList = path.toList ++ '/' :: text.toList := by
    simp
  have hfilter : [text.toList].filter (!·.isEmpty) = [text.toList] :=
    List.filter_cons_of_pos (by simpa using mt String.toList_eq_nil_iff.1 hne)
  refine ⟨?_, ?_, ?_⟩
  · rw [hchars, List.head?_append, h.slash]
    rfl
  · rw [hchars]
    exact List.forall_mem_append.2 ⟨h.chars, List.forall_mem_cons.2 ⟨by decide, htext.isPathChar⟩⟩
  · rw [hchars, segmentsOf, pieces, Text.split_append, Text.split_of_notMem hslash,
      List.filter_append, hfilter, List.map_append, List.map_singleton, htext.percentDecode,
      ← pieces, ← segmentsOf, h.segments]

end Target

end Http

end Rulebook
