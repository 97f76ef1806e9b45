/-!
# Blank space and trimming

A character is **blank** when it has the property `White_Space` of the Unicode standard: the
controls from tab to carriage return, the space, the next-line control, the no-break space and the
separators. A text is blank when all its characters are, and trimming removes blank characters at
both ends and nowhere else.

Trimming is stated for any class of characters, `trimWith`, because a path prefix is trimmed of
slashes by the same rule.
-/

namespace Rulebook.Text

/-- **The property `White_Space`.** -/
def isBlank (c : Char) : Bool :=
  let code := c.toNat
  (0x9 ≤ code && code ≤ 0xD) || code == 0x20 || code == 0x85 || code == 0xA0 || code == 0x1680 ||
    (0x2000 ≤ code && code ≤ 0x200A) || code == 0x2028 || code == 0x2029 || code == 0x202F ||
    code == 0x205F || code == 0x3000

/-- Removes characters of a class from both ends of a list. -/
def trimList (drop : Char → Bool) (chars : List Char) : List Char :=
  ((chars.dropWhile drop).reverse.dropWhile drop).reverse

/-- Removes characters of a class from both ends of a text. -/
def trimWith (drop : Char → Bool) (text : String) : String :=
  String.ofList (trimList drop text.toList)

/-- **The text without the blank characters at its ends.** -/
def trim (text : String) : String := trimWith isBlank text

/-- Whether a text is empty or has blank characters only. -/
def allBlank (text : String) : Bool := text.toList.all isBlank

/-- A printed character of seven bits is not blank. -/
theorem isBlank_of_printed {c : Char} (hlow : 33 ≤ c.toNat) (hhigh : c.toNat ≤ 126) :
    isBlank c = false := by
  simp only [isBlank, Bool.or_eq_false_iff, Bool.and_eq_false_iff, decide_eq_false_iff_not,
    beq_eq_false_iff_ne]
  omega

/-- What is left of a list after dropping a class starts with no character of it. -/
theorem head?_dropWhile_ne (drop : Char → Bool) (chars : List Char) (c : Char)
    (h : (chars.dropWhile drop).head? = some c) : drop c = false := by
  induction chars with
  | nil => simp at h
  | cons first rest ih =>
    rw [List.dropWhile_cons] at h
    split at h
    · exact ih h
    · simp only [List.head?_cons, Option.some.injEq] at h
      subst h
      simpa using ‹¬ drop first = true›

/-- What is trimmed away are characters of the class. -/
theorem exists_append_trimList (drop : Char → Bool) (chars : List Char) :
    ∃ front back, chars = front ++ trimList drop chars ++ back
      ∧ (∀ c ∈ front, drop c = true) ∧ ∀ c ∈ back, drop c = true := by
  have hfront := chars.takeWhile_append_dropWhile (p := drop)
  have hback := (chars.dropWhile drop).reverse.takeWhile_append_dropWhile (p := drop)
  refine ⟨chars.takeWhile drop, ((chars.dropWhile drop).reverse.takeWhile drop).reverse, ?_, ?_, ?_⟩
  · rw [trimList, List.append_assoc, ← List.reverse_append, hback, List.reverse_reverse, hfront]
  · exact fun c hc => List.all_eq_true.1 List.all_takeWhile c hc
  · exact fun c hc => List.all_eq_true.1 List.all_takeWhile c (List.mem_reverse.1 hc)

/-- What is left does not begin with a character of the class. -/
theorem head?_trimList {drop : Char → Bool} {chars : List Char} {c : Char}
    (h : c ∈ (trimList drop chars).head?) : drop c = false := by
  have hprefix : trimList drop chars <+: chars.dropWhile drop := by
    rw [← List.reverse_suffix, trimList, List.reverse_reverse]
    exact List.dropWhile_suffix drop
  obtain ⟨rest, hrest⟩ := hprefix
  refine head?_dropWhile_ne drop chars c ?_
  rw [← hrest, List.head?_append, Option.mem_def.1 h, Option.some_or]

/-- Nor does it end with one. -/
theorem getLast?_trimList {drop : Char → Bool} {chars : List Char} {c : Char}
    (h : c ∈ (trimList drop chars).getLast?) : drop c = false := by
  rw [trimList, List.getLast?_reverse] at h
  exact head?_dropWhile_ne drop _ c h

/-- Trimming makes nothing longer. -/
theorem length_trimList_le (drop : Char → Bool) (chars : List Char) :
    (trimList drop chars).length ≤ chars.length := by
  obtain ⟨front, back, h, -, -⟩ := exists_append_trimList drop chars
  have hlength := congrArg List.length h
  rw [List.length_append, List.length_append] at hlength
  omega

/-- What is changed by trimming becomes shorter. -/
theorem length_trimList_lt {drop : Char → Bool} {chars : List Char}
    (h : trimList drop chars ≠ chars) : (trimList drop chars).length < chars.length := by
  obtain ⟨front, back, happend, -, -⟩ := exists_append_trimList drop chars
  refine Nat.lt_of_le_of_ne (length_trimList_le drop chars) fun hlength => h ?_
  have hsum := congrArg List.length happend
  rw [List.length_append, List.length_append] at hsum
  obtain rfl : front = [] := List.eq_nil_of_length_eq_zero (by omega)
  obtain rfl : back = [] := List.eq_nil_of_length_eq_zero (by omega)
  rw [List.nil_append, List.append_nil] at happend
  exact happend.symm

/-- A list with no character of the class at its ends is kept. -/
theorem trimList_eq_self {drop : Char → Bool} {chars : List Char}
    (hfirst : ∀ c ∈ chars.head?, drop c = false) (hlast : ∀ c ∈ chars.getLast?, drop c = false) :
    trimList drop chars = chars := by
  have hdrop {list : List Char} (h : ∀ c ∈ list.head?, drop c = false) :
      list.dropWhile drop = list := by
    cases list with
    | nil => rfl
    | cons c rest => rw [List.dropWhile_cons_of_neg (by simp [h c rfl])]
  rw [trimList, hdrop hfirst, hdrop, List.reverse_reverse]
  rwa [List.head?_reverse]

/-- **Characters of the class around a list do not matter.** -/
theorem trimList_surrounded {drop : Char → Bool} {front back : List Char}
    (hfront : ∀ c ∈ front, drop c = true) (hback : ∀ c ∈ back, drop c = true) (chars : List Char) :
    trimList drop (front ++ chars ++ back) = trimList drop chars := by
  have hreverse : ∀ c ∈ back.reverse, drop c = true := fun c hc => hback c (List.mem_reverse.1 hc)
  have hnil : (back ++ []).dropWhile drop = [] := by
    rw [List.dropWhile_append_of_pos hback]
    rfl
  rw [List.append_nil] at hnil
  rw [trimList, trimList, List.append_assoc, List.dropWhile_append_of_pos hfront,
    List.dropWhile_append]
  split
  · rename_i hempty
    rw [List.isEmpty_iff.1 hempty, hnil]
  · rw [List.reverse_append, List.dropWhile_append_of_pos hreverse]

/-- A character of the class in front of a list does not matter. -/
theorem trimList_cons {drop : Char → Bool} {c : Char} (h : drop c = true) (chars : List Char) :
    trimList drop (c :: chars) = trimList drop chars := by
  rw [trimList, trimList, List.dropWhile_cons_of_pos h]

/-- Characters of the class behind a list do not matter. -/
theorem trimList_append {drop : Char → Bool} {back : List Char} (h : ∀ c ∈ back, drop c = true)
    (chars : List Char) : trimList drop (chars ++ back) = trimList drop chars := by
  have hfront : ∀ c ∈ ([] : List Char), drop c = true := nofun
  exact trimList_surrounded hfront h chars

/-- A character that is not of the class stays at the end, whatever is in front of it. -/
theorem trimList_concat {drop : Char → Bool} {last : Char} (h : drop last = false)
    (chars : List Char) : trimList drop (chars ++ [last]) = chars.dropWhile drop ++ [last] := by
  have hfirst : (chars ++ [last]).dropWhile drop = chars.dropWhile drop ++ [last] := by
    rw [List.dropWhile_append]
    split
    · rename_i hempty
      rw [List.isEmpty_iff.1 hempty, List.dropWhile_cons_of_neg (by simp [h]), List.nil_append]
    · rfl
  rw [trimList, hfirst, List.reverse_append, List.reverse_singleton, List.singleton_append,
    List.dropWhile_cons_of_neg (by simp [h]), List.reverse_cons, List.reverse_reverse]

end Rulebook.Text
