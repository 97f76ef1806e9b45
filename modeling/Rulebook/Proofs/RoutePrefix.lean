import Rulebook.Settings.Basic
import Mathlib.Data.List.TakeWhile

/-!
# The normal form of the prefix of the routes

The prefix that an operator writes is trimmed twice: of blank characters first, and then of slashes.
Whatever it is, what comes of it starts with a slash, ends with none unless it is nothing but a
slash, and has all that was written between the two ends (`Server.routePrefix_exact`).

That is not yet a normal form. The second trimming may bring a blank character to the end, and there
is no third one to take it away: this happens to prefixes that end, up to blank characters, in
slashes with a blank character in front of them (`BlankBeforeSlashes`). Of these the prefix of the
routes ends in a blank character, and a server that is given it as its prefix has another. For every
other prefix there is no blank character at either end, and the prefix of the routes is its own.
-/

namespace Rulebook.Settings

open Text (isBlank trimList)

/-- A slash and nothing else. -/
def isSlash (c : Char) : Bool := c == '/'

/-- **What stands between the ends of a prefix**: what is left of it without blank characters at its
ends and then without slashes there. -/
def prefixCore (written : String) : List Char := trimList isSlash (trimList isBlank written.toList)

theorem toList_normalPrefix (written : String) :
    (normalPrefix written).toList = '/' :: prefixCore written := by
  simp only [normalPrefix, Text.trimWith, Text.trim, String.toList_append, String.toList_ofList]
  rfl

/-- What starts with a slash starts with no blank character. -/
theorem head?_slash_cons (chars : List Char) : ∀ c ∈ ('/' :: chars).head?, isBlank c = false := by
  rintro c ⟨⟩
  rfl

/-- What is behind a slash decides whether it all ends in a blank character. -/
theorem getLast?_slash_cons_iff (chars : List Char) :
    (∀ c ∈ ('/' :: chars).getLast?, isBlank c = false)
      ↔ ∀ c ∈ chars.getLast?, isBlank c = false := by
  have hslash : isBlank '/' = false := rfl
  rw [List.getLast?_cons]
  cases chars.getLast? <;> simp [hslash]

/-- **A prefix ends in slashes with a blank character in front of them**, up to blank characters
behind them. Something that is not blank must come before, or else all of this is the front end of
the prefix. -/
def BlankBeforeSlashes (written : String) : Prop :=
  ∃ front blank slashes back, written.toList = front ++ blank :: (slashes ++ back)
    ∧ (∃ c ∈ front, isBlank c = false) ∧ isBlank blank = true
    ∧ slashes ≠ [] ∧ (∀ c ∈ slashes, isSlash c = true) ∧ ∀ c ∈ back, isBlank c = true

theorem isBlank_of_isSlash {c : Char} (h : isSlash c = true) : isBlank c = false := by
  rw [beq_iff_eq.1 h]
  rfl

theorem isSlash_of_isBlank {c : Char} (h : isBlank c = true) : isSlash c = false := by
  cases hslash : isSlash c with
  | false => rfl
  | true => exact absurd ((isBlank_of_isSlash hslash).symm.trans h) (by decide)

/-- **Where a blank character is in front of the slashes at the end, it is brought to the end.** -/
theorem getLast?_prefixCore_of_blank {written : String} (h : BlankBeforeSlashes written) :
    ∃ c ∈ (prefixCore written).getLast?, isBlank c = true := by
  obtain ⟨front, blank, slashes, back, hchars, ⟨c, hc, hplain⟩, hblank, hne, hslashes, hback⟩ := h
  have hkept : front.dropWhile isBlank ≠ [] := fun hnil => by
    have hall := List.dropWhile_eq_nil_iff.1 hnil c hc
    exact absurd hall (by simp [hplain])
  obtain ⟨init, last, rfl⟩ := (List.eq_nil_or_concat slashes).resolve_left hne
  have hlast : isBlank last = false := isBlank_of_isSlash (hslashes last (by simp))
  -- the blanks behind the slashes go first, and the last slash keeps what is in front of it
  have htrim : trimList isBlank written.toList
      = front.dropWhile isBlank ++ blank :: (init ++ [last]) := by
    have hback' := Text.trimList_append hback (front ++ blank :: init ++ [last])
    have hdrop : (front ++ blank :: init).dropWhile isBlank
        = front.dropWhile isBlank ++ blank :: init := by
      rw [List.dropWhile_append, if_neg (by simpa using hkept)]
    rw [hchars]
    rw [Text.trimList_concat hlast, hdrop] at hback'
    simpa using hback'
  have hcore : prefixCore written
      = (front.dropWhile isBlank).dropWhile isSlash ++ [blank] := by
    have hslash := Text.trimList_append hslashes (front.dropWhile isBlank ++ [blank])
    rw [Text.trimList_concat (isSlash_of_isBlank hblank)] at hslash
    rw [prefixCore, htrim]
    simpa using hslash
  exact ⟨blank, by simp [hcore], hblank⟩

/-- **A blank character is brought to the end in no other way.** -/
theorem blankBeforeSlashes_of_getLast? {written : String} {blank : Char}
    (h : blank ∈ (prefixCore written).getLast?) (hblank : isBlank blank = true) :
    BlankBeforeSlashes written := by
  obtain ⟨before, behind, hchars, -, hbehind⟩ :=
    Text.exists_append_trimList isBlank written.toList
  obtain ⟨front, slashes, htrim, hfront, hslashes⟩ :=
    Text.exists_append_trimList isSlash (trimList isBlank written.toList)
  obtain ⟨core, hcore⟩ := List.getLast?_eq_some_iff.1 h
  rw [← prefixCore, hcore] at htrim
  refine ⟨before ++ front ++ core, blank, slashes, behind, ?_, ?_, hblank, ?_, hslashes, hbehind⟩
  · rw [hchars, htrim]
    simp
  · -- the first character that is left by the first trimming is not the one in front of the slashes
    have hhead : ∀ c ∈ (trimList isBlank written.toList).head?, isBlank c = false :=
      fun c => Text.head?_trimList
    cases hempty : front ++ core with
    | nil =>
      obtain ⟨rfl, rfl⟩ := List.append_eq_nil_iff.1 hempty
      rw [htrim] at hhead
      exact absurd (hhead blank rfl) (by simp [hblank])
    | cons first rest =>
      refine ⟨first, ?_, hhead first ?_⟩
      · rw [List.append_assoc, hempty]
        simp
      · rw [htrim, ← List.append_assoc, hempty]
        rfl
  · rintro rfl
    rw [List.append_nil, ← List.append_assoc] at htrim
    have hlast : isBlank blank = false := by
      have h : blank ∈ (trimList isBlank written.toList).getLast? := by
        rw [htrim, List.getLast?_concat]
        rfl
      exact Text.getLast?_trimList h
    exact absurd hlast (by simp [hblank])

/-- What comes of a prefix ends in no blank character, but for the prefixes that do not matter. -/
theorem getLast?_prefixCore_iff (written : String) :
    (∀ c ∈ (prefixCore written).getLast?, isBlank c = false) ↔ ¬ BlankBeforeSlashes written := by
  constructor
  · intro h hexposed
    obtain ⟨c, hc, hblank⟩ := getLast?_prefixCore_of_blank hexposed
    exact absurd (h c hc) (by simp [hblank])
  · intro h c hc
    by_contra hblank
    exact h (blankBeforeSlashes_of_getLast? hc (by simpa using hblank))

/-- Trimming a text behind a slash leaves no more than the text. -/
theorem length_trimList_slash_cons_le (chars : List Char) :
    (trimList isSlash (trimList isBlank ('/' :: chars))).length ≤ chars.length := by
  by_cases hself : trimList isBlank ('/' :: chars) = '/' :: chars
  · rw [hself, Text.trimList_cons rfl]
    exact Text.length_trimList_le isSlash chars
  · have hlt := Text.length_trimList_lt hself
    have hle := Text.length_trimList_le isSlash (trimList isBlank ('/' :: chars))
    rw [List.length_cons] at hlt
    omega

/-- **What comes of a prefix is its own normal form** exactly when it ends in no blank character. -/
theorem normalPrefix_normalPrefix_iff (written : String) :
    normalPrefix (normalPrefix written) = normalPrefix written
      ↔ ∀ c ∈ (prefixCore written).getLast?, isBlank c = false := by
  rw [← String.toList_inj, toList_normalPrefix, toList_normalPrefix, prefixCore,
    toList_normalPrefix, List.cons.injEq]
  constructor
  · rintro ⟨-, hfixed⟩ c hc
    by_contra hblank
    obtain ⟨init, hcore⟩ := List.getLast?_eq_some_iff.1 hc
    -- the blank at the end is trimmed away, and the slash in front is trimmed away as well
    have hback : ∀ last ∈ [c], isBlank last = true := by simpa using hblank
    have htrim := Text.trimList_append hback ('/' :: init)
    rw [List.cons_append, ← hcore] at htrim
    have hle := length_trimList_slash_cons_le init
    rw [← htrim, hfixed, hcore, List.length_append, List.length_singleton] at hle
    omega
  · intro h
    have hkept : trimList isBlank ('/' :: prefixCore written) = '/' :: prefixCore written :=
      Text.trimList_eq_self (head?_slash_cons _) ((getLast?_slash_cons_iff _).2 h)
    refine ⟨rfl, ?_⟩
    rw [hkept, Text.trimList_cons rfl]
    exact Text.trimList_eq_self (fun _ => Text.head?_trimList) fun _ => Text.getLast?_trimList

/-! ## The prefix of the routes -/

/-- **The prefix of the routes.** It starts with a slash, ends with none unless it is nothing else,
and has behind the first slash what was written but for slashes and blank characters at the ends.
It has no blank character at its ends, and is the prefix of a server that is given it, exactly when
no blank character stood in front of the slashes at the end of what was written. -/
theorem Server.routePrefix_exact (server : Server) :
    (∃ core front back, server.routePrefix.toList = '/' :: core
        ∧ server.apiPrefix.toList = front ++ core ++ back
        ∧ ∀ c ∈ front ++ back, isBlank c = true ∨ c = '/')
      ∧ (server.routePrefix.toList.getLast? = some '/' → server.routePrefix = "/")
      ∧ ((∀ c, c ∈ server.routePrefix.toList.head? ∨ c ∈ server.routePrefix.toList.getLast? →
          isBlank c = false) ↔ ¬ BlankBeforeSlashes server.apiPrefix)
      ∧ ({ server with apiPrefix := server.routePrefix }.routePrefix = server.routePrefix
        ↔ ¬ BlankBeforeSlashes server.apiPrefix) := by
  refine ⟨?_, fun hlast => ?_, ?_, ?_⟩
  · obtain ⟨before, behind, hchars, hbefore, hbehind⟩ :=
      Text.exists_append_trimList isBlank server.apiPrefix.toList
    obtain ⟨front, back, htrim, hfront, hback⟩ :=
      Text.exists_append_trimList isSlash (trimList isBlank server.apiPrefix.toList)
    refine ⟨prefixCore server.apiPrefix, before ++ front, back ++ behind,
      toList_normalPrefix server.apiPrefix, ?_, fun c hc => ?_⟩
    · refine hchars.trans ?_
      rw [htrim, ← prefixCore]
      simp
    · simp only [List.mem_append] at hc
      rcases hc with (hc | hc) | hc | hc
      · exact .inl (hbefore c hc)
      · exact .inr (by simpa [isSlash] using hfront c hc)
      · exact .inr (by simpa [isSlash] using hback c hc)
      · exact .inl (hbehind c hc)
  · rw [← String.toList_inj, Server.routePrefix, toList_normalPrefix]
    rw [Server.routePrefix, toList_normalPrefix, List.getLast?_cons] at hlast
    cases hcore : (prefixCore server.apiPrefix).getLast? with
    | none =>
      rw [List.getLast?_eq_none_iff.1 hcore]
      rfl
    | some last =>
      rw [hcore] at hlast
      obtain rfl : last = '/' := Option.some.inj hlast
      exact absurd (Text.getLast?_trimList hcore) (by decide)
  · rw [← getLast?_prefixCore_iff, ← getLast?_slash_cons_iff, ← toList_normalPrefix]
    refine ⟨fun h c hc => h c (.inr hc), fun h c hc => hc.elim (fun hfirst => ?_) (h c)⟩
    rw [Server.routePrefix, toList_normalPrefix] at hfirst
    exact head?_slash_cons _ c hfirst
  · rw [← getLast?_prefixCore_iff]
    exact normalPrefix_normalPrefix_iff server.apiPrefix

/-- **A blank character before the slash at the end.** What comes of the prefix ends in the blank
character, and a server that is given it has another prefix. -/
theorem routePrefix_of_blank_before_slash :
    let server : Server := { apiPrefix := "/v1 /" }
    server.routePrefix = "/v1 "
      ∧ (∃ c ∈ server.routePrefix.toList.getLast?, isBlank c = true)
      ∧ { server with apiPrefix := server.routePrefix }.routePrefix ≠ server.routePrefix :=
  ⟨by decide, ⟨' ', by decide, by decide⟩, by decide⟩

end Rulebook.Settings
