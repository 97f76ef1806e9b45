import Rulebook.StatusFilter
import Mathlib.Data.List.Basic
import Mathlib.Tactic.SplitIfs

/-!
# What is asked for adds up, and asking for nothing gets everything

A request for statuses is answered by one pass over its parameters, which leaves a filter, and the
filter is then applied to the statuses. The filter has two readings. With nothing in it, it selects
everything; with anything in it, it selects what its parts select, and that may be nothing at all.
So a longer request gets more, except for the first parameter that counts, with which the answer
shrinks from everything to what that parameter asks for.

What is shown here is that neither the filter nor the order of the pass matters. `apply` sees of a
filter whether it is empty and what it selects, each parameter adds to these two on its own
(`isEmpty_add`, `selects_add`), and so the answer is decided by the parameters that are there
(`mem_apply_ofParameters`).
-/

namespace Rulebook

namespace StatusFilter

/-! ## Requests -/

/-- The names of the parameters that count. -/
def knownNames : List String := ["internal", "external", "rule"]

/-- **One parameter asks for a status.** A category is asked for with any value, a rule with its
name as the value. -/
inductive AsksFor : String × String → String → Status → Prop
  /-- All internal rules are asked for. -/
  | internal {status : Status} (value name : String) (h : status.category = .internal) :
      AsksFor ("internal", value) name status
  /-- All external rules are asked for. -/
  | external {status : Status} (value name : String) (h : status.category = .external) :
      AsksFor ("external", value) name status
  /-- The rule is asked for. -/
  | rule (name : String) (status : Status) : AsksFor ("rule", name) name status

/-- **Something in particular is asked for**, whether or not there is a status for it. -/
def Asks (parameters : List (String × String)) : Prop :=
  ∃ parameter ∈ parameters, parameter.1 ∈ knownNames

/-- A status is asked for by some parameter. -/
def Wanted (parameters : List (String × String)) (name : String) (status : Status) : Prop :=
  ∃ parameter ∈ parameters, AsksFor parameter name status

/-- **Two requests with the same parameters**, as far as they count: in another order, with
repetitions, or with other parameters in between. -/
def SameRequest (parameters others : List (String × String)) : Prop :=
  ∀ parameter : String × String, parameter.1 ∈ knownNames →
    (parameter ∈ parameters ↔ parameter ∈ others)

/-- Whatever a parameter that counts may be like, both requests have one that is like it. -/
theorem SameRequest.exists_iff {parameters others : List (String × String)}
    (h : SameRequest parameters others) {is : String × String → Prop}
    (hknown : ∀ parameter, is parameter → parameter.1 ∈ knownNames) :
    (∃ parameter ∈ parameters, is parameter) ↔ ∃ parameter ∈ others, is parameter := by
  refine exists_congr fun parameter => ?_
  rw [and_congr_left_iff]
  exact fun his => h parameter (hknown parameter his)

/-- A parameter that asks for a status counts. -/
theorem AsksFor.known {parameter : String × String} {name : String} {status : Status}
    (h : AsksFor parameter name status) : parameter.1 ∈ knownNames := by
  cases h <;> simp [knownNames]

/-- What a parameter asks for, by its name. -/
theorem asksFor_iff {parameter : String × String} {name : String} {status : Status} :
    AsksFor parameter name status
      ↔ parameter.1 = "internal" ∧ status.category = .internal
        ∨ parameter.1 = "external" ∧ status.category = .external
        ∨ parameter.1 = "rule" ∧ parameter.2 = name := by
  obtain ⟨key, value⟩ := parameter
  constructor
  · rintro (⟨_, _, h⟩ | ⟨_, _, h⟩ | _)
    · exact .inl ⟨rfl, h⟩
    · exact .inr (.inl ⟨rfl, h⟩)
    · exact .inr (.inr ⟨rfl, rfl⟩)
  · rintro (⟨rfl, h⟩ | ⟨rfl, h⟩ | ⟨rfl, rfl⟩)
    · exact .internal value name h
    · exact .external value name h
    · exact .rule value status

/-- Requests with the same parameters ask for something in particular, or neither does. -/
theorem SameRequest.asks_iff {parameters others : List (String × String)}
    (h : SameRequest parameters others) : Asks parameters ↔ Asks others :=
  h.exists_iff fun _ hknown => hknown

/-- Requests with the same parameters ask for the same statuses. -/
theorem SameRequest.wanted_iff {parameters others : List (String × String)}
    (h : SameRequest parameters others) (name : String) (status : Status) :
    Wanted parameters name status ↔ Wanted others name status :=
  h.exists_iff fun _ hasks => hasks.known

/-! ## One parameter -/

/-- **A filter with one parameter more is empty** when it was and the parameter does not count. -/
theorem isEmpty_add (filter : StatusFilter) (parameter : String × String) :
    (filter.add parameter).isEmpty = true
      ↔ filter.isEmpty = true ∧ parameter.1 ∉ knownNames := by
  unfold add
  split_ifs with hinternal hexternal hrule
  · simp [isEmpty, knownNames, hinternal]
  · simp [isEmpty, knownNames, hexternal]
  · simp [isEmpty, knownNames, hrule]
  · simp [knownNames, hinternal, hexternal, hrule]

/-- **A filter with one parameter more selects** what it did and what the parameter asks for. -/
theorem selects_add (filter : StatusFilter) (parameter : String × String) (name : String)
    (status : Status) : (filter.add parameter).selects name status = true
      ↔ filter.selects name status = true ∨ AsksFor parameter name status := by
  rw [asksFor_iff]
  unfold add
  split_ifs with hinternal hexternal hrule
  · cases hcategory : status.category <;> simp [selects, wants, hcategory, hinternal]
  · cases hcategory : status.category <;> simp [selects, wants, hcategory, hexternal]
  · cases hcategory : status.category <;>
      simp [selects, wants, hcategory, hrule, or_assoc, @eq_comm _ parameter.2]
  · simp [hinternal, hexternal, hrule]

/-! ## All parameters -/

/-- The filter of a request is empty when no parameter counts. -/
theorem isEmpty_foldl_add (parameters : List (String × String)) (filter : StatusFilter) :
    (parameters.foldl add filter).isEmpty = true
      ↔ filter.isEmpty = true ∧ ¬ Asks parameters := by
  induction parameters generalizing filter with
  | nil => simp [Asks]
  | cons parameter parameters ih =>
    have hcons : Asks (parameter :: parameters)
        ↔ parameter.1 ∈ knownNames ∨ Asks parameters := List.exists_mem_cons_iff ..
    rw [List.foldl_cons, ih, isEmpty_add, hcons, not_or, and_assoc]

/-- The filter of a request selects what some parameter asks for. -/
theorem selects_foldl_add (parameters : List (String × String)) (filter : StatusFilter)
    (name : String) (status : Status) :
    (parameters.foldl add filter).selects name status = true
      ↔ filter.selects name status = true ∨ Wanted parameters name status := by
  induction parameters generalizing filter with
  | nil => simp [Wanted]
  | cons parameter parameters ih =>
    have hcons : Wanted (parameter :: parameters) name status
        ↔ AsksFor parameter name status ∨ Wanted parameters name status :=
      List.exists_mem_cons_iff ..
    rw [List.foldl_cons, ih, selects_add, hcons, or_assoc]

/-- **A filter is empty** exactly when the request asks for nothing in particular. -/
theorem isEmpty_ofParameters (parameters : List (String × String)) :
    (ofParameters parameters).isEmpty = true ↔ ¬ Asks parameters := by
  rw [ofParameters, isEmpty_foldl_add]
  exact and_iff_right rfl

/-- **A filter selects** exactly what the request asks for. -/
theorem selects_ofParameters (parameters : List (String × String)) (name : String)
    (status : Status) : (ofParameters parameters).selects name status = true
      ↔ Wanted parameters name status := by
  have hnothing : selects {} name status = false := by
    unfold selects wants
    cases status.category <;> rfl
  rw [ofParameters, selects_foldl_add, hnothing]
  exact or_iff_right Bool.false_ne_true

/-! ## The answer -/

/-- A request that asks for nothing in particular gets everything. -/
theorem apply_of_not_asks {parameters : List (String × String)} (h : ¬ Asks parameters)
    (statuses : StatusMap) : (ofParameters parameters).apply statuses = statuses :=
  if_pos ((isEmpty_ofParameters parameters).2 h)

/-- A request that asks for something in particular gets that, as it is. -/
theorem get?_apply_of_asks {parameters : List (String × String)} (h : Asks parameters)
    (statuses : StatusMap) (name : String) (status : Status) :
    ((ofParameters parameters).apply statuses).get? name = some status
      ↔ statuses.get? name = some status ∧ Wanted parameters name status := by
  have hempty : ¬ (ofParameters parameters).isEmpty = true := by
    rw [isEmpty_ofParameters]
    exact not_not_intro h
  rw [apply, if_neg hempty, Table.get?_filter_eq_some_iff, selects_ofParameters]

/-- **Requests with the same parameters get the same answer.** -/
theorem SameRequest.apply_eq {parameters others : List (String × String)}
    (h : SameRequest parameters others) (statuses : StatusMap) :
    (ofParameters others).apply statuses = (ofParameters parameters).apply statuses := by
  by_cases hasks : Asks parameters
  · refine Table.ext_get? fun name => Option.ext fun status => ?_
    rw [get?_apply_of_asks (h.asks_iff.1 hasks), get?_apply_of_asks hasks, h.wanted_iff]
  · rw [apply_of_not_asks hasks, apply_of_not_asks (mt h.asks_iff.2 hasks)]

/-- A request that is put together from two asks for something in particular when the first
does. -/
theorem Asks.append {parameters : List (String × String)} (h : Asks parameters)
    (others : List (String × String)) : Asks (parameters ++ others) := by
  obtain ⟨parameter, hmem, hknown⟩ := h
  exact ⟨parameter, List.mem_append_left _ hmem, hknown⟩

/-- A request that is put together from two asks for what one of them asks for. -/
theorem wanted_append (parameters others : List (String × String)) (name : String)
    (status : Status) : Wanted (parameters ++ others) name status
      ↔ Wanted parameters name status ∨ Wanted others name status := by
  unfold Wanted
  simp only [List.mem_append, or_and_right, exists_or]

/-- **The answer is what is asked for, or everything.** A request in which no parameter counts gets
all statuses. Any other gets, unchanged, the statuses some parameter asks for, which are none when
it only names rules that there are not: whether something is asked for is a matter of the
parameters and not of the statuses. So the answer does not depend on the order of the parameters,
on repetitions and on parameters that do not count, and two requests that both ask for something
get in one request what they get together. -/
theorem apply_ofParameters_exact (statuses : StatusMap) (parameters : List (String × String)) :
    (¬ Asks parameters → (ofParameters parameters).apply statuses = statuses)
      ∧ (Asks parameters → ∀ name status,
          ((ofParameters parameters).apply statuses).get? name = some status
            ↔ statuses.get? name = some status ∧ Wanted parameters name status)
      ∧ ((ofParameters parameters).isEmpty = true ↔ ¬ Asks parameters)
      ∧ (∀ others, SameRequest parameters others →
          (ofParameters others).apply statuses = (ofParameters parameters).apply statuses)
      ∧ (∀ others, Asks parameters → Asks others → ∀ name status,
          ((ofParameters (parameters ++ others)).apply statuses).get? name = some status
            ↔ ((ofParameters parameters).apply statuses).get? name = some status
              ∨ ((ofParameters others).apply statuses).get? name = some status) := by
  refine ⟨fun h => apply_of_not_asks h statuses, fun h => get?_apply_of_asks h statuses,
    isEmpty_ofParameters parameters, fun others h => h.apply_eq statuses, ?_⟩
  intro others hparameters hothers name status
  rw [get?_apply_of_asks (hparameters.append others), get?_apply_of_asks hparameters,
    get?_apply_of_asks hothers, wanted_append, and_or_left]

/-- Some statuses: of an internal rule, and of two external rules, one of them not loaded. -/
def someStatuses : StatusMap :=
  Table.ofList [("ours", .loaded .internal), ("public", .loaded .external),
    ("theirs", .failed .external "no content")]

/-- A name that no rule has gets nothing, and not everything; a category is asked for with any
value, also twice and with other parameters in between; and a rule that is asked for by name is
added to it. -/
theorem apply_ofParameters_someStatuses :
    (ofParameters [("branch", "internal")]).apply someStatuses = someStatuses
      ∧ (∀ name status, ((ofParameters [("rule", "")]).apply someStatuses).get? name
          ≠ some status)
      ∧ (ofParameters [("internal", "no"), ("branch", "main"), ("internal", "no")]).apply
            someStatuses
          = (ofParameters [("internal", "no")]).apply someStatuses
      ∧ ((ofParameters ([("internal", "no")] ++ [("rule", "theirs")])).apply someStatuses).get?
            "theirs"
          = some (.failed .external "no content") := by
  have hrule : Asks [("rule", "")] := ⟨("rule", ""), by decide, by decide⟩
  have hinternal : Asks [("internal", "no")] := ⟨("internal", "no"), by decide, by decide⟩
  have htheirs : Asks [("rule", "theirs")] := ⟨("rule", "theirs"), by decide, by decide⟩
  refine ⟨?_, ?_, ?_, ?_⟩
  · refine (apply_ofParameters_exact someStatuses [("branch", "internal")]).1 ?_
    simp [Asks, knownNames]
  · intro name status hget
    obtain ⟨hmem, parameter, hparameter, hasks⟩ :=
      ((apply_ofParameters_exact someStatuses [("rule", "")]).2.1 hrule name status).1 hget
    cases List.mem_singleton.1 hparameter
    obtain rfl : "" = name := by simpa [asksFor_iff] using hasks
    simp [someStatuses, Table.ofList, Table.get?_insert] at hmem
  · refine (apply_ofParameters_exact someStatuses [("internal", "no")]).2.2.2.1 _ ?_
    intro parameter hknown
    simp only [List.mem_cons, List.not_mem_nil, or_false]
    grind [knownNames]
  · refine ((apply_ofParameters_exact someStatuses [("internal", "no")]).2.2.2.2
      [("rule", "theirs")] hinternal htheirs "theirs" _).2 (.inr ?_)
    refine ((apply_ofParameters_exact someStatuses [("rule", "theirs")]).2.1 htheirs _ _).2 ⟨?_, ?_⟩
    · rfl
    · exact ⟨("rule", "theirs"), List.mem_singleton_self _, .rule "theirs" _⟩

end StatusFilter

end Rulebook
