import Rulebook.Status

/-!
# Selecting statuses

A request for statuses may name what it wants: the internal rules, the external rules, or rules by
name. What is asked for adds up, and a request that asks for nothing in particular gets everything.
-/

namespace Rulebook

/-- **What a request for statuses asks for.** -/
structure StatusFilter where
  /-- All internal rules. -/
  internal : Bool := false
  /-- All external rules. -/
  external : Bool := false
  /-- The rules with these names. -/
  rules : List String := []
deriving DecidableEq, Repr, Inhabited

namespace StatusFilter

/-- Adds what one parameter asks for. A category is asked for by the name of the parameter,
whatever its value; an unknown parameter asks for nothing. -/
def add (filter : StatusFilter) (parameter : String × String) : StatusFilter :=
  if parameter.1 = "internal" then { filter with internal := true }
  else if parameter.1 = "external" then { filter with external := true }
  else if parameter.1 = "rule" then { filter with rules := filter.rules ++ [parameter.2] }
  else filter

/-- **What the parameters of a request ask for.** -/
def ofParameters (parameters : List (String × String)) : StatusFilter := parameters.foldl add {}

/-- Whether nothing in particular is asked for. -/
def isEmpty (filter : StatusFilter) : Bool :=
  !filter.internal && !filter.external && filter.rules.isEmpty

/-- Whether a category is asked for. -/
def wants (filter : StatusFilter) : Category → Bool
  | .internal => filter.internal
  | .external => filter.external

/-- Whether a status is asked for. -/
def selects (filter : StatusFilter) (name : String) (status : Status) : Bool :=
  filter.wants status.category || filter.rules.contains name

/-- **The statuses that are asked for.** -/
def apply (filter : StatusFilter) (statuses : StatusMap) : StatusMap :=
  if filter.isEmpty then statuses else statuses.filter filter.selects

end StatusFilter

end Rulebook
