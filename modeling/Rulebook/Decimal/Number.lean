import Rulebook.Decimal.Binary64

/-!
# Numbers of documents

A number in a document is a whole number or a binary64; which of the two is decided by its
spelling and kept, because it shows when the number is written again.
-/

namespace Rulebook.Decimal

/-- **A number of a document.** -/
inductive Number where
  /-- A whole number. -/
  | integer (value : Int)
  /-- Any other number. -/
  | float (value : Binary64)
deriving DecidableEq, Repr

end Rulebook.Decimal
