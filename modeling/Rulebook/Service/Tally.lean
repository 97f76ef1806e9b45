import Rulebook.Settings.Basic

/-!
# Counting requests

Every request is counted twice when it has been answered: under the route it was about, or under
`unmatched`, and under the status code of its answer. The counters are shown as lines of text, each
with its name and its label; a third counter, of the times it took to answer, counts with the first.
-/

namespace Rulebook.Service

/-- **How often what was asked for and answered.** -/
structure Tally where
  /-- Requests by route. -/
  endpoints : Table Nat := ∅
  /-- Answers by status code. -/
  codes : Table Nat := ∅
deriving Inhabited

namespace Tally

/-- Adds one to a counter. -/
def increment (table : Table Nat) (label : String) : Table Nat :=
  table.insert label ((table.get? label).getD 0 + 1)

/-- The label of a request that is about nothing. -/
def unmatched : String := "unmatched"

/-- **Counts an answered request.** -/
def record (tally : Tally) (endpoint : String) (code : Nat) : Tally :=
  ⟨increment tally.endpoints endpoint, increment tally.codes (toString code)⟩

/-- The sum of counters. -/
def total (table : Table Nat) : Nat := table.values.foldr (· + ·) 0

/-! ## As text -/

/-- Whether a character may stand in the name of a counter. -/
def isNameChar (first : Bool) (c : Char) : Bool :=
  c.isAlpha || c == '_' || c == ':' || (!first && c.isDigit)

/-- **The name of a counter**: every character that may not stand where it stands becomes an
underscore. -/
def cleanName (name : String) : String :=
  match name.toList with
  | [] => ""
  | c :: rest =>
    let clean (first : Bool) (c : Char) : Char := if isNameChar first c then c else '_'
    String.ofList (clean true c :: rest.map (clean false))

/-- A label in quotes. -/
def quotedLabel (label : String) : String :=
  String.ofList ('"' :: label.toList.flatMap (fun c =>
    if c == '"' then ['\\', '"']
    else if c == '\\' then ['\\', '\\']
    else if c == '\n' then ['\\', 'n']
    else [c]) ++ ['"'])

/-- The lines of one counter. -/
def lines (kind name sample label : String) (table : Table Nat) : List String :=
  if table.entries.isEmpty then []
  else
    ("# TYPE " ++ name ++ " " ++ kind) ::
      (table.entries.map fun entry =>
        name ++ sample ++ "\x7b" ++ label ++ "=" ++ quotedLabel entry.1 ++ "\x7d " ++
          toString entry.2) ++ [""]

/-- **The counters as text**, under the names that the settings give them. -/
def text (tally : Tally) (metrics : Settings.Metrics) : String :=
  let name (counter : String) : String := cleanName (metrics.fullName counter)
  String.join (List.map (· ++ "\n")
    (lines "counter" (name "api_endpoints_requests") "" "endpoint" tally.endpoints ++
      lines "counter" (name "api_endpoints_status_codes") "" "status_code" tally.codes ++
      lines "summary" (name "api_endpoints_response_time") "_count" "endpoint" tally.endpoints))

end Tally

end Rulebook.Service
