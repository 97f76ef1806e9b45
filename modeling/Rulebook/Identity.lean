import Rulebook.Base64
import Rulebook.Json.Print
import Rulebook.Json.Source
import Rulebook.Text.Blank

/-!
# Who sends a request

A request says who sends it in a header: a JSON document in base64 whose field `identity` holds an
account number, the number of an organization, or both. The organization may also stand one level
deeper, where it counts only if it does not stand above. Either may be given as a number, and means
the text of the number. One of the two must be there.
-/

namespace Rulebook

open Rulebook.Document

/-- **Who sends a request.** -/
structure Identity where
  /-- The account; may be empty. -/
  accountNumber : String
  /-- The organization; may be empty. -/
  orgId : String
deriving DecidableEq, Repr, Inhabited

/-- **Why a request is refused.** -/
inductive Identity.Refusal where
  /-- The header is missing. -/
  | missing
  /-- The header is not what it should be. -/
  | malformed (reason : String)
  /-- The header names nobody. -/
  | empty
deriving DecidableEq, Repr

namespace Identity

/-- **The words for a refusal.** -/
def Refusal.message : Refusal → String
  | .missing => "Missing auth token"
  | .malformed reason => "Malformed authentication token: " ++ reason
  | .empty => "Identity carries neither an account number nor an organization id"

/-- The status code that answers a refusal. -/
def Refusal.code : Refusal → Nat
  | .missing => 401
  | .malformed _ | .empty => 403

/-- **What a value means where a text is meant**: a text itself, a number its text, and anything
else the empty text. -/
def textOf : Data → String
  | .text value => value
  | .integer value => String.ofList (Json.integerChars value)
  | .float value => value.text .json
  | _ => ""

/-- Reads a text or a number. -/
def readTextOf (value : Json.Focus) : Reading String := textOf <$> Json.readData value

/-- What the header says, before it is known whether it names anybody. -/
structure Claims where
  /-- The account. -/
  accountNumber : String := ""
  /-- The organization. -/
  orgId : String := ""
  /-- The organization one level deeper. -/
  innerOrgId : Option String := none
deriving DecidableEq, Repr

/-- Reads the deeper level. -/
def readInner (value : Json.Focus) : Reading String :=
  readRecord "struct Internal" "" [.optional "org_id" readTextOf fun orgId _ => orgId] value

/-- Reads the field that holds the identity. -/
def readClaims (value : Json.Focus) : Reading Claims :=
  readRecord "struct RawIdentity" {} [
    .optional "account_number" readTextOf fun accountNumber claims => { claims with accountNumber },
    .optional "org_id" readTextOf fun orgId claims => { claims with orgId },
    .optional "internal" (readOption readInner)
      fun innerOrgId claims => { claims with innerOrgId }] value

/-- Reads the whole document. -/
def readToken (value : Json.Focus) : Reading Claims :=
  readRecord "struct Token" ({} : Claims) [.mandatory "identity" readClaims fun claims _ => claims]
    value

/-- The identity that claims amount to. -/
def ofClaims (claims : Claims) : Except Refusal Identity :=
  let orgId := if claims.orgId.isEmpty then claims.innerOrgId.getD "" else claims.orgId
  if claims.accountNumber.isEmpty && orgId.isEmpty then throw .empty
  else pure ⟨claims.accountNumber, orgId⟩

/-- **The identity that a header gives.** Blank space around it does not matter. -/
def ofHeader (header : String) : Except Refusal Identity :=
  match Base64.decode (Text.encode (Text.trim header)) with
  | .error flaw => throw (.malformed flaw.message)
  | .ok bytes =>
    match Json.readBytes readToken bytes with
    | .error fault => throw (.malformed fault.message)
    | .ok claims => ofClaims claims

end Identity

end Rulebook
