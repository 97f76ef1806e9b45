import Rulebook.Http.Message
import Rulebook.Json.Print

/-!
# The form of an answer

An answer in JSON is an object whose field `status` is `ok`, next to which the data stand under a
name of their own, or says what is wrong. The fields of every object in it are in the order of
their names.
-/

namespace Rulebook.Service

open Rulebook.Document

namespace Answer

/-- The object that says what the state of affairs is. -/
def status (message : String) : Data := .table [("status", .text message)]

/-- **The object for success.** -/
def ok : Data := status "ok"

/-- **The object for success with data** under a name. Data under the name `status` replace the
word. -/
def okWith (name : String) (data : Data) : Data :=
  .table (Table.ofList [("status", .text "ok"), (name, data.sorted)]).entries

end Answer

/-- **An answer to a request that failed**: a status code and what is wrong. -/
structure Failure where
  /-- The status code. -/
  code : Nat
  /-- What is wrong. -/
  message : String
deriving DecidableEq, Repr

namespace Failure

/-- What was asked for does not exist. -/
def notFound (message : String) : Failure := ⟨404, message⟩

/-- The service failed. -/
def internal (message : String) : Failure := ⟨500, message⟩

end Failure

/-- A response in JSON. -/
def jsonResponse (code : Nat) (data : Data) : Http.Response :=
  { code, mediaType := some Http.jsonType, body := Text.encode (Json.compact data) }

/-- The response to a request that failed. -/
def Failure.response (failure : Failure) : Http.Response :=
  jsonResponse failure.code (Answer.status failure.message)

end Rulebook.Service
