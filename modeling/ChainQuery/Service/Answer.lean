import ChainQuery.Service.Encoding

/-!
# Answers

What the service says to a query, once it has one: the query that a text holds or what is wrong with
it, the suggestions for its end or why there are none. An answer is a status code and a JSON value.
How a query is found in a request is left to `ChainQuery.Service.respond`.
-/

namespace ChainQuery

namespace Service

/-! ### Responses -/

/-- The content of a response. -/
inductive Content
  /-- There is none. -/
  | empty
  /-- A JSON value. -/
  | json (value : Json)
  /-- A remark in plain words. -/
  | remark (text : Text)

/-- A response. -/
structure Response where
  /-- The status code. -/
  status : Nat
  /-- The headers by name, in lower case. -/
  headers : List (String × Text) := []
  /-- The content. -/
  content : Content := .empty

/-- A JSON value as a response. -/
def Response.ofJson (status : Nat) (value : Json) : Response :=
  { status := status
    headers := [("content-type", "application/json".toList)]
    content := .json value }

/-! ### Queries and suggestions -/

/-- The answer to a query that was to be read. -/
def answerReading (query : Text) (judging : Bool) : Response :=
  match Query.read query judging with
  | .ok q =>
    .ofJson 200 (.ofMembers [("status", .string "ok".toList), ("query", .ofQuery q)])
  | .error d =>
    .ofJson 400 (.ofMembers [("status", .string "error".toList), ("error", .ofDiagnostic d)])

/-- The answer to a query that was to be completed. -/
def answerCompletion (query : Text) : Response :=
  match complete query with
  | .ok suggestions =>
    .ofJson 200
      (.ofMembers
        [("status", .string "ok".toList), ("suggestions", .ofSuggestions suggestions)])
  | .error failure =>
    .ofJson 400
      (.ofMembers [("status", .string "error".toList), ("message", .string failure.message)])

end Service

end ChainQuery
