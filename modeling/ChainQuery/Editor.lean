import ChainQuery.Json.Basic
import ChainQuery.Suggestion.Completion

/-!
# The editor

An **editor** holds the query that a user is typing, together with everything that follows
from it – the suggestions for its end, and what is wrong with it – and the outcomes of the
queries that were handed in and executed elsewhere. What follows from the input is derived
from it on every change, so it is always that of the input; only an editor in which nothing
has been typed yet has no suggestions, not even the one for an empty text.

The five things that can happen to an editor are the actions of `ChainQuery.Editor.Action`,
and `ChainQuery.Editor.perform` says what each does and what it answers.
-/

namespace ChainQuery

/-- A query that was executed, and what came back for it. -/
structure Outcome where
  /-- The query, as it came back or as it was handed in. -/
  query : Text
  /-- The result, if there is one. -/
  result : Option Json := none
  /-- What went wrong, if anything did. -/
  error : Option Text := none

namespace Outcome

/-- The query that a value names, or else the one that was handed in. -/
def queryOf (query : Text) (value : Json) : Text :=
  ((value.member? "query".toList).bind Json.string?).getD query

/-- **What a response says about a query.** A response has a member `error` or a member
`result`, and of the latter the first item counts. One that has neither says that nothing was
found. -/
def ofResponse (query : Text) (response : Json) : Outcome :=
  match (response.member? "error".toList).filter fun error => !error.isNull with
  | some error =>
    { query := queryOf query error
      error := some (((error.member? "message".toList).bind Json.string?).getD []) }
  | none =>
    match (response.member? "result".toList).bind Json.firstItem? with
    | some first =>
      { query := queryOf query first, result := first.member? "result".toList }
    | none => { query := query, error := some "No results found".toList }

end Outcome

/-- A query being typed, and what follows from it. -/
structure Editor where
  /-- What has been typed. -/
  input : Text := []
  /-- What could come next. -/
  suggestions : List Suggestion := []
  /-- What is wrong with the input. -/
  diagnostic : Option Diagnostic := none
  /-- What came back for the queries that were handed in, in order. -/
  outcomes : List Outcome := []

namespace Editor

/-- Replaces the input. Suggestions that cannot be made are none. -/
def update (editor : Editor) (input : Text) : Editor × Except Failure (List Suggestion) :=
  let found := complete input
  ({ editor with
      input := input
      suggestions := match found with
        | .ok suggestions => suggestions
        | .error _ => []
      diagnostic := Query.diagnostic? input },
    found)

/-- What the input becomes when a word takes the place of the one that is being typed. -/
def accepted (input word : Text) : Text := Text.uptoLast ' ' input ++ word ++ [' ']

/-- Puts a word in the place of the one that is being typed, and a space after it. -/
def accept (editor : Editor) (word : Text) : Editor × Except Failure (List Suggestion) :=
  editor.update (accepted editor.input word)

/-- The query to be executed: the input without the white space around it, if it is judged
to be a query and is complete. -/
def submit (editor : Editor) : Except Diagnostic Text :=
  match Query.judge editor.input with
  | .error d => .error d
  | .ok q =>
    if q.isComplete then .ok (Text.trim editor.input)
    else .error (.locate editor.input .incomplete)

/-- Keeps what a response says about a query. -/
def record (editor : Editor) (query : Text) (response : Json) : Editor × Outcome :=
  let outcome := Outcome.ofResponse query response
  ({ editor with outcomes := editor.outcomes ++ [outcome] }, outcome)

/-- Forgets what came back. -/
def clear (editor : Editor) : Editor := { editor with outcomes := [] }

/-! ### Actions -/

/-- What can happen to an editor. -/
inductive Action
  /-- The input is replaced. -/
  | update (input : Text)
  /-- A suggested word is accepted. -/
  | accept (word : Text)
  /-- The query is handed in. -/
  | submit
  /-- A response arrives for a query. -/
  | record (query : Text) (response : Json)
  /-- The outcomes are forgotten. -/
  | clear

/-- What an action answers. -/
inductive Reply
  /-- The suggestions for the new input. -/
  | suggestions (found : Except Failure (List Suggestion))
  /-- The query that was handed in. -/
  | submitted (query : Except Diagnostic Text)
  /-- What the response says. -/
  | recorded (outcome : Outcome)
  /-- Nothing. -/
  | done

/-- What an action does to an editor, and what it answers. -/
def perform (editor : Editor) : Action → Editor × Reply
  | .update input =>
    let (changed, found) := editor.update input
    (changed, .suggestions found)
  | .accept word =>
    let (changed, found) := editor.accept word
    (changed, .suggestions found)
  | .submit => (editor, .submitted editor.submit)
  | .record query response =>
    let (changed, outcome) := editor.record query response
    (changed, .recorded outcome)
  | .clear => (editor.clear, .done)

end Editor

end ChainQuery
