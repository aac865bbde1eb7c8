import ChainQuery.Query.Basic

/-!
# Suggestions

What is offered to someone who is typing a query: a word that could come next, or – as long
as it is open which entity is meant – the fields of several entities side by side, each
entity with its own.
-/

namespace ChainQuery

/-- One thing that could be typed next. -/
inductive Suggestion
  /-- A word. -/
  | word (text : Text)
  /-- Fields of an entity, any of which could be typed. -/
  | group (entity : Entity) (fields : List Text)
  deriving DecidableEq, Repr

namespace Suggestion

/-- The word that is suggested, if it is one word. -/
def text? : Suggestion → Option Text
  | word text => some text
  | group _ _ => none

/-- Everything that a suggestion offers. -/
def offers : Suggestion → List Text
  | word text => [text]
  | group _ fields => fields

/-- Words, suggested one by one. -/
def words (list : List Text) : List Suggestion := list.map word

end Suggestion

end ChainQuery
