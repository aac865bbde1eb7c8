import ChainQuery.Query.Judgement
import ChainQuery.Suggestion.Fields
import ChainQuery.Suggestion.Entities
import ChainQuery.Suggestion.Filters
import ChainQuery.Suggestion.Chains

/-!
# Completion

What can come next at the end of a text: the clause in which the text ends decides who is
asked. A text that is judged faulty has no suggestions, and neither has one that ends in a
keyword with no space after it, since that word may be going on.
-/

namespace ChainQuery

/-- The suggestions for a query that ends in the clause of its last keyword. -/
def Suggestion.forQuery (q : Query) (raw : Text) : Except Failure (List Suggestion) :=
  match q.lastKeyword with
  | none => .ok (words [Keyword.fields.text])
  | some .fields => .ok (forFields q raw)
  | some .entity => .ok (forEntity q raw)
  | some .filters => forFilters q raw
  | some .chains => .ok (forChains q raw)
  | some .dump => .ok (forDump raw)

/-- **What can come next at the end of a text.** -/
def complete (raw : Text) : Except Failure (List Suggestion) :=
  match Query.judge raw with
  | .error _ => .ok []
  | .ok q =>
    if Keyword.isKeyword (Cursor.fragment raw) then .ok []
    else Suggestion.forQuery q raw

end ChainQuery
