import ChainQuery.Failure
import ChainQuery.Suggestion.Basic
import ChainQuery.Suggestion.Cursor

/-!
# Suggesting filters

After `WHERE`, what is suggested depends on how far the last filter has come: its field, then
the operators that the field admits, then – nothing can be suggested for a value – the
clause that comes next. None of this makes sense before there is an entity, and asking for it
then is a failure.
-/

namespace ChainQuery

namespace Suggestion

/-- Nothing is suggested right after a comma or a parenthesis, behind a finished value, or
behind a field that is a filter already. -/
def filterSettled (e : Entity) (last : Option Filter) (raw : Text) : Bool :=
  Text.lastIs (fun c => c == ',' || c == '(' || c == ')') raw ||
    ((last.bind Filter.value).any fun value => value == Cursor.lastWord raw) ||
    (!(Cursor.fragment raw).isEmpty && (e.filterRule? (Cursor.fragment raw)).isSome)

/-- The filter is a word that is no filter of the entity, or not yet. -/
def isUnmatched (e : Entity) (f : Filter) : Bool :=
  f.operator.isNone && f.value.isNone && (e.filterRule? f.field).isNone

/-- An operator has been typed, and its value has not. -/
def awaitsValue (raw : Text) : Bool := Text.lastIs Operator.isSign (Text.trimEnd raw)

/-- The filters of the entity on which no complete filter has been typed. -/
def unusedFilters (e : Entity) (typed : List Filter) : List Text :=
  e.filterFields.filter fun field =>
    !(typed.any fun f => f.isComplete && f.field == field)

/-- **The suggestions after `WHERE`.** -/
def forFilters (q : Query) (raw : Text) : Except Failure (List Suggestion) :=
  match q.knownEntity? with
  | none => .error (.missingEntity .filters)
  | some e =>
    let last := q.filterList.getLast?
    -- the list is finished
    if last.any Filter.isComplete && Cursor.atPause raw then
      .ok (words [Keyword.chains.text])
    else if filterSettled e last raw then .ok []
    else
      -- the field is being typed
      match last.filter (isUnmatched e) with
      | some f => .ok (words (e.filterFields.filter (Text.beginsWith f.field)))
      | none =>
        if awaitsValue raw then .ok []
        else
          -- the field is finished, and an operator or another filter may follow
          match last.filter fun f => Cursor.atSpace raw && f.value.isNone with
          | some f =>
            match e.filterRule? f.field with
            | some rule => .ok (words (rule.operators.map Operator.text))
            | none => .error (.unknownFilter e f.field)
          | none => .ok (words (unusedFilters e q.filterList))

end Suggestion

end ChainQuery
