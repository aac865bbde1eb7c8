import ChainQuery.Suggestion.Basic
import ChainQuery.Suggestion.Cursor

/-!
# Suggesting fields

While the list of fields is being typed, fields are suggested: those of the entity, as soon as
the fields already there imply one, and before that the featured fields of every entity that
could still be meant. A list that is finished is followed by `FROM`.
-/

namespace ChainQuery

namespace Suggestion

/-- What is offered when no field has been typed: the wildcard, and the featured fields of
every entity. -/
def featuredGroups : List Suggestion :=
  .word wildcard :: Entity.all.map fun e => .group e e.featured

/-- The fields of an entity that are not in the list. While the last field of the list is none
of the entity's, only fields are offered in which it occurs. -/
def unusedFields (e : Entity) (typed : List Text) : List Text :=
  let typing := typed.getLast?.filter fun last => !e.hasField last
  (e.fields.filter fun field => !typed.contains field).filter fun field =>
    typing.all fun fragment => Text.occursIn fragment field

/-- The group of featured fields of an entity, if it could still be the one that is meant:
all fields before the last are among them, and some begin with the last one. With `narrow`,
no others are shown. -/
def featuredGroup? (before : List Text) (last : Text) (narrow : Bool) (e : Entity) :
    Option Suggestion :=
  if before.all e.featured.contains && e.featured.any (Text.beginsWith last) then
    some (.group e (e.featured.filter fun field => !narrow || Text.beginsWith last field))
  else
    none

/-- What is offered while the entity is open and some fields have been typed. -/
def candidateGroups (before : List Text) (last : Text) (narrow : Bool) : List Suggestion :=
  (if Text.beginsWith last wildcard then [.word wildcard] else []) ++
    Entity.all.filterMap (featuredGroup? before last narrow)

/-- A single group is no choice between entities, and is shown as plain words. -/
def flattenSingle : List Suggestion → List Suggestion
  | [.group _ fields] => words fields
  | suggestions => suggestions

/-- The word that is being typed stands after a finished list, and may become `FROM`. -/
def mayBecomeFrom (raw : Text) : Bool :=
  ((Cursor.previousWord? raw).any fun word => !word.isEmpty && !Text.lastIs (· == ',') word) &&
    !(Cursor.fragment raw).isEmpty && Cursor.mayBecome raw Keyword.entity.text

/-- Nothing is suggested right after a comma, a field or the wildcard. -/
def fieldsSettled (raw : Text) : Bool :=
  Text.lastIs (· == ',') raw || isKnownField (Cursor.fragment raw) ||
    Cursor.lastWord raw == wildcard

/-- **The suggestions for the list of fields.** -/
def forFields (q : Query) (raw : Text) : List Suggestion :=
  if !q.fieldList.isEmpty && Cursor.atPause raw then words [Keyword.entity.text]
  else if mayBecomeFrom raw then words [Keyword.entity.text]
  else if fieldsSettled raw then []
  else
    match q.knownEntity? with
    | some e => words (unusedFields e q.fieldList)
    | none =>
      -- which entity is meant is open, and only featured fields are offered
      match q.fieldList.getLast? with
      | none => featuredGroups
      | some last =>
        flattenSingle
          (candidateGroups q.fieldList.dropLast last !(Cursor.fragment raw).isEmpty)

end Suggestion

end ChainQuery
