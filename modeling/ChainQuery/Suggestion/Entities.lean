import ChainQuery.Suggestion.Basic
import ChainQuery.Suggestion.Cursor

/-!
# Suggesting an entity, and what follows it

After `FROM`, entities are suggested until there is one; then what may identify a record of
it; then the clause that comes next, which for an entity without filters can only be `ON`.
-/

namespace ChainQuery

namespace Suggestion

/-- The entities that are offered while there is none: those that have all the fields, or,
when no fields or all fields are asked for, those whose names begin with the last word. -/
def openEntities (q : Query) (raw : Text) : List Text :=
  match q.fields.filter fun _ => !q.hasWildcard with
  | some fields => (Entity.all.filter fun e => fields.all e.hasField).map Entity.name
  | none => (Entity.all.map Entity.name).filter fun name =>
      (Cursor.fragment raw).isEmpty || Text.beginsWith (Cursor.lastWord raw) name

/-- The place of an identifier: after the name of the entity and a space, or after a comma
and a space behind something else. -/
def atIdentifier (e : Entity) (raw : Text) : Bool :=
  Text.endsIn (e.name ++ " ".toList) raw ||
    (Cursor.atCommaSpace raw && !(Cursor.lastWord raw).isEmpty &&
      (Entity.ofName? (Cursor.lastWord raw)).isNone)

/-- The clause is finished: a space follows a word that is neither an entity nor a
keyword. -/
def entitySettled (raw : Text) : Bool :=
  (Entity.ofName? (Cursor.lastWord raw)).isNone &&
    !Keyword.isKeyword (Cursor.lastWord raw) && Cursor.atSpace raw

/-- A word is being typed that may become the keyword of the next clause. -/
def mayBecomeNextClause (raw : Text) : Bool :=
  !(Cursor.fragment raw).isEmpty &&
    (Cursor.mayBecome raw Keyword.filters.text || Cursor.mayBecome raw Keyword.chains.text)

/-- The keywords that may follow the clause of an entity. -/
def nextClauses (e : Entity) (raw : Text) : List Text :=
  if e.filterRules.isEmpty then [Keyword.chains.text]
  else [Keyword.filters.text, Keyword.chains.text].filter (Cursor.mayBecome raw)

/-- **The suggestions after `FROM`.** -/
def forEntity (q : Query) (raw : Text) : List Suggestion :=
  match q.knownEntity? with
  | none => words (openEntities q raw)
  | some e =>
    if atIdentifier e raw then words e.hints
    else if Cursor.lastWord raw = Keyword.entity.text then words [e.name]
    else if entitySettled raw || mayBecomeNextClause raw then words (nextClauses e raw)
    else []

end Suggestion

end ChainQuery
