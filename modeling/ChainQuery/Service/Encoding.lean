import ChainQuery.Editor

/-!
# Queries and suggestions in JSON

The forms in which the values of the library leave it. Every component of a query is a member
of the object that stands for it, with `null` where the component is missing. A suggestion is
a string if it is one word, and an object if it is a group of fields. An outcome alone leaves
out what it does not have, since `null` may be a result.
-/

namespace ChainQuery

namespace Json

/-- A value, or `null` in its place. -/
def orNull {α : Type} (encode : α → Json) (value : Option α) : Json :=
  (value.map encode).getD null

/-- A stretch of a text. -/
def ofSpan (span : Span) : Json :=
  ofMembers [("start", ofNat span.start), ("end", ofNat span.stop)]

/-- A keyword, as it is written. -/
def ofKeyword (k : Keyword) : Json := string k.text

/-- An operator, as it is written. -/
def ofOperator (op : Operator) : Json := string op.text

/-- A filter of a query. -/
def ofFilter (f : Filter) : Json :=
  ofMembers
    [("field", string f.field),
     ("operator", orNull ofOperator f.operator),
     ("value", orNull string f.value)]

/-- A query. -/
def ofQuery (q : Query) : Json :=
  ofMembers
    [("entity", orNull string q.entity),
     ("entityId", orNull string q.identifier),
     ("fields", orNull ofTexts q.fields),
     ("filters", orNull (fun filters => array (filters.map ofFilter)) q.filters),
     ("chains", orNull ofTexts q.chains),
     ("dump", orNull string q.dump),
     ("lastKeyword", orNull ofKeyword q.lastKeyword)]

/-- What is wrong with a text. -/
def ofDiagnostic (d : Diagnostic) : Json :=
  ofMembers [("position", orNull ofSpan d.position), ("message", string d.message)]

/-- A suggestion. -/
def ofSuggestion : Suggestion → Json
  | .word text => string text
  | .group e fields => ofMembers [("schema", string e.name), ("fields", ofTexts fields)]

/-- A list of suggestions. -/
def ofSuggestions (suggestions : List Suggestion) : Json :=
  array (suggestions.map ofSuggestion)

/-- What came back for a query. -/
def ofOutcome (outcome : Outcome) : Json :=
  object
    (("query".toList, string outcome.query) ::
      ((outcome.result.map fun value => ("result".toList, value)).toList ++
        (outcome.error.map fun message => ("error".toList, string message)).toList))

/-! ### The tables -/

/-- A filter of an entity, with its operators. -/
def ofFilterRule (rule : FilterRule) : Json :=
  ofMembers
    [("field", string rule.field), ("operators", array (rule.operators.map ofOperator))]

/-- An entity, with its fields and filters. -/
def ofEntity (e : Entity) : Json :=
  ofMembers
    [("name", string e.name),
     ("fields", ofTexts e.fields),
     ("filters", array (e.filterRules.map ofFilterRule))]

/-- Everything that a query may be made of. -/
def vocabulary : Json :=
  ofMembers
    [("entities", array (Entity.all.map ofEntity)),
     ("chains", ofTexts chains),
     ("keywords", array (Keyword.all.map ofKeyword)),
     ("operators", array (Operator.all.map ofOperator))]

end Json

end ChainQuery
