import ChainQuery.Chain
import ChainQuery.Keyword

/-!
# Queries

A query asks for some **fields** of the records of one **entity** – of one record, if an
identifier is given – that pass some **filters**, on some **chains**, and may have the answer
dumped into a file.

A query is also what has been typed of it so far, so every component can be missing. What is
there is kept as it was typed: an entity is a name, which need not be the name of any entity,
and `ChainQuery.Query.knownEntity?` is the entity if there is one of that name.
-/

namespace ChainQuery

/-- One comparison, of which the operator or the value may still be missing. -/
structure Filter where
  /-- The field that is compared; or everything typed, when that is no comparison. -/
  field : Text
  /-- The comparison that is made. -/
  operator : Option Operator := none
  /-- What the field is compared with. -/
  value : Option Text := none
  deriving DecidableEq, Repr

/-- Nothing is missing from the filter. -/
def Filter.isComplete (f : Filter) : Bool := f.operator.isSome && f.value.isSome

/-- A query, of which any part may be missing. -/
structure Query where
  /-- The fields asked for, or the wildcard alone. -/
  fields : Option (List Text) := none
  /-- The name of the entity, typed or implied by the fields. -/
  entity : Option Text := none
  /-- Which record of the entity is asked for. -/
  identifier : Option Text := none
  /-- The filters that records have to pass. -/
  filters : Option (List Filter) := none
  /-- The chains on which records are sought. -/
  chains : Option (List Text) := none
  /-- The file into which the answer goes. -/
  dump : Option Text := none
  /-- The keyword of the clause that stands last. -/
  lastKeyword : Option Keyword := none
  deriving DecidableEq, Repr

namespace Query

/-- The fields, read as a list in which nothing may stand. -/
def fieldList (q : Query) : List Text := q.fields.getD []

/-- The filters, read as a list in which nothing may stand. -/
def filterList (q : Query) : List Filter := q.filters.getD []

/-- The chains, read as a list in which nothing may stand. -/
def chainList (q : Query) : List Text := q.chains.getD []

/-- The entity, if one is named and its name is known. -/
def knownEntity? (q : Query) : Option Entity := q.entity.bind Entity.ofName?

/-- Nothing that a query must have is missing. -/
def isComplete (q : Query) : Bool := q.fields.isSome && q.entity.isSome && q.chains.isSome

/-- The wildcard is among the fields. -/
def hasWildcard (q : Query) : Bool := q.fieldList.contains wildcard

end Query

end ChainQuery
