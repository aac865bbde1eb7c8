import ChainQuery.Entity

/-!
# The entity that fields imply

A user names the fields before the entity, and the fields may already tell which entity is
meant: the one that has **strictly more** of them than any other. When two entities have
equally many, which is always so when none has any, the entity is left open.

The entities are visited one after the other. What is remembered of those already visited is
the greatest number of fields that any of them has, and the one that has so many – no entity,
when more than one has.
-/

namespace ChainQuery

namespace Entity

/-- How many texts of a list are fields of an entity. A field typed twice counts twice. -/
def fieldCount (e : Entity) (fields : List Text) : Nat := fields.countP e.hasField

end Entity

/-- Where a count of fields stands after some entities: the greatest number, and the one
entity that has it. -/
structure Lead where
  /-- The entity that is ahead of all others, if one is. -/
  leader : Option Entity
  /-- The greatest number of fields. -/
  count : Nat

/-- A count of fields after one more entity. -/
def Lead.visit (fields : List Text) (lead : Lead) (e : Entity) : Lead :=
  let n := e.fieldCount fields
  if lead.count < n then ⟨some e, n⟩
  else if n = lead.count then ⟨none, lead.count⟩
  else lead

/-- **The entity that some fields imply.** -/
def impliedEntity? (fields : List Text) : Option Entity :=
  (Entity.all.foldl (Lead.visit fields) ⟨none, 0⟩).leader

end ChainQuery
