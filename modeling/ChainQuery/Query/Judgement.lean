import ChainQuery.Query.Reading

/-!
# Judging a query

A query can be read from any text, but not every query can be answered. A **fault** is what
stands in the way: a beginning other than `GET`, an entity, field, filter or chain that does
not exist. Faults are sought in that order, and in a list from left to right, and the first
one found is *the* fault of the query.

Someone who is typing is not told about a word that is not finished. A text is judged only
when it is **due**: when the query is complete, or when the text ends in a space.

A `ChainQuery.Diagnostic` says where the fault is. The place is found by searching the text
for the offending word, so of two equal words the first is marked, whichever is at fault, and
a word that was typed in capitals but judged in lower case may not be found at all.
-/

namespace ChainQuery

/-- What stands in the way of a query. -/
inductive Fault
  /-- The text does not begin with `GET` and a space. -/
  | noOpening
  /-- There is no entity of this name. -/
  | unknownEntity (name : Text)
  /-- The entity has no such field. -/
  | foreignField (field : Text) (entity : Entity)
  /-- No entity has such a field. -/
  | unknownField (field : Text)
  /-- The entity has no such filter. -/
  | foreignFilter (field : Text) (entity : Entity)
  /-- This abbreviates no chain. -/
  | unknownChain (name : Text)
  /-- The query is handed in though a part that it must have is missing. -/
  | incomplete
  deriving DecidableEq, Repr

namespace Fault

/-- A text between quotation marks. -/
def quoted (s : Text) : Text := "\"".toList ++ s ++ "\"".toList

/-- What a user is told. -/
def message : Fault → Text
  | noOpening => "Query must start with GET".toList
  | unknownEntity name => "Invalid entity ".toList ++ quoted name
  | foreignField field e =>
    "Invalid field ".toList ++ quoted field ++ " for entity ".toList ++ quoted e.name
  | unknownField field => "Invalid field ".toList ++ quoted field
  | foreignFilter field e =>
    "Invalid filter ".toList ++ quoted field ++ " for entity ".toList ++ quoted e.name
  | unknownChain name => "Invalid chain ".toList ++ quoted name
  | incomplete => "Query needs fields, an entity and at least one chain".toList

/-- The word that is at fault, where it is one word. -/
def culprit? : Fault → Option Text
  | unknownEntity name => some name
  | foreignField field _ => some field
  | unknownField field => some field
  | foreignFilter field _ => some field
  | unknownChain name => some name
  | noOpening => none
  | incomplete => none

end Fault

/-- A fault, and where in the text it shows, counted in characters. -/
structure Diagnostic where
  /-- What is wrong. -/
  fault : Fault
  /-- The stretch of the text that is marked. -/
  position : Option Span
  deriving DecidableEq, Repr

namespace Diagnostic

/-- Where a word occurs first in a text. -/
def firstOccurrence? (raw word : Text) : Option Span :=
  (Text.indexOf? word raw).map fun start => ⟨start, start + word.length⟩

/-- A fault of a text, where it shows: the whole text when the beginning is wrong, and
otherwise the first occurrence of the word at fault. -/
def locate (raw : Text) (fault : Fault) : Diagnostic :=
  ⟨fault, match fault with
    | .noOpening => some ⟨0, raw.length⟩
    | fault => fault.culprit?.bind (firstOccurrence? raw)⟩

/-- What a user is told. -/
def message (d : Diagnostic) : Text := d.fault.message

end Diagnostic

namespace Query

/-! ### The five checks -/

/-- A text has to begin with `GET` and a space, with nothing before them. -/
def openingFault? (raw : Text) : Option Fault :=
  if Text.beginsWith opening raw then none else some .noOpening

/-- The entity has to exist, if one is named. -/
def entityFault? (q : Query) : Option Fault :=
  match q.entity with
  | some name => if (Entity.ofName? name).isSome then none else some (.unknownEntity name)
  | none => none

/-- A field has to be one of the entity, or of any entity while the entity is open. The
wildcard is no field, and at fault nowhere. -/
def fieldFault? (entity : Option Entity) (field : Text) : Option Fault :=
  if field = wildcard then none
  else
    match entity with
    | some e => if e.hasField field then none else some (.foreignField field e)
    | none => if isKnownField field then none else some (.unknownField field)

/-- A filter has to be one of the entity; while the entity is open it is not judged. -/
def filterFault? (entity : Option Entity) (f : Filter) : Option Fault :=
  match entity with
  | some e => if (e.filterRule? f.field).isSome then none else some (.foreignFilter f.field e)
  | none => none

/-- A chain has to abbreviate the name of one. -/
def chainFault? (name : Text) : Option Fault :=
  if abbreviatesChain name then none else some (.unknownChain name)

/-- **The fault of a query** that was read from a text: the first that the checks find. -/
def fault? (q : Query) (raw : Text) : Option Fault :=
  openingFault? raw
    |>.or q.entityFault?
    |>.or (q.fieldList.findSome? (fieldFault? q.knownEntity?))
    |>.or (q.filterList.findSome? (filterFault? q.knownEntity?))
    |>.or (q.chainList.findSome? chainFault?)

/-! ### Judgement -/

/-- A text is judged when it is not blank and either holds a complete query or ends in a
space. -/
def isDue (q : Query) (raw : Text) : Bool :=
  !(Text.trim raw).isEmpty && (q.isComplete || Text.lastIs (· == ' ') raw)

/-- The query that a text holds, or what is wrong with it, if the text is due. -/
def judge (raw : Text) : Except Diagnostic Query :=
  let q := ofText raw
  match if q.isDue raw then q.fault? raw else none with
  | some fault => .error (.locate raw fault)
  | none => .ok q

/-- What is wrong with a text. -/
def diagnostic? (raw : Text) : Option Diagnostic :=
  match judge raw with
  | .error d => some d
  | .ok _ => none

/-- Reads a text, and judges it too if that is asked for. -/
def read (raw : Text) (judging : Bool) : Except Diagnostic Query :=
  if judging then judge raw else .ok (ofText raw)

end Query

end ChainQuery
