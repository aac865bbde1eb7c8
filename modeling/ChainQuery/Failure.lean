import ChainQuery.Entity
import ChainQuery.Keyword

/-!
# Failures

What can go wrong outside a query: a fault *of* a query is no failure, and is described in
`ChainQuery.Query.Judgement`. The four causes are kept apart, and put into words in one
place, `ChainQuery.Failure.message`.
-/

namespace ChainQuery

/-- Why the library cannot do what it was asked for. -/
inductive Failure
  /-- The settings cannot be used. -/
  | config (reason : Text)
  /-- Suggestions for a clause were asked for before there is an entity. -/
  | missingEntity (keyword : Keyword)
  /-- Operators were asked for, of a filter that the entity does not have. -/
  | unknownFilter (entity : Entity) (field : Text)
  /-- Something outside the library went wrong. -/
  | io (reason : Text)
  deriving DecidableEq, Repr

/-- What a user is told. -/
def Failure.message : Failure → Text
  | config reason => "Config error: ".toList ++ reason
  | missingEntity k => k.text ++ " suggestions require an entity".toList
  | unknownFilter e field =>
    "Operators not found for filter \"".toList ++ field ++ "\" of entity \"".toList ++
      e.name ++ "\"".toList
  | io reason => "I/O error: ".toList ++ reason

end ChainQuery
