import ChainQuery.Token

/-!
# Clauses

The keywords among the tokens of a query divide it: before the first of them stands the
**head**, which holds the list of fields, and each of them opens a clause that runs up to the
next. Nothing is dropped and nothing moves – head and clauses, with the keywords put back
between them, are the tokens again (`ChainQuery.Clauses.toTokens_ofTokens`).

A clause may occur twice. The first of its kind is the one that counts
(`ChainQuery.Clauses.first?`), while the last keyword of all tells where a user is typing
(`ChainQuery.Clauses.lastKeyword?`).
-/

namespace ChainQuery

/-- A keyword, and what stands between it and the next. -/
structure Clause where
  /-- The keyword that opens the clause. -/
  keyword : Keyword
  /-- The token that is that keyword. -/
  opener : Token
  /-- The tokens after it. -/
  tokens : List Token
  deriving DecidableEq, Repr

/-- The clauses of a query. -/
structure Clauses where
  /-- What stands before the first keyword. -/
  head : List Token
  /-- The clauses in the order in which they stand. -/
  rest : List Clause
  deriving DecidableEq, Repr

namespace Clauses

/-- The clauses into which keywords divide some tokens. -/
def ofTokens : List Token → Clauses
  | [] => ⟨[], []⟩
  | t :: later =>
    let clauses := ofTokens later
    match t.keyword? with
    | none => { clauses with head := t :: clauses.head }
    | some k => ⟨[], ⟨k, t, clauses.head⟩ :: clauses.rest⟩

/-- The tokens that were divided: those of the head, and those of each clause after the one
that opens it. -/
def toTokens (clauses : Clauses) : List Token :=
  clauses.head ++ clauses.rest.flatMap fun clause => clause.opener :: clause.tokens

/-- The tokens of the first clause that a keyword opens. -/
def first? (clauses : Clauses) (k : Keyword) : Option (List Token) :=
  (clauses.rest.find? fun clause => clause.keyword == k).map Clause.tokens

/-- The keyword that opens the last clause. -/
def lastKeyword? (clauses : Clauses) : Option Keyword :=
  clauses.rest.getLast?.map Clause.keyword

/-! ### Nothing is lost -/

@[simp] theorem ofTokens_nil : ofTokens [] = ⟨[], []⟩ := rfl

theorem ofTokens_cons_of_none {t : Token} (h : t.keyword? = none) (later : List Token) :
    ofTokens (t :: later) =
      ⟨t :: (ofTokens later).head, (ofTokens later).rest⟩ := by
  simp [ofTokens, h]

theorem ofTokens_cons_of_some {t : Token} {k : Keyword} (h : t.keyword? = some k)
    (later : List Token) :
    ofTokens (t :: later) =
      ⟨[], ⟨k, t, (ofTokens later).head⟩ :: (ofTokens later).rest⟩ := by
  simp [ofTokens, h]

/-- Head and clauses, with the keywords put back between them, are the tokens again. -/
@[simp] theorem toTokens_ofTokens (tokens : List Token) :
    (ofTokens tokens).toTokens = tokens := by
  induction tokens with
  | nil => rfl
  | cons t later ih =>
    cases h : t.keyword? with
    | none => simpa [ofTokens_cons_of_none h, toTokens] using ih
    | some k => simpa [ofTokens_cons_of_some h, toTokens] using ih

end Clauses

end ChainQuery
