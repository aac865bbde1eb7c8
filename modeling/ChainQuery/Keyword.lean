import ChainQuery.Text.Basic

/-!
# Keywords

A query is a sequence of **clauses**, each opened by a keyword. There are five: `GET` names
the fields, `FROM` the entity, `WHERE` the filters, `ON` the chains, and `>>` the file into
which the results are dumped. Keywords are written in capitals and no other way.
-/

namespace ChainQuery

/-- The five keywords, named for the clause that each of them opens. -/
inductive Keyword
  /-- `GET` opens the list of fields, and can only open a query. -/
  | fields
  /-- `FROM` opens the entity. -/
  | entity
  /-- `WHERE` opens the list of filters. -/
  | filters
  /-- `ON` opens the list of chains. -/
  | chains
  /-- `>>` opens the name of a file. -/
  | dump
  deriving DecidableEq, Repr

namespace Keyword

/-- The keywords in the order in which their clauses are written. -/
def all : List Keyword := [fields, entity, filters, chains, dump]

/-- How a keyword is written. -/
def text : Keyword → Text
  | fields => "GET".toList
  | entity => "FROM".toList
  | filters => "WHERE".toList
  | chains => "ON".toList
  | dump => ">>".toList

/-- The keyword that is written so. -/
def ofText? (s : Text) : Option Keyword := all.find? fun k => k.text == s

/-- Whether a text is exactly a keyword. -/
def isKeyword (s : Text) : Bool := all.any fun k => k.text == s

theorem mem_all (k : Keyword) : k ∈ all := by cases k <;> simp [all]

@[simp] theorem ofText?_text (k : Keyword) : ofText? k.text = some k := by cases k <;> decide

theorem text_injective {k l : Keyword} (h : k.text = l.text) : k = l :=
  Option.some.inj (by rw [← ofText?_text k, h, ofText?_text])

theorem text_of_ofText? {s : Text} {k : Keyword} (h : ofText? s = some k) : k.text = s := by
  have := List.find?_some h
  simpa using this

theorem isKeyword_iff {s : Text} : isKeyword s = true ↔ ∃ k : Keyword, k.text = s := by
  simp only [isKeyword, List.any_eq_true, beq_iff_eq]
  exact ⟨fun ⟨k, _, hk⟩ => ⟨k, hk⟩, fun ⟨k, hk⟩ => ⟨k, mem_all k, hk⟩⟩

end Keyword

end ChainQuery
