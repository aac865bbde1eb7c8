import ChainQuery.Proofs.Query.Vocabulary
import ChainQuery.Proofs.Text.Joined

/-!
# Canonical queries

Of the many spellings of a query the **canonical** one has a single space wherever white space is
needed, one behind every comma, and none elsewhere. A canonical query asks for things that exist
(`ChainQuery.Grammar.Canonical`): fields and filters of its entity, and chains.
-/

namespace ChainQuery

open Text Token

namespace Grammar

/-- What may be asked of an entity: everything, or some of its fields. -/
def IsFieldList (e : Entity) (fields : List Text) : Prop :=
  fields = [wildcard] ∨ fields ≠ [] ∧ ∀ x ∈ fields, x ∈ e.fields

instance (e : Entity) (fields : List Text) : Decidable (IsFieldList e fields) :=
  inferInstanceAs (Decidable (fields = [wildcard] ∨ fields ≠ [] ∧ ∀ x ∈ fields, x ∈ e.fields))

theorem IsFieldList.ne_nil {e : Entity} {fields : List Text} (h : IsFieldList e fields) :
    fields ≠ [] := by
  rcases h with rfl | ⟨hne, -⟩
  · simp
  · exact hne

theorem IsFieldList.isTableWord {e : Entity} {fields : List Text} (h : IsFieldList e fields) :
    ∀ x ∈ fields, IsTableWord x := by
  rcases h with rfl | ⟨-, hmem⟩
  · intro x hx
    rw [List.mem_singleton.mp hx]
    exact isTableWord_wildcard
  · exact fun x hx => isTableWord_of_mem_fields x (hmem x hx)

/-- A comparison that can be made for an entity. -/
structure Comparison.Fits (e : Entity) (c : Comparison) : Prop where
  /-- The entity is filtered by the field. -/
  field : c.field ∈ e.filterFields
  /-- The value can be written down. -/
  value : IsValue c.value

instance (e : Entity) (c : Comparison) : Decidable (c.Fits e) :=
  decidable_of_iff (e.filterFields.contains c.field = true ∧ IsValue c.value)
    ⟨fun ⟨hfield, hvalue⟩ => ⟨List.contains_iff_mem.mp hfield, hvalue⟩,
      fun h => ⟨List.contains_iff_mem.mpr h.field, h.value⟩⟩

/-- A comparison as it is written. -/
def Comparison.text (c : Comparison) : Text := comparisonText c.field [' '] c.operator [' '] c.value

/-- **A canonical query.** Lists without an item stand for clauses that are missing. -/
structure Canonical where
  /-- The entity. -/
  entity : Entity
  /-- The fields asked for. -/
  fields : List Text
  /-- Which record is asked for. -/
  identifier : Option Text := none
  /-- The filters. -/
  filters : List Comparison := []
  /-- The chains. -/
  chains : List Text := []
  /-- The fields are the wildcard, or fields of the entity. -/
  fields_fit : IsFieldList entity fields
  /-- The identifier is a word. -/
  identifier_fits : ∀ s ∈ identifier, IsWord s
  /-- The filters are filters of the entity. -/
  filters_fit : ∀ c ∈ filters, c.Fits entity
  /-- The chains exist. -/
  chains_fit : ∀ x ∈ chains, x ∈ ChainQuery.chains

namespace Canonical

/-- The name of the entity, and the identifier. -/
def sourceText (c : Canonical) : Text :=
  match c.identifier with
  | some s => c.entity.name ++ ' ' :: s
  | none => c.entity.name

/-- A clause behind a space. -/
def clauseText (k : Keyword) (body : Text) : Text := ' ' :: (k.text ++ ' ' :: body)

/-- The clause of the filters. -/
def filterText (c : Canonical) : Text :=
  if c.filters = [] then [] else clauseText .filters (joined (c.filters.map Comparison.text))

/-- The clause of the chains. -/
def chainText (c : Canonical) : Text :=
  if c.chains = [] then [] else clauseText .chains (joined c.chains)

/-- **A canonical query as it is written**: `GET` and the fields, and behind them the clauses. -/
def text (c : Canonical) : Text :=
  Query.opening ++ joined c.fields ++ clauseText .entity c.sourceText ++ c.filterText ++ c.chainText

end Canonical

end Grammar

end ChainQuery
