import ChainQuery.Proofs.Query.Passages

/-!
# What every query has in common

Reading never fails, so a query may be read from a text that makes no sense at all. It is still
**well formed** (`ChainQuery.Query.wellFormed_ofText`): a part that is there is not empty, no white
space is left around it, and what was cut at commas holds none. The parts that have not been
lowered are excerpts of the text. And the parts depend on each other as they should: there are no
fields without the opening, no identifier without an entity, no value without an operator, and no
operator behind anything but an identifier.
-/

namespace ChainQuery

open Text Token

namespace Filter

/-- **A well-formed filter**, as it is read from a text. -/
structure WellFormed (f : Filter) (raw : Text) : Prop where
  /-- Something stands in the place of the field. -/
  field : Excerpt f.field raw
  /-- What is compared with a value is compared by an operator. -/
  isSome_operator : f.value.isSome → f.operator.isSome
  /-- What stands before an operator is made of ASCII letters, digits and underscores. -/
  identifier : f.operator.isSome → ∀ c ∈ f.field, isIdentifierChar c = true
  /-- The value stands in the text, with no white space around it. -/
  value : ∀ v ∈ f.value, Excerpt v raw

end Filter

namespace Query

variable {raw : Text}

/-- **A well-formed query**, as it is read from a text. -/
structure WellFormed (q : Query) (raw : Text) : Prop where
  /-- The name of an entity is a word. -/
  entity : ∀ name ∈ q.entity, name ≠ [] ∧ ∀ c ∈ name, isBlank c = false
  /-- An identifier stands in the text behind the name of an entity. -/
  identifier : ∀ w ∈ q.identifier, Excerpt w raw ∧ q.entity.isSome
  /-- Fields are read only where the text begins with what has to precede them. -/
  opening : q.fields.isSome → opening <+: trim raw
  /-- Fields are cut at commas, and stand in the text. -/
  fields : ∀ field ∈ q.fieldList, Excerpt field raw ∧ ',' ∉ field
  /-- There is no list of filters without a filter. -/
  filters_ne_nil : q.filters ≠ some []
  /-- Every filter is well formed. -/
  filters : ∀ f ∈ q.filterList, f.WellFormed raw
  /-- There is no list of chains without a chain. -/
  chains_ne_nil : q.chains ≠ some []
  /-- Chains are cut at commas. -/
  chains : ∀ name ∈ q.chainList, Solid name ∧ ',' ∉ name
  /-- The file stands in the text. -/
  dump : ∀ file ∈ q.dump, Excerpt file raw

/-- The name of an entity is a word, typed or implied. -/
theorem word_of_entity {name : Text} (h : (ofText raw).entity = some name) :
    name ≠ [] ∧ ∀ c ∈ name, isBlank c = false := by
  rcases excerpt_of_entity h with ⟨w, hw, hword, rfl⟩ | ⟨e, rfl⟩
  · exact ⟨lower_ne_nil hw.solid.ne_nil, forall_mem_lower (fun d hd _ => hd) hword⟩
  · cases e <;> decide

/-- An identifier stands behind the name of an entity. -/
theorem excerpt_of_identifier {w : Text} (h : (ofText raw).identifier = some w) :
    Excerpt w raw ∧ (ofText raw).entity.isSome := by
  obtain ⟨⟨name, identifier⟩, hnamed, hidentifier⟩ := Option.bind_eq_some_iff.mp h
  have hentity : (ofText raw).entity = some name :=
    Option.or_eq_some_iff.mpr (Or.inl (Option.map_eq_some_iff.mpr ⟨_, hnamed, rfl⟩))
  obtain ⟨clause, hclause, hread⟩ := Option.bind_eq_some_iff.mp hnamed
  have hexcerpt : Excerpt w (stretch clause) := (excerpt_of_readEntity hread).2 w hidentifier
  exact ⟨excerpt_of_stretch (Clauses.isInfix_first? hclause) hexcerpt, by simp [hentity]⟩

theorem filters_ne_nil {filters : List Filter} (h : (ofText raw).filters = some filters) :
    filters ≠ [] := by
  obtain ⟨clause, -, hread⟩ := Option.bind_eq_some_iff.mp h
  rw [readFilters] at hread
  split at hread
  · cases hread
  · next hne => exact Option.some.inj hread ▸ hne

/-- **Every filter that is read is well formed.** -/
theorem wellFormed_of_mem_filterList {f : Filter} (h : f ∈ (ofText raw).filterList) :
    f.WellFormed raw := by
  have hfield := excerpt_of_mem_filterList h
  obtain ⟨group, -, hamong, rfl⟩ := exists_group_of_mem_filterList h
  rcases Filter.ofTokens_cases group with ⟨t, u, value, op, rfl, ht, hu⟩ | hgroup
  · rw [Filter.ofTokens_of_operator ht hu] at hfield ⊢
    refine ⟨hfield, fun _ => rfl, fun _ => ?_, fun v hv => ?_⟩
    · rw [isIdentifier, Bool.and_eq_true, List.all_eq_true] at ht
      exact ht.2
    · obtain ⟨hvalue, hv⟩ := Option.ite_none_left_eq_some.mp hv
      rw [← Option.some.inj hv]
      refine excerpt_stretch ?_ (List.IsInfix.trans ⟨[t, u], [], by simp⟩ hamong)
      rintro rfl
      exact hvalue rfl
  · rw [hgroup] at hfield ⊢
    refine ⟨hfield, fun hvalue => ?_, fun hoperator => ?_, fun v hv => ?_⟩
    · cases hvalue
    · cases hoperator
    · cases hv

/-- The name of a chain is an item of a list, in lower case. -/
theorem solid_of_mem_chainList {name : Text} (h : name ∈ (ofText raw).chainList) :
    Solid name ∧ ',' ∉ name := by
  obtain ⟨w, hw, hcomma, rfl⟩ := excerpt_of_mem_chainList h
  have hne : ∀ c ∈ w, c ≠ ',' := fun c hc hc' => hcomma (hc' ▸ hc)
  exact ⟨hw.solid.lower, fun hmem => forall_mem_lower (fun _ _ hd => hd) hne ',' hmem rfl⟩

theorem excerpt_of_dump {file : Text} (h : (ofText raw).dump = some file) : Excerpt file raw := by
  obtain ⟨clause, hclause, hread⟩ := Option.bind_eq_some_iff.mp h
  exact excerpt_of_stretch (Clauses.isInfix_first? hclause) (excerpt_of_nonempty?_trim hread)

/-- **Every query that is read is well formed**, whatever the text. -/
theorem wellFormed_ofText (raw : Text) : (ofText raw).WellFormed raw where
  entity _ h := word_of_entity h
  identifier _ h := excerpt_of_identifier h
  opening := opening_isPrefix_trim
  fields _ h := excerpt_of_mem_fieldList h
  filters_ne_nil h := filters_ne_nil h rfl
  filters _ h := wellFormed_of_mem_filterList h
  chains_ne_nil h := chains_ne_nil h rfl
  chains _ h := solid_of_mem_chainList h
  dump _ h := excerpt_of_dump h

end Query

end ChainQuery
