import ChainQuery.Suggestion.Completion
import ChainQuery.Proofs.Query.Judgement
import ChainQuery.Proofs.Query.Vocabulary

/-!
# What is offered, and when

For each of the clauses in which a text may end, this file says what the suggestions for it can
offer, and in which situations. Nothing is said here about *why* a query is in such a situation;
the query and the text are arbitrary, and need not even belong together.

| clause | what is offered | by |
|---|---|---|
| `GET` | `FROM`, the wildcard, or fields | `ChainQuery.Suggestion.offered_forFields` |
| `FROM` | entities, or what follows one | `ChainQuery.Suggestion.offered_forEntity` |
| `WHERE` | `ON`, fields of filters, or operators | `ChainQuery.Suggestion.offered_forFilters` |
| `ON` | `>>`, or chains | `ChainQuery.Suggestion.offered_forChains` |
-/

namespace ChainQuery

open Text

namespace Suggestion

/-! ### Offers -/

/-- Some suggestion offers the text. -/
def Offered (suggestions : List Suggestion) (t : Text) : Prop := ∃ s ∈ suggestions, t ∈ s.offers

@[simp] theorem offered_words {list : List Text} {t : Text} : Offered (words list) t ↔ t ∈ list := by
  simp [Offered, words, offers]

@[simp] theorem not_offered_nil (t : Text) : ¬Offered [] t := by simp [Offered]

theorem offered_cons {s : Suggestion} {suggestions : List Suggestion} {t : Text} :
    Offered (s :: suggestions) t ↔ t ∈ s.offers ∨ Offered suggestions t := by
  simp [Offered]

theorem offered_append {l l' : List Suggestion} {t : Text} :
    Offered (l ++ l') t ↔ Offered l t ∨ Offered l' t := by
  simp [Offered, or_and_right, exists_or]

variable {q : Query} {raw t : Text} {l : List Suggestion}

/-! ### After `GET` -/

theorem offered_flattenSingle : Offered (flattenSingle l) t ↔ Offered l t := by
  unfold flattenSingle
  split
  · simp [Offered, words, offers]
  · rfl

theorem offered_featuredGroups (h : Offered featuredGroups t) :
    t = wildcard ∨ ∃ e : Entity, t ∈ e.fields := by
  rw [featuredGroups, offered_cons] at h
  rcases h with h | ⟨s, hs, ht⟩
  · exact Or.inl (by simpa [offers] using h)
  · obtain ⟨e, -, rfl⟩ := List.mem_map.mp hs
    exact Or.inr ⟨e, Entity.mem_fields_of_mem_featured ht⟩

theorem offered_candidateGroups {before : List Text} {last : Text} {narrow : Bool}
    (h : Offered (candidateGroups before last narrow) t) :
    t = wildcard ∨ ∃ e : Entity, t ∈ e.fields := by
  rw [candidateGroups, offered_append] at h
  rcases h with h | ⟨s, hs, ht⟩
  · split at h
    · exact Or.inl (by simpa [Offered, offers] using h)
    · exact absurd h (not_offered_nil t)
  · obtain ⟨e, -, he⟩ := List.mem_filterMap.mp hs
    rw [featuredGroup?] at he
    obtain ⟨-, hs⟩ := Option.ite_none_right_eq_some.mp he
    rw [← Option.some.inj hs] at ht
    exact Or.inr ⟨e, Entity.mem_fields_of_mem_featured (List.mem_filter.mp ht).1⟩

/-- **After `GET`** there are offered `FROM`, the wildcard and fields – fields of the entity, if
one is known. -/
theorem offered_forFields (h : Offered (forFields q raw) t) :
    t = Keyword.entity.text ∨
      fieldsSettled raw = false ∧ (t = wildcard ∨ (∃ e, q.knownEntity? = some e ∧ t ∈ e.fields) ∨
        (q.knownEntity? = none ∧ ∃ e : Entity, t ∈ e.fields)) := by
  rw [forFields.eq_def] at h
  split at h
  · exact Or.inl (by simpa using h)
  split at h
  · exact Or.inl (by simpa using h)
  split at h
  · exact absurd h (not_offered_nil t)
  next hsettled =>
    refine Or.inr ⟨by simpa using hsettled, ?_⟩
    cases hknown : q.knownEntity? with
    | some e =>
      rw [hknown] at h
      refine Or.inr (Or.inl ⟨e, rfl, ?_⟩)
      exact (List.mem_filter.mp (List.mem_filter.mp (offered_words.mp h)).1).1
    | none =>
      rw [hknown] at h
      have hgroups : t = wildcard ∨ ∃ e : Entity, t ∈ e.fields := by
        cases hlast : q.fieldList.getLast? with
        | none =>
          rw [hlast] at h
          exact offered_featuredGroups h
        | some last =>
          rw [hlast] at h
          exact offered_candidateGroups (offered_flattenSingle.mp h)
      exact hgroups.imp_right fun ht => Or.inr ⟨rfl, ht⟩

/-! ### After `FROM` -/

/-- The entities that are offered while there is none. -/
theorem mem_openEntities (h : t ∈ openEntities q raw) :
    ∃ e : Entity, t = e.name ∧
      (q.hasWildcard = true ∨ ∀ x ∈ q.fieldList, x ∈ e.fields) := by
  have hall : ∀ fields, q.fields = some fields → q.fieldList = fields := by
    intro fields hfields
    rw [Query.fieldList, hfields]
    rfl
  rw [openEntities.eq_def] at h
  cases hfields : q.fields.filter fun _ => !q.hasWildcard with
  | some fields =>
    rw [hfields] at h
    obtain ⟨hsome, -⟩ := Option.filter_eq_some_iff.mp hfields
    obtain ⟨e, he, rfl⟩ := List.mem_map.mp h
    refine ⟨e, rfl, Or.inr ?_⟩
    rw [hall fields hsome]
    simpa [Entity.hasField] using (List.mem_filter.mp he).2
  | none =>
    rw [hfields] at h
    obtain ⟨e, -, rfl⟩ := List.mem_map.mp (List.mem_filter.mp h).1
    refine ⟨e, rfl, ?_⟩
    cases hq : q.fields with
    | none => exact Or.inr (by simp [Query.fieldList, hq])
    | some fields =>
      rw [hq, Option.filter_eq_none_iff] at hfields
      exact Or.inl (by simpa using hfields)

/-- The keywords that may follow the clause of an entity are two. -/
theorem mem_nextClauses {e : Entity} (h : t ∈ nextClauses e raw) :
    t = Keyword.filters.text ∨ t = Keyword.chains.text := by
  rw [nextClauses] at h
  split at h
  · exact Or.inr (by simpa using h)
  · simpa using (List.mem_filter.mp h).1

/-- **After `FROM`** there are offered entities that fit, as long as none is known; once one is
known, hints, its name, and the keywords that may follow. -/
theorem offered_forEntity (h : Offered (forEntity q raw) t) :
    (q.knownEntity? = none ∧ t ∈ openEntities q raw) ∨
      ∃ e, q.knownEntity? = some e ∧
        ((atIdentifier e raw = true ∧ t ∈ e.hints) ∨
          (atIdentifier e raw = false ∧ Cursor.lastWord raw = Keyword.entity.text ∧ t = e.name) ∨
          ((entitySettled raw || mayBecomeNextClause raw) = true ∧
            (t = Keyword.filters.text ∨ t = Keyword.chains.text))) := by
  rw [forEntity.eq_def] at h
  cases hknown : q.knownEntity? with
  | none =>
    rw [hknown] at h
    exact Or.inl ⟨rfl, offered_words.mp h⟩
  | some e =>
    rw [hknown] at h
    refine Or.inr ⟨e, rfl, ?_⟩
    dsimp only at h
    split at h
    next hat => exact Or.inl ⟨hat, offered_words.mp h⟩
    next hat =>
      split at h
      next hlast => exact Or.inr (Or.inl ⟨by simpa using hat, hlast, by simpa using h⟩)
      next =>
        split at h
        next hsettled => exact Or.inr (Or.inr ⟨hsettled, mem_nextClauses (offered_words.mp h)⟩)
        next => exact absurd h (not_offered_nil t)

/-! ### After `WHERE` -/

/-- **After `WHERE`** there are offered `ON`; fields of filters that the last filter may become;
the operators of a field behind which a space stands; and fields of filters where the last filter
asks for nothing more. -/
theorem offered_forFilters {e : Entity} (hq : q.knownEntity? = some e)
    (hl : forFilters q raw = .ok l) (h : Offered l t) :
    t = Keyword.chains.text ∨
      (t ∈ e.filterFields ∧ ∃ f, q.filterList.getLast? = some f ∧ isUnmatched e f = true ∧
        f.field <+: t) ∨
      (∃ op : Operator, t = op.text ∧ Cursor.atSpace raw = true ∧
        ∃ f, q.filterList.getLast? = some f ∧ f.value = none ∧ awaitsValue raw = false) ∨
      (t ∈ e.filterFields ∧ awaitsValue raw = false ∧ ∀ f, q.filterList.getLast? = some f →
        isUnmatched e f = false ∧ (Cursor.atSpace raw = true → f.value ≠ none)) := by
  rw [forFilters.eq_def, hq] at hl
  dsimp only at hl
  -- the questions are asked in this order, and a later one knows the answers to the earlier
  split at hl
  next =>
    cases hl
    exact Or.inl (by simpa using h)
  split at hl
  next =>
    cases hl
    exact absurd h (not_offered_nil t)
  split at hl
  next f hf =>
    cases hl
    obtain ⟨hlast, hun⟩ := Option.filter_eq_some_iff.mp hf
    obtain ⟨hmem, hbegin⟩ := List.mem_filter.mp (offered_words.mp h)
    exact Or.inr (Or.inl ⟨hmem, f, hlast, hun, by simpa [beginsWith] using hbegin⟩)
  next hun =>
    split at hl
    next =>
      cases hl
      exact absurd h (not_offered_nil t)
    next hawaits =>
      have hawaits : awaitsValue raw = false := by simpa using hawaits
      split at hl
      next f hf =>
        obtain ⟨hlast, hspace⟩ := Option.filter_eq_some_iff.mp hf
        rw [Bool.and_eq_true, Option.isNone_iff_eq_none] at hspace
        split at hl
        next rule hrule =>
          cases hl
          obtain ⟨op, -, rfl⟩ := List.mem_map.mp (offered_words.mp h)
          exact Or.inr (Or.inr (Or.inl ⟨op, rfl, hspace.1, f, hlast, hspace.2, hawaits⟩))
        next => cases hl
      next hnone =>
        cases hl
        refine Or.inr (Or.inr (Or.inr ⟨(List.mem_filter.mp (offered_words.mp h)).1, hawaits, ?_⟩))
        intro f hlast
        rw [hlast, Option.filter_eq_none_iff] at hun hnone
        refine ⟨by simpa using hun f rfl, fun hspace hvalue => ?_⟩
        exact hnone f rfl (by simp [hspace, hvalue])

/-! ### After `ON` -/

/-- **After `ON`** there are offered `>>` and chains. -/
theorem offered_forChains (h : Offered (forChains q raw) t) :
    t = Keyword.dump.text ∨ t ∈ chains := by
  rw [forChains] at h
  split at h
  · exact Or.inl (by simpa using h)
  split at h
  · exact Or.inr (offered_words.mp h)
  split at h
  · exact absurd h (not_offered_nil t)
  · have hmem := (List.mem_filter.mp (List.mem_filter.mp (offered_words.mp h)).1).1
    exact Or.inr (List.mem_filter.mp hmem).1

/-! ### At the end of a text -/

/-- A text that is judged without fault and does not end in a keyword is answered by the clause in
which it ends. -/
theorem complete_of_judge (h : Query.judge raw = .ok (Query.ofText raw))
    (hword : Keyword.isKeyword (Cursor.fragment raw) = false) :
    complete raw = forQuery (Query.ofText raw) raw := by
  rw [complete, h]
  dsimp only
  rw [hword]
  rfl

/-- Every other text has no suggestions. -/
theorem complete_cases (raw : Text) :
    complete raw = .ok [] ∨
      Query.judge raw = .ok (Query.ofText raw) ∧ Keyword.isKeyword (Cursor.fragment raw) = false ∧
        complete raw = forQuery (Query.ofText raw) raw := by
  cases hjudge : Query.judge raw with
  | error d => exact Or.inl (by rw [complete, hjudge])
  | ok q =>
    obtain rfl := Query.eq_ofText_of_judge hjudge
    cases hword : Keyword.isKeyword (Cursor.fragment raw) with
    | true =>
      refine Or.inl ?_
      rw [complete, hjudge]
      dsimp only
      rw [hword]
      rfl
    | false => exact Or.inr ⟨rfl, rfl, complete_of_judge hjudge hword⟩

/-- Something is offered only if the text is judged without fault and does not end in a
keyword. -/
theorem forQuery_of_offered (hl : complete raw = .ok l) (h : Offered l t) :
    Keyword.isKeyword (Cursor.fragment raw) = false ∧
      forQuery (Query.ofText raw) raw = .ok l := by
  rcases complete_cases raw with hnil | ⟨-, hword, hquery⟩
  · rw [hl] at hnil
    cases hnil
    exact absurd h (not_offered_nil t)
  · exact ⟨hword, hquery ▸ hl⟩

end Suggestion

end ChainQuery
