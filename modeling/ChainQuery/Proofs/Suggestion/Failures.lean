import ChainQuery.Proofs.Suggestion.Offers
import ChainQuery.Proofs.Typing.Soundness

/-!
# When suggestions cannot be made

Suggestions are a service to someone who is typing, and nearly always there is an answer, if only
that nothing is suggested. They fail in **one** situation: filters are being typed, and there is no
entity that could have any (`ChainQuery.complete_eq_error_iff`).

A second failure could be expected, of an operator that is asked for behind a field that is no
filter of the entity. It does not occur. Operators are asked for behind a space, behind a space the
text is judged, and judgement lets no filter pass that the entity does not have
(`ChainQuery.Typing.welcome_of_judge`).

Nothing is suggested while a keyword is being typed, whatever the clause may be. What is being typed
is the text **after the last space** (`ChainQuery.Cursor.fragment_eq_iff`).
-/

namespace ChainQuery

open Text

/-! ### The word that is being typed -/

/-- **The word that is being typed is the text after the last space.** -/
theorem Cursor.fragment_eq_iff {raw w : Text} : fragment raw = w ↔ IsAfterLast ' ' w raw :=
  getLastD_pieces_eq_iff

/-- The last word of a text is what stands behind the last space of its trimmed form. -/
theorem Cursor.lastWord_eq_iff {raw w : Text} : lastWord raw = w ↔ IsAfterLast ' ' w (trim raw) :=
  getLastD_pieces_eq_iff

theorem Cursor.isKeyword_fragment_eq_false_iff {raw : Text} :
    Keyword.isKeyword (fragment raw) = false ↔ ∀ k : Keyword, ¬IsAfterLast ' ' k.text raw := by
  rw [← Bool.not_eq_true, Keyword.isKeyword_iff, not_exists]
  exact forall_congr' fun k => not_congr (eq_comm.trans fragment_eq_iff)

/-! ### The failure -/

variable {raw : Text}

/-- Where no entity is known, suggestions for filters fail. -/
theorem Suggestion.forQuery_eq_error_of_none {q : Query} (hlast : q.lastKeyword = some .filters)
    (hnone : q.knownEntity? = none) : forQuery q raw = .error (.missingEntity .filters) := by
  rw [forQuery, hlast]
  dsimp only
  rw [forFilters.eq_def, hnone]

/-- What is known where suggestions fail. -/
theorem Suggestion.missingEntity_of_complete {failure : Failure} (h : complete raw = .error failure) :
    failure = .missingEntity .filters ∧ Query.judge raw = .ok (Query.ofText raw) ∧
      Keyword.isKeyword (Cursor.fragment raw) = false ∧
      (Query.ofText raw).lastKeyword = some .filters ∧ (Query.ofText raw).knownEntity? = none := by
  obtain ⟨hjudge, hword, hquery⟩ := (complete_cases raw).resolve_left (by simp [h])
  rw [h] at hquery
  -- with an entity, or in another clause, there would be suggestions
  have hnamed : ¬Typing.Named (Query.ofText raw) := by
    intro hnamed
    obtain ⟨-, suggestions, hsome⟩ := Typing.welcome_of_judge hjudge hnamed
    rw [h] at hsome
    cases hsome
  obtain ⟨hlast, hunknown⟩ := Classical.not_imp.mp hnamed
  have hnone : (Query.ofText raw).knownEntity? = none := by
    rwa [← Option.isSome_iff_exists, Option.not_isSome_iff_eq_none] at hunknown
  rw [forQuery_eq_error_of_none hlast hnone] at hquery
  exact ⟨Except.error.inj hquery, hjudge, hword, hlast, hnone⟩

/-- **Suggestions fail in one situation, and in one way**: the text is judged without fault, the
word after its last space is no keyword, filters are being typed, and no entity is named, or none
that exists. In particular it never happens that a filter is not known. -/
theorem complete_eq_error_iff (raw : Text) :
    (∀ failure, complete raw = .error failure ↔
      failure = .missingEntity .filters ∧
        ∃ q, Query.read raw true = .ok q ∧ (∀ k : Keyword, ¬IsAfterLast ' ' k.text raw) ∧
          q.lastKeyword = some .filters ∧ ∀ e : Entity, q.entity ≠ some e.name) ∧
    ∀ e field, complete raw ≠ .error (.unknownFilter e field) := by
  refine ⟨fun failure => ⟨fun h => ?_, ?_⟩, fun e field h => ?_⟩
  · obtain ⟨hfailure, hjudge, hword, hlast, hnone⟩ := Suggestion.missingEntity_of_complete h
    exact ⟨hfailure, _, hjudge, Cursor.isKeyword_fragment_eq_false_iff.mp hword, hlast,
      Query.knownEntity?_eq_none_iff.mp hnone⟩
  · rintro ⟨rfl, q, hread, hword, hlast, hentity⟩
    obtain rfl := Query.eq_ofText_of_judge hread
    rw [Suggestion.complete_of_judge hread (Cursor.isKeyword_fragment_eq_false_iff.mpr hword)]
    exact Suggestion.forQuery_eq_error_of_none hlast (Query.knownEntity?_eq_none_iff.mpr hentity)
  · cases (Suggestion.missingEntity_of_complete h).1

end ChainQuery
