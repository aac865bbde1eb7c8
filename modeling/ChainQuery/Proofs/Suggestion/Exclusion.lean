import ChainQuery.Proofs.Query.LastKeyword
import ChainQuery.Proofs.Suggestion.Failures

/-!
# What has been selected is not offered again

Two lists are typed with the help of suggestions, that of fields and that of chains, and what
stands in them is left out of what is suggested next
(`ChainQuery.Suggestion.not_offered_of_selected`).

It is left out at the last step only, and before it there are steps that leave out nothing. Those
that offer a keyword do no harm: `FROM` is no field, and where `>>` is offered the chains have been
judged, and none of them is `>>`. The one that offers the whole table of chains is the danger. It is
taken where `ON` is the last word, and then nothing has been selected – as long as there is no other
`ON`. For of two clauses of chains the first is read and the second is typed, and a selection that
stands in the first does not hinder an offer in the second.
-/

namespace ChainQuery

open Text Token

/-- **A text whose last word is its last keyword** has nothing behind it. -/
theorem Keyword.DividesLast.eq_nil {k : Keyword} {before after s : Text}
    (h : k.DividesLast before after s) (hword : IsAfterLast ' ' k.text s) : after = [] := by
  have hlength := congrArg List.length h.eq_append
  rcases hword.2 with hs | ⟨v, hs⟩
  · -- the keyword is the whole text, and leaves no room for white space before it
    rw [hs] at hlength
    obtain ⟨c, hc, -⟩ := h.behind_blank
    have hbefore := List.length_pos_of_mem (List.mem_of_getLast? hc)
    simp only [List.length_append] at hlength
    omega
  · have hdivides : k.Divides (v ++ [' ']) [] s :=
      ⟨by simpa using hs, h.ne_fields, ⟨' ', by simp, isBlank_space⟩, by simp⟩
    have hlast := h.last _ hdivides.dividedAt
    rw [hs] at hlength
    simp only [List.length_append, List.length_cons, List.length_nil] at hlength hlast
    exact List.eq_nil_of_length_eq_zero (by omega)

namespace Suggestion

variable {q : Query} {raw t : Text} {l : List Suggestion}

/-! ### Fields -/

theorem mem_unusedFields {e : Entity} {typed : List Text} (h : t ∈ unusedFields e typed) :
    t ∈ e.fields ∧ t ∉ typed := by
  have hmem := List.mem_filter.mp (List.mem_filter.mp h).1
  exact ⟨hmem.1, by simpa using hmem.2⟩

/-- **A field of the known entity that is in the list is not offered.** -/
theorem not_offered_forFields {e : Entity} (hknown : q.knownEntity? = some e) (ht : t ∈ e.fields)
    (htyped : t ∈ q.fieldList) : ¬Offered (forFields q raw) t := by
  have hfrom : t ≠ Keyword.entity.text := by
    rintro rfl
    cases e <;> exact absurd ht (by decide)
  intro h
  rw [forFields.eq_def] at h
  split at h
  · exact hfrom (by simpa using h)
  split at h
  · exact hfrom (by simpa using h)
  split at h
  · exact not_offered_nil t h
  rw [hknown] at h
  exact (mem_unusedFields (offered_words.mp h)).2 htyped

/-! ### Chains -/

theorem mem_unusedChains {typed : List Text} (h : t ∈ unusedChains typed raw) :
    t ≠ wildcard ∧ t ∉ typed := by
  obtain ⟨hmem, htyped⟩ := List.mem_filter.mp h
  have hnamed := (List.mem_filter.mp (List.mem_filter.mp hmem).1).2
  exact ⟨by simpa using hnamed, by simpa using htyped⟩

/-- **Behind a list of chains neither the wildcard nor a chain of the list is offered.** -/
theorem not_offered_forChains (hword : Cursor.lastWord raw ≠ Keyword.chains.text)
    (hdump : Cursor.atPause raw = true → t ≠ Keyword.dump.text)
    (ht : t = wildcard ∨ t ∈ q.chainList) : ¬Offered (forChains q raw) t := by
  intro h
  -- the whole table is offered behind `ON` alone
  rw [forChains, if_neg hword] at h
  split at h
  next hpause =>
    rw [Bool.and_eq_true] at hpause
    exact hdump hpause.2 (by simpa using h)
  split at h
  · exact not_offered_nil t h
  · obtain ⟨hwildcard, htyped⟩ := mem_unusedChains (offered_words.mp h)
    exact ht.elim hwildcard htyped

/-- **Where chains have been read, `ON` is not the last word**, if there is no other `ON`. -/
theorem lastWord_ne_of_chains (hlast : (Query.ofText raw).lastKeyword = some .chains)
    (hcount : (tokenize (trim raw)).countP (fun t => t.keyword? = some .chains) = 1)
    (hchains : (Query.ofText raw).chains ≠ none) :
    Cursor.lastWord raw ≠ Keyword.chains.text := by
  intro hword
  cases (Query.lastKeyword_eq_iff raw _).mp hlast with
  | keyword h =>
    obtain rfl := h.eq_nil (Cursor.lastWord_eq_iff.mp hword)
    have hclause := h.lastClause (trim_trim raw)
    have hread := hclause.ofText_eq (hclause.first?_eq_none (by rwa [trim_trim]))
    rw [Query.ofText_trim] at hread
    rw [hread] at hchains
    exact hchains rfl

/-- **No chain is `>>`** where that is offered: behind a space the chains have been judged. -/
theorem ne_dump_of_mem_chainList (h : Query.judge raw = .ok (Query.ofText raw))
    (hlast : (Query.ofText raw).lastKeyword = some .chains) (hpause : Cursor.atPause raw = true)
    (ht : t ∈ (Query.ofText raw).chainList) : t ≠ Keyword.dump.text := by
  rintro rfl
  rw [Cursor.atPause, Bool.and_eq_true] at hpause
  have hfits := (Typing.conforms_of_atSpace h hlast hpause.1).chains _ ht
  rw [← Query.chainFault?_eq_none_iff] at hfits
  exact absurd hfits (by decide)

/-- **What has been selected is not offered again.** While fields are typed and the entity is known,
no field of it is offered that is in the list. While chains are typed, in the only clause of chains,
and some are there, none of them is offered, and neither is the wildcard. -/
theorem not_offered_of_selected (hq : Query.read raw false = .ok q) (hl : complete raw = .ok l) :
    (∀ e : Entity, q.lastKeyword = some .fields → q.entity = some e.name →
      ∀ field ∈ e.fields, field ∈ q.fieldList → ¬Offered l field) ∧
    (q.lastKeyword = some .chains →
      (tokenize (trim raw)).countP (fun t => t.keyword? = some .chains) = 1 →
      ∀ selected, q.chains = some selected →
        ¬Offered l wildcard ∧ ∀ chain ∈ selected, ¬Offered l chain) := by
  obtain rfl : Query.ofText raw = q := Except.ok.inj hq
  refine ⟨fun e hlast hentity field hfield htyped hoffered => ?_,
    fun hlast hcount selected hselected => ?_⟩
  · have hquery := (forQuery_of_offered hl hoffered).2
    rw [forQuery, hlast] at hquery
    obtain rfl := Except.ok.inj hquery
    exact not_offered_forFields (Query.knownEntity?_eq_some_iff.mpr hentity) hfield htyped hoffered
  · have hword := lastWord_ne_of_chains hlast hcount (by simp [hselected])
    have hlist : (Query.ofText raw).chainList = selected := by
      rw [Query.chainList, hselected]
      rfl
    have hnone : ∀ t, t = wildcard ∨ t ∈ selected → ¬Offered l t := by
      intro t ht hoffered
      rcases complete_cases raw with hnil | ⟨hjudge, -, hquery⟩
      · rw [hl] at hnil
        obtain rfl := Except.ok.inj hnil
        exact not_offered_nil t hoffered
      rw [hl, forQuery, hlast] at hquery
      obtain rfl := Except.ok.inj hquery
      refine not_offered_forChains hword (fun hpause => ?_) (hlist ▸ ht) hoffered
      rcases ht with rfl | ht
      · decide
      · exact ne_dump_of_mem_chainList hjudge hlast hpause (hlist ▸ ht)
    exact ⟨hnone _ (Or.inl rfl), fun chain hchain => hnone chain (Or.inr hchain)⟩

/-- A field that is being typed, and chains that were typed in capitals. -/
theorem not_offered_of_selected_of_lists :
    complete "GET balance, n".toList = .ok (words (texts ["nonce", "chain"])) ∧
      ¬Offered (words (texts ["nonce", "chain"])) "balance".toList ∧
      complete "GET * FROM tx ON ETH, BAS, b".toList = .ok (words (texts ["base", "blast"])) ∧
      ¬Offered (words (texts ["base", "blast"])) wildcard ∧
      ¬Offered (words (texts ["base", "blast"])) "eth".toList := by
  have hfields : complete "GET balance, n".toList = .ok (words (texts ["nonce", "chain"])) := by
    decide +kernel
  have hchains : complete "GET * FROM tx ON ETH, BAS, b".toList =
      .ok (words (texts ["base", "blast"])) := by decide +kernel
  have hbehind := (not_offered_of_selected rfl hchains).2 (by decide +kernel) (by decide +kernel)
    (texts ["eth", "bas", "b"]) (by decide +kernel)
  exact ⟨hfields, (not_offered_of_selected rfl hfields).1 .account (by decide +kernel)
    (by decide +kernel) _ (by decide) (by decide +kernel), hchains, hbehind.1,
    hbehind.2 _ (by decide)⟩

/-- Behind a second `ON`, and white space that is no space, all chains are offered, selected or
not. -/
example : complete "GET * FROM tx ON eth ON\t".toList = .ok (words chains) := by decide +kernel

end Suggestion

end ChainQuery
