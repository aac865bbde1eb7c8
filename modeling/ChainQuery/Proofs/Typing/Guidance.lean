import ChainQuery.Proofs.Typing.StemOffers

/-!
# Suggestions lead to every query

Someone who types a canonical query can be led through it by suggestions. The **words** of the query
that are words of a table and stand behind a space (`ChainQuery.Grammar.Canonical.Next`) are offered
where they begin, each of them (`ChainQuery.Typing.offers_of_next`). Only fields, identifiers and
values have to be typed without being led.

What the suggestions do not do is offer the same thing twice, so a query through which they lead
compares no field twice and asks for no chain twice (`ChainQuery.Grammar.Canonical.Guidable`).
-/

namespace ChainQuery

open Text Token Grammar Suggestion

/-! ### Canonical queries, word by word -/

namespace Grammar

namespace Canonical

/-- **A query through which suggestions lead.** Operators are offered as the tables have them, no
filter and no chain is offered twice, and all chains together only in the place of a list. -/
structure Guidable (c : Canonical) : Prop where
  /-- Every comparison is one that its field admits. -/
  operators : ∀ f ∈ c.filters, ∃ rule ∈ c.entity.filterRules,
    rule.field = f.field ∧ f.operator ∈ rule.operators
  /-- No two filters compare the same field. -/
  filters : (c.filters.map Comparison.field).Nodup
  /-- No chain is asked for twice. -/
  chains : c.chains.Nodup
  /-- The wildcard stands first, if it stands among the chains at all. -/
  wildcard : wildcard ∉ c.chains.tail

/-- A canonical query up to its fields. -/
def headText (c : Canonical) : Text := Query.opening ++ joined c.fields

/-- A canonical query up to its entity and the identifier, with a space behind them. -/
def sourced (c : Canonical) : Text := c.headText ++ clauseText .entity c.sourceText ++ [' ']

/-- A canonical query up to its filters, with a space behind them. -/
def filtered (c : Canonical) : Text :=
  c.headText ++ clauseText .entity c.sourceText ++ c.filterText ++ [' ']

/-- **The words of the tables** that a canonical query has behind a space, each with everything
that stands before it. Fields are not among them. -/
inductive Next (c : Canonical) : Text → Text → Prop
  /-- `FROM` stands behind the fields. -/
  | source : Next c (c.headText ++ [' ']) Keyword.entity.text
  /-- The name of the entity stands behind `FROM`. -/
  | name : Next c (c.headText ++ [' '] ++ (Keyword.entity.text ++ [' '])) c.entity.name
  /-- A filter begins with its field. -/
  | filter {done later : List Comparison} {f : Comparison} (h : c.filters = done ++ f :: later) :
      Next c (c.sourced ++ (Keyword.filters.text ++ ' ' :: closedFilters done)) f.field
  /-- The operator stands behind the field. -/
  | operator {done later : List Comparison} {f : Comparison} (h : c.filters = done ++ f :: later) :
      Next c (c.sourced ++ (Keyword.filters.text ++
        ' ' :: (closedFilters done ++ (f.field ++ [' '])))) f.operator.text
  /-- A chain stands behind others. -/
  | chain {done later : List Text} {x : Text} (h : c.chains = done ++ x :: later) :
      Next c (c.filtered ++ (Keyword.chains.text ++ ' ' :: closed done)) x

variable {c : Canonical} {before t : Text}

theorem text_of_filters (h : c.filters ≠ []) :
    c.text = c.sourced ++ (Keyword.filters.text ++ ' ' :: joined (c.filters.map Comparison.text)) ++
      c.chainText := by
  rw [text, filterText, if_neg h, sourced, headText]
  simp only [clauseText, List.append_assoc, List.cons_append, List.nil_append]

theorem text_of_chains (h : c.chains ≠ []) :
    c.text = c.filtered ++ (Keyword.chains.text ++ ' ' :: joined c.chains) := by
  rw [text, chainText, if_neg h, filtered, headText]
  simp only [clauseText, List.append_assoc, List.cons_append, List.nil_append]

theorem filtered_of_no_filters (h : c.filters = []) : c.filtered = c.sourced := by
  rw [filtered, filterText, if_pos h, List.append_nil, sourced]

theorem filtered_of_filters {done : List Comparison} {f : Comparison}
    (h : c.filters = done ++ [f]) :
    c.filtered = c.sourced ++ (Keyword.filters.text ++
      ' ' :: (closedFilters done ++ (f.text ++ [' ']))) := by
  have hne : c.filters ≠ [] := by simp [h]
  rw [filtered, filterText, if_neg hne, h, Typing.joined_filters_concat, sourced]
  simp only [clauseText, List.append_assoc, List.cons_append, List.nil_append]

/-- A filter stands behind finished ones. -/
theorem isPrefix_of_filters {done later : List Comparison} {f : Comparison}
    (h : c.filters = done ++ f :: later) :
    c.sourced ++ (Keyword.filters.text ++ ' ' :: (closedFilters done ++ f.text)) <+: c.text := by
  obtain ⟨rest, hrest⟩ := isPrefix_joined_cons f.text (later.map Comparison.text)
  rw [text_of_filters (by simp [h]), h, List.map_append, List.map_cons, joined_append_cons, ← hrest]
  exact ⟨rest ++ c.chainText, by simp [closedFilters]⟩

/-- **The words stand in the query** where they are said to stand. -/
theorem Next.isPrefix (h : c.Next before t) : before ++ t <+: c.text := by
  cases h with
  | source =>
    refine ⟨' ' :: c.sourceText ++ c.filterText ++ c.chainText, ?_⟩
    simp [text, headText, clauseText]
  | name =>
    have hsource : c.entity.name <+: c.sourceText := by
      rw [sourceText]
      split
      · exact List.prefix_append _ _
      · exact List.prefix_rfl
    obtain ⟨rest, hrest⟩ := hsource
    refine ⟨rest ++ c.filterText ++ c.chainText, ?_⟩
    simp [text, headText, clauseText, ← hrest]
  | @filter done later f h =>
    refine List.IsPrefix.trans ?_ (isPrefix_of_filters h)
    exact ⟨' ' :: (f.operator.text ++ ' ' :: f.value), by simp [Comparison.text, comparisonText]⟩
  | @operator done later f h =>
    refine List.IsPrefix.trans ?_ (isPrefix_of_filters h)
    exact ⟨' ' :: f.value, by simp [Comparison.text, comparisonText]⟩
  | @chain done later x h =>
    obtain ⟨rest, hrest⟩ := isPrefix_joined_cons t later
    rw [text_of_chains (by simp [h]), h, joined_append_cons, ← hrest]
    exact ⟨rest, by simp⟩

end Canonical

end Grammar

namespace Typing

section Canonical

variable (c : Canonical)

theorem whole_headText : Whole c.entity c.fields c.headText := ⟨c.fields_fit, rfl⟩

/-- Behind the entity a canonical query is ready for filters and chains. -/
theorem ready_sourced : Ready c.entity [.filters, .chains] c.sourced := by
  cases hidentifier : c.identifier with
  | none =>
    have hsplit : c.sourced = withSource c.headText c.entity.name [' '] := by
      rw [Canonical.sourced, Canonical.sourceText, hidentifier]
      simp [withSource, Canonical.clauseText]
    rw [hsplit]
    exact ready_source (whole_headText c) (quiet_of_blank blank_space) (List.suffix_refl _)
      (by simp)
  | some identifier =>
    have hsplit : c.sourced = withSource c.headText c.entity.name (' ' :: identifier ++ [' ']) := by
      rw [Canonical.sourced, Canonical.sourceText, hidentifier]
      simp [withSource, Canonical.clauseText]
    have hquiet : Text.Quiet (' ' :: identifier) :=
      (c.identifier_fits identifier hidentifier).quiet.blank_append blank_space
    rw [hsplit]
    exact ready_source (whole_headText c) (hquiet.append_blank blank_space) (stem_concat _)
      (by simp)

/-- Behind the filters a canonical query is ready for chains. -/
theorem ready_filtered : Ready c.entity [.chains] c.filtered := by
  have hready := ready_sourced c
  rcases List.eq_nil_or_concat' c.filters with hnil | ⟨done, f, hfilters⟩
  · rw [Canonical.filtered_of_no_filters hnil]
    exact ⟨hready.stem, hready.opens, hready.fits, fun k hk =>
      hready.absent k (List.mem_cons_of_mem _ hk)⟩
  · rw [Canonical.filtered_of_filters hfilters]
    refine hready.ready_finished (fun d hd => c.filters_fit d ?_) (c.filters_fit f ?_)
    · simp [hfilters, hd]
    · simp [hfilters]

end Canonical

/-- **Suggestions lead through every canonical query** that says nothing twice: each word of a
table that it has behind a space is offered there. `ON` is offered behind its filters, whether or
not it asks for chains, and `>>` behind its chains. -/
theorem offers_of_next (c : Canonical) (hc : c.Guidable) :
    (∀ before t, c.Next before t → before ++ t <+: c.text ∧ Stem before ∧ Offers before t) ∧
      (c.filters ≠ [] → Offers c.filtered Keyword.chains.text) ∧
      (c.chains ≠ [] → Offers (c.text ++ [' ']) Keyword.dump.text) := by
  refine ⟨fun before t hnext => ⟨hnext.isPrefix, ?_⟩, fun hne => ?_, fun hne => ?_⟩
  · have hfilters := ready_sourced c
    cases hnext with
    | source => exact ⟨stem_concat _, (whole_headText c).offers_from⟩
    | name => exact ⟨(stem_concat Keyword.entity.text).append _, (whole_headText c).offers_name⟩
    | @filter done later f h =>
      have hdone : ∀ d ∈ done, d.Fits c.entity := fun d hd => c.filters_fit d (by simp [h, hd])
      refine ⟨by simpa using stem_filters c.sourced (Or.inl rfl), ?_⟩
      refine hfilters.offers_filter hdone (c.filters_fit f (by simp [h])).field fun d hd heq => ?_
      -- no field is compared twice
      have hnodup := hc.filters
      rw [h, List.map_append, List.map_cons, List.nodup_append] at hnodup
      exact hnodup.2.2 d.field (List.mem_map_of_mem hd) f.field List.mem_cons_self heq
    | @operator done later f h =>
      have hdone : ∀ d ∈ done, d.Fits c.entity := fun d hd => c.filters_fit d (by simp [h, hd])
      obtain ⟨rule, hrule, hfield, hop⟩ := hc.operators f (by simp [h])
      rw [← hfield]
      exact ⟨stem_filters c.sourced (Or.inr (stem_concat _)),
        hfilters.offers_operator hdone hrule hop⟩
    | @chain done later x h =>
      have hdone : ∀ y ∈ done, y ∈ ChainQuery.chains := fun y hy => c.chains_fit y (by simp [h, hy])
      refine ⟨stem_chains c.filtered done,
        (ready_filtered c).offers_chain hdone (c.chains_fit t (by simp [h])) ?_ ?_⟩
      · have hnodup := hc.chains
        rw [h, List.nodup_append] at hnodup
        exact fun hmem => hnodup.2.2 t hmem t List.mem_cons_self rfl
      · -- behind the first chain stands no wildcard
        refine or_iff_not_imp_left.mpr fun hne hwild => hc.wildcard ?_
        rw [h, List.tail_append_of_ne_nil hne, ← hwild]
        simp
  · obtain ⟨done, f, h⟩ := (List.eq_nil_or_concat' c.filters).resolve_left hne
    rw [Canonical.filtered_of_filters h]
    exact (ready_sourced c).offers_on (fun d hd => c.filters_fit d (by simp [h, hd]))
      (c.filters_fit f (by simp [h]))
  · have hoffers := (ready_filtered c).offers_dump hne c.chains_fit
    rw [Canonical.text_of_chains hne]
    simpa using hoffers

/-- A query with a comma in a value, and all chains before another one. -/
theorem offers_behind_value :
    ∃ c : Canonical, c.Guidable ∧
      c.text = "GET hash, nonce FROM tx 0x WHERE value > (1, 2), to != b ON *, eth".toList ∧
      Offers "GET hash, nonce FROM tx 0x WHERE value > (1, 2), ".toList "to".toList ∧
      Offers "GET hash, nonce FROM tx 0x WHERE value > (1, 2), to != b ".toList "ON".toList ∧
      Offers "GET hash, nonce FROM tx 0x WHERE value > (1, 2), to != b ON *, ".toList
        "eth".toList := by
  let c : Canonical :=
    { entity := .transaction
      fields := ["hash".toList, "nonce".toList]
      identifier := some "0x".toList
      filters := [⟨"value".toList, .gt, "(1, 2)".toList⟩, ⟨"to".toList, .ne, "b".toList⟩]
      chains := [wildcard, "eth".toList]
      fields_fit := by decide
      identifier_fits := by decide
      filters_fit := by decide
      chains_fit := by decide }
  have hguidable : c.Guidable := ⟨by decide, by decide, by decide, by decide⟩
  obtain ⟨hnext, hfilters, -⟩ := offers_of_next c hguidable
  have hto : c.filters = [⟨"value".toList, .gt, "(1, 2)".toList⟩] ++
      ⟨"to".toList, .ne, "b".toList⟩ :: [] := rfl
  have heth : c.chains = [wildcard] ++ "eth".toList :: [] := rfl
  exact ⟨c, hguidable, by decide, (hnext _ _ (.filter hto)).2.2, hfilters (by simp [c]),
    (hnext _ _ (.chain heth)).2.2⟩

end Typing

end ChainQuery
