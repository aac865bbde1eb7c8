import ChainQuery.Proofs.Suggestion.Offers
import ChainQuery.Proofs.Typing.HeadOffers

/-!
# What is offered behind the name of the entity

Behind the entity, and in the value of a filter, any plain word may stand, so nothing has to be
known of what is offered there. In a filter that has no value yet it matters how far the filter has
come, since a field may be followed by an operator only and an operator by a value:

* while the **field** is being typed, no operator is offered, for there is none behind a space;
* while the **operator** is being typed, no field is offered: behind a sign a value is awaited,
  and before it the field is no beginning of another.

Keywords may stand behind every sound stem.
-/

namespace ChainQuery

open Text Token Grammar Suggestion

namespace Typing

variable {e : Entity} {s w t : Text} {l : List Suggestion}

/-- A word is a keyword, or it is quiet. -/
theorem keyword_or_quiet (hw : ∀ c ∈ w, isBlank c = false) :
    (∃ k : Keyword, k ≠ .fields ∧ w = k.text) ∨ Text.Quiet w := by
  by_cases hk : ∃ k : Keyword, k ≠ .fields ∧ w = k.text
  · exact Or.inl hk
  · exact Or.inr (quiet_of_no_blank hw fun k hne hcon => hk ⟨k, hne, hcon⟩)

/-- The word that is being typed is empty if the text ends in a space. -/
theorem eq_nil_of_atSpace (hw : ' ' ∉ w) (h : Cursor.atSpace (s ++ w) = true) : w = [] := by
  by_contra hne
  exact not_stem_append hne hw (atSpace_iff.mp h)

section Filters

variable {done : List Comparison} {c : Comparison}

/-- Where filters are being typed, what is offered is offered for the filters that are read. -/
theorem forFilters_of_offered (hs : Ready e [.filters, .chains] s) {list : Text}
    (hlist : Text.Quiet list) (hl : complete (s ++ (Keyword.filters.text ++ ' ' :: list)) = .ok l)
    (ht : Offered l t) :
    ∃ q : Query, q.knownEntity? = some e ∧ q.filterList = list.filters ∧
      forFilters q (s ++ (Keyword.filters.text ++ ' ' :: list)) = .ok l := by
  obtain ⟨-, hquery⟩ := forQuery_of_offered hl ht
  refine ⟨Query.ofText (s ++ (Keyword.filters.text ++ ' ' :: list)), ?_,
    hs.filterList_filters (by simp) hlist, ?_⟩
  · rw [hs.ofText_filters (by simp) hlist]
    exact hs.fits.knownEntity?
  · have hlast : (Query.ofText (s ++ (Keyword.filters.text ++ ' ' :: list))).lastKeyword =
        some .filters := by
      rw [hs.ofText_filters (by simp) hlist]
    rw [forQuery, hlast] at hquery
    exact hquery

/-- `ON` may be put behind filters, wherever they end in a space. -/
theorem sound_chains_behind {b : Text} (hb : b = [] ∨ Stem b)
    (h : Sound (s ++ (Keyword.filters.text ++ ' ' :: (closedFilters done ++ b)))) :
    Sound (s ++ (Keyword.filters.text ++ ' ' :: (closedFilters done ++ b)) ++
      Keyword.chains.text ++ [' ']) :=
  (h.append_keyword (stem_filters s hb) (by simp) (by simp)).append_blank blank_space

/-! ### The field of a filter -/

/-- **What is offered in the place of the field of a filter can be put there.** -/
theorem sound_of_offered_filter (hs : Ready e [.filters, .chains] s)
    (hdone : ∀ d ∈ done, d.Fits e) {x : Text} (hx : x ∈ e.filterFields) (hw : w <+: x)
    (hl : complete (s ++ (Keyword.filters.text ++ ' ' :: closedFilters done) ++ w) = .ok l)
    (ht : Offered l t) :
    Sound (s ++ (Keyword.filters.text ++ ' ' :: closedFilters done) ++ t ++ [' ']) := by
  have hword := isTableWord_of_mem_filterFields x hx
  have hprefix : w <+: x ++ [','] := hw.trans (List.prefix_append _ _)
  have hspace : ' ' ∉ w := hword.notMem_space_of_isPrefix hprefix
  have hquiet := quiet_closedFilters_append hdone (hword.quiet_of_isPrefix hprefix)
  have hraw : s ++ (Keyword.filters.text ++ ' ' :: closedFilters done) ++ w =
      s ++ (Keyword.filters.text ++ ' ' :: (closedFilters done ++ w)) := by simp
  have hfield (hmem : t ∈ e.filterFields) :
      Sound (s ++ (Keyword.filters.text ++ ' ' :: closedFilters done) ++ t ++ [' ']) := by
    have hsound := (fits_field hs hdone hmem).sound (hs.opens_append _)
    simpa using hsound.append_blank blank_space
  obtain ⟨q, hknown, hlist, hfor⟩ := forFilters_of_offered hs hquiet (hraw ▸ hl) ht
  rcases offered_forFilters hknown hfor ht with
    rfl | ⟨hmem, -⟩ | ⟨op, rfl, hat, f, hf, hvalue, -⟩ | ⟨hmem, -⟩
  · have hfits := fits_closedFilters hs hdone (quiet_of_blank blank_nil) (by simp)
    simpa using sound_chains_behind (Or.inl rfl) (hfits.sound (hs.opens_append _))
  · exact hfield hmem
  · -- behind a space stands nothing but finished filters, and they have values
    obtain rfl := eq_nil_of_atSpace hspace (hraw ▸ hat)
    rw [hlist, filters_closedFilters_append hdone, filters_nil, List.append_nil] at hf
    obtain ⟨d, -, rfl⟩ := List.mem_map.mp (List.mem_of_getLast? hf)
    cases hvalue
  · exact hfield hmem

/-! ### The operator of a filter -/

/-- What is no comparison is kept as it was typed. -/
theorem operator_or_field (group : List Token) :
    (Filter.ofTokens group).operator ≠ none ∨
      (Filter.ofTokens group).field = Token.stretch group := by
  rcases Filter.ofTokens_cases group with ⟨t, u, value, op, rfl, ht, hu⟩ | hgroup
  · rw [Filter.ofTokens_of_operator ht hu]
    exact Or.inl (by simp)
  · exact Or.inr (by rw [hgroup])

/-- A field behind which a word has been begun is no beginning of a field. -/
theorem filters_begun (hc : IsField c.field) (hne : w ≠ []) (hblank : ∀ d ∈ w, isBlank d = false)
    (hcomma : ',' ∉ w) :
    ∃ f : Filter, (c.field ++ ' ' :: w).filters = [f] ∧ (f.operator ≠ none ∨ ' ' ∈ f.field) := by
  have hcomma' : ',' ∉ c.field ++ ' ' :: w := by
    intro hmem
    rcases List.mem_append.mp hmem with hmem | hmem
    · exact absurd (hc.identifier ',' hmem) (by decide)
    · exact hcomma (by simpa using hmem)
  have hnot : ¬Blank (c.field ++ ' ' :: w) := fun hcon =>
    hc.isWord.solid.not_blank (blank_append.mp hcon).1
  have hsolid : Solid (c.field ++ ' ' :: w) := by
    obtain ⟨d, u, hu, hd⟩ := hc.isWord.solid.head
    obtain ⟨v, d', hv, hd'⟩ := (solid_of_no_blank hne hblank).last
    exact ⟨⟨d, u ++ ' ' :: w, by rw [hu]; rfl, hd⟩, ⟨c.field ++ ' ' :: v, d', by rw [hv]; simp, hd'⟩⟩
  refine ⟨_, filters_of_sheltered (sheltered_of_not_mem hcomma') hnot, ?_⟩
  refine (operator_or_field _).imp_right fun hfield => ?_
  rw [hfield, stretch_lexemes, hsolid.trim]
  simp

/-- The filter of which the operator is being typed: a field alone, or something that is no
beginning of a field. -/
theorem filters_field_operator (hc : IsField c.field) (hw : w <+: c.operator.text) :
    (w = [] ∧ (c.field ++ ' ' :: w).filters = [⟨c.field, none, none⟩]) ∨
      (w ≠ [] ∧ ∃ f : Filter, (c.field ++ ' ' :: w).filters = [f] ∧
        (f.operator ≠ none ∨ ' ' ∈ f.field)) := by
  by_cases hne : w = []
  · refine Or.inl ⟨hne, ?_⟩
    rw [hne, filters_append_blank _ blank_space, filters_identifier hc]
  · have hcomma : ',' ∉ w := fun hmem => c.operator.plain_text.no_comma (hw.subset hmem)
    exact Or.inr ⟨hne, filters_begun hc hne (no_blank_of_prefix_operator hw) hcomma⟩

/-- Behind a sign a value is awaited. -/
theorem awaitsValue_of_operator {op : Operator} (hne : w ≠ []) (hw : w <+: op.text) (s : Text) :
    awaitsValue (s ++ w) = true := by
  have hblank := no_blank_of_prefix_operator hw
  obtain ⟨u, d, rfl⟩ := (List.eq_nil_or_concat' w).resolve_left hne
  have hsign : Operator.isSign d = true :=
    List.all_eq_true.mp op.all_isSign_text d (hw.subset (by simp))
  have hd : isBlank d = false := hblank d (by simp)
  rw [awaitsValue, ← List.append_assoc, trimEnd_of_last hd, lastIs, List.getLast?_concat,
    Option.any_some, hsign]

/-- A field that has been finished, or behind which something stands, does not become a field. -/
theorem not_begun (hfield : c.field ∈ e.filterFields) {f : Filter} (hun : isUnmatched e f = true)
    (ht : t ∈ e.filterFields) (hbegin : f.field <+: t) :
    f ≠ ⟨c.field, none, none⟩ ∧ ¬(f.operator ≠ none ∨ ' ' ∈ f.field) := by
  rw [isUnmatched, Bool.and_eq_true, Bool.and_eq_true] at hun
  constructor
  · rintro rfl
    have hrule := Query.isSome_filterRule?_iff.mpr hfield
    rw [Option.isNone_iff_eq_none.mp hun.2] at hrule
    cases hrule
  · rintro (hop | hspace)
    · exact hop (Option.isNone_iff_eq_none.mp hun.1.1)
    · have hplain := Entity.plain_of_mem_filterFields t ht
      exact absurd (hplain.no_blank ' ' (hbegin.subset hspace)) (by decide)

/-- **What is offered in the place of an operator can be put there.** -/
theorem sound_of_offered_operator (hs : Ready e [.filters, .chains] s)
    (hdone : ∀ d ∈ done, d.Fits e) (hc : c.Fits e) (hw : w <+: c.operator.text)
    (hl : complete (s ++ (Keyword.filters.text ++
      ' ' :: (closedFilters done ++ (c.field ++ [' ']))) ++ w) = .ok l)
    (ht : Offered l t) :
    Sound (s ++ (Keyword.filters.text ++ ' ' :: (closedFilters done ++ (c.field ++ [' ']))) ++ t ++
      [' ']) := by
  have hfield := isField_of_mem_filterFields _ hc.field
  have hquiet : Text.Quiet (closedFilters done ++ (c.field ++ ' ' :: w)) :=
    quiet_closedFilters_append hdone (quiet_field_operator hfield hw)
  have hraw : s ++ (Keyword.filters.text ++ ' ' :: (closedFilters done ++ (c.field ++ [' ']))) ++ w =
      s ++ (Keyword.filters.text ++ ' ' :: (closedFilters done ++ (c.field ++ ' ' :: w))) := by simp
  obtain ⟨q, hknown, hlist, hfor⟩ := forFilters_of_offered hs hquiet (hraw ▸ hl) ht
  rw [filters_closedFilters_append hdone] at hlist
  have hlast {f : Filter} (hread : (c.field ++ ' ' :: w).filters = [f]) :
      q.filterList.getLast? = some f := by
    rw [hlist, hread, List.getLast?_concat]
  rcases offered_forFilters hknown hfor ht with
    rfl | ⟨hmem, f, hf, hun, hbegin⟩ | ⟨op, rfl, hat, -⟩ | ⟨hmem, hawaits, hothers⟩
  · have hsound := ((fits_field hs hdone hc.field).sound (hs.opens_append _)).append_blank
      blank_space
    exact sound_chains_behind (Or.inr (stem_concat _)) (by simpa using hsound)
  · exfalso
    obtain ⟨hfinished, hbegun⟩ := not_begun hc.field hun hmem hbegin
    rcases filters_field_operator hfield hw with ⟨-, hread⟩ | ⟨-, f', hread, hf'⟩
    · rw [hlast hread, Option.some.injEq] at hf
      exact hfinished hf.symm
    · rw [hlast hread, Option.some.injEq] at hf
      exact hbegun (hf ▸ hf')
  · have hsound := (fits_operator hs hdone hc.field op).sound (hs.opens_append _)
    simpa using hsound.append_blank blank_space
  · -- behind a space the operator is missing, and behind a sign the value is
    exfalso
    rcases filters_field_operator hfield hw with ⟨rfl, hread⟩ | ⟨hne, -⟩
    · have hend : Cursor.atSpace (s ++ (Keyword.filters.text ++
          ' ' :: (closedFilters done ++ (c.field ++ [' '])))) = true :=
        atSpace_iff.mpr (stem_filters s (Or.inr (stem_concat _)))
      exact (hothers _ (hlast hread)).2 hend rfl
    · rw [← hraw, awaitsValue_of_operator hne hw] at hawaits
      cases hawaits

/-! ### The value of a filter -/

/-- **Any plain word can be put into a value**, or behind it. -/
theorem sound_of_plain_value (hs : Ready e [.filters, .chains] s)
    (hdone : ∀ d ∈ done, d.Fits e) (hc : c.Fits e) {v : Text} (hv : Text.Quiet v)
    (hstem : v = [] ∨ Stem v) (hsheltered : Sheltered v) (ht : t.Plain) :
    Sound (s ++ (Keyword.filters.text ++
      ' ' :: (closedFilters done ++ (c.field ++ ' ' :: (c.operator.text ++ ' ' :: v)))) ++ t ++
        [' ']) := by
  have hfits := fits_value hs hdone hc hv hsheltered
  refine Sound.append_blank ?_ blank_space
  rcases keyword_or_quiet ht.no_blank with ⟨k, hk, rfl⟩ | hquiet
  · have hend := stem_comparison c hstem
    exact (hfits.sound (hs.opens_append _)).append_keyword (stem_filters s (Or.inr hend)) hk
      fun _ => ⟨e, hfits.knownEntity?⟩
  · have hapart : Apart v t := by
      rcases hstem with rfl | hstem
      · exact apart_nil_left t
      · exact apart_of_blankEnd_ne_nil hstem.blankEnd t
    have hlonger := fits_value hs hdone hc (hv.append hquiet hapart)
      (hsheltered.append_of_not_mem ht.no_comma)
    simpa using hlonger.sound (hs.opens_append _)

end Filters

/-! ### A chain -/

/-- **What is offered in the place of a chain can be put there.** -/
theorem sound_of_offered_chain (hs : Ready e [.chains] s) {done : List Text}
    (hdone : ∀ y ∈ done, y ∈ ChainQuery.chains) {x : Text} (hx : x ∈ ChainQuery.chains)
    (hw : w <+: x ++ [','])
    (hl : complete (s ++ (Keyword.chains.text ++ ' ' :: closed done) ++ w) = .ok l)
    (ht : Offered l t) :
    Sound (s ++ (Keyword.chains.text ++ ' ' :: closed done) ++ t ++ [' ']) := by
  have hwords : ∀ y ∈ done, IsTableWord y := fun y hy => isTableWord_of_mem_chains y (hdone y hy)
  have hquiet := quiet_closed_of_isTableWord hwords
    ((isTableWord_of_mem_chains x hx).quiet_of_isPrefix hw)
  have hraw : s ++ (Keyword.chains.text ++ ' ' :: closed done) ++ w =
      s ++ (Keyword.chains.text ++ ' ' :: (closed done ++ w)) := by simp
  obtain ⟨-, hquery⟩ := forQuery_of_offered hl ht
  have hlast : (Query.ofText (s ++ (Keyword.chains.text ++ ' ' :: closed done) ++ w)).lastKeyword =
      some .chains := by
    rw [hraw, hs.ofText_chains (by simp) hquiet]
  rw [forQuery, hlast] at hquery
  cases hquery
  refine Sound.append_blank ?_ blank_space
  rcases offered_forChains ht with rfl | hmem
  · have hfits := fits_chain hs hdone hx List.nil_prefix
    rw [List.append_nil] at hfits
    exact (hfits.sound (hs.opens_append _)).append_keyword (stem_chains s done) (by simp) (by simp)
  · have hfits := fits_chain hs hdone hmem (List.prefix_append t [','])
    simpa using hfits.sound (hs.opens_append _)

end Typing

end ChainQuery
