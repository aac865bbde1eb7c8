import ChainQuery.Proofs.Typing.FilterOffers

/-!
# What is offered behind a space

Someone who stops behind a space is asked what comes next, and this file says what is offered for
an answer, clause by clause.

| behind | what is offered | by |
|---|---|---|
| a whole head | `FROM` | `ChainQuery.Typing.Whole.offers_from` |
| `FROM` | the name of the entity | `ChainQuery.Typing.Whole.offers_name` |
| `WHERE` or a finished filter | the field of a filter | `ChainQuery.Typing.Ready.offers_filter` |
| the field of a filter | its operators | `ChainQuery.Typing.Ready.offers_operator` |
| the filters | `ON` | `ChainQuery.Typing.Ready.offers_on` |
| `ON` or a finished chain | a chain | `ChainQuery.Typing.Ready.offers_chain` |
| the chains | `>>` | `ChainQuery.Typing.Ready.offers_dump` |

The suggestions go by the text alone. A space behind a comma asks for one more item of a list, and a
space behind anything else for the next clause (`ChainQuery.Cursor.atPause`); and the last word,
with the comma behind it, must not be taken for a value or a chain. So it matters that no value ends
in a comma (`ChainQuery.Grammar.IsValue.getLast?_ne_comma`).
-/

namespace ChainQuery

open Text Token Grammar Suggestion

/-! ### What stands before the space -/

namespace Cursor

variable {s : Text}

theorem fragment_of_stem (h : Stem s) : fragment s = [] := by
  have := Typing.fragment_stem h (w := []) (by simp)
  rwa [List.append_nil] at this

theorem lastIs_of_stem (h : Stem s) (p : Char → Bool) : lastIs p s = p ' ' := by
  obtain ⟨r, rfl⟩ := h.exists_eq
  rw [lastIs, List.getLast?_concat, Option.any_some]

/-- Behind finished items of a list there is no pause. -/
theorem atPause_append_closed (s : Text) {xs : List Text} (hne : xs ≠ []) :
    atPause (s ++ closed xs) = false := by
  have hcomma : atCommaSpace (s ++ closed xs) = true := by
    obtain ⟨r, hr⟩ := exists_closed_eq hne
    rw [atCommaSpace, endsIn, List.isSuffixOf_iff_suffix, hr]
    exact ⟨s ++ r, by simp⟩
  rw [atPause, hcomma, Bool.not_true, Bool.and_false]

theorem lastWord_append_space (s : Text) : lastWord (s ++ [' ']) = lastWord s := by
  rw [lastWord, trim_append_blank s blank_space, lastWord]

/-- The last word ends as the text does, unless the text ends in white space. -/
theorem getLast?_lastWord (s : Text) {c : Char} (hc : isBlank c = false) :
    (lastWord (s ++ [c])).getLast? = some c := by
  obtain ⟨p, hp⟩ := exists_isAfterLast ' ' (trim (s ++ [c]))
  have hspace : c ≠ ' ' := by
    rintro rfl
    rw [isBlank_space] at hc
    cases hc
  rw [lastWord, hp.getLastD_pieces]
  exact hp.getLast? hspace (getLast?_trim_concat s hc)

theorem getLast?_lastWord_closed (s : Text) {xs : List Text} (hne : xs ≠ []) :
    (lastWord (s ++ closed xs)).getLast? = some ',' := by
  obtain ⟨r, hr⟩ := exists_closed_eq hne
  rw [hr, ← List.append_assoc, ← List.append_assoc, lastWord_append_space,
    getLast?_lastWord _ (by decide)]

end Cursor

theorem Suggestion.awaitsValue_of_last (s : Text) {c : Char} (hc : isBlank c = false)
    (hsign : Operator.isSign c = false) : awaitsValue (s ++ [c] ++ [' ']) = false := by
  rw [awaitsValue, trimEnd_append_blank _ blank_space, trimEnd_of_last hc, lastIs,
    List.getLast?_concat, Option.any_some, hsign]

theorem Suggestion.awaitsValue_closed (s : Text) {xs : List Text} (hne : xs ≠ []) :
    awaitsValue (s ++ closed xs) = false := by
  obtain ⟨r, hr⟩ := exists_closed_eq hne
  rw [hr, ← List.append_assoc, ← List.append_assoc]
  exact awaitsValue_of_last (s ++ r) (by decide) (by decide)

/-- **No value ends in a comma**, since every comma is in a parenthesis that is closed again. -/
theorem Grammar.IsValue.getLast?_ne_comma {v : Text} (h : IsValue v) : v.getLast? ≠ some ',' := by
  intro hlast
  obtain ⟨u, rfl⟩ := List.getLast?_eq_some_iff.mp hlast
  have hopen : 0 < depth u := h.sheltered u [] rfl
  have hclosed : depth (u ++ [',']) = 0 := h.closed
  rw [depth, depthFrom_append] at hclosed
  exact absurd hclosed hopen.ne'

namespace Typing

variable {e : Entity} {s t : Text}

/-! ### What is offered -/

/-- A word is among the suggestions for a text. -/
def Offers (raw t : Text) : Prop := ∃ suggestions, complete raw = .ok suggestions ∧ .word t ∈ suggestions

/-- At a sound stem the clause decides what is offered. -/
theorem offers_of_forQuery (hs : Sound s) (hstem : Stem s) (list : List Text)
    (hquery : forQuery (Query.ofText s) s = .ok (words list)) (ht : t ∈ list) : Offers s t := by
  obtain ⟨q, hjudge⟩ := hs.welcome.1
  obtain rfl := Query.eq_ofText_of_judge hjudge
  have hword : Keyword.isKeyword (Cursor.fragment s) = false := by
    rw [Cursor.fragment_of_stem hstem]
    decide
  refine ⟨words list, ?_, List.mem_map_of_mem ht⟩
  rw [complete_of_judge hjudge hword, hquery]

/-! ### The head and the entity -/

section Whole

variable {fields : List Text}

/-- **Behind a whole head, `FROM` is offered.** -/
theorem Whole.offers_from (h : Whole e fields s) : Offers (s ++ [' ']) Keyword.entity.text := by
  refine offers_of_forQuery h.sound_space (stem_concat s) [Keyword.entity.text] ?_ (by simp)
  have hlist : (Query.ofText (s ++ [' '])).fieldList.isEmpty = false := by
    rw [h.ofText_space.fieldList, List.isEmpty_eq_false_iff]
    exact h.fit.ne_nil
  rw [forQuery, h.ofText_space.lastKeyword]
  dsimp only
  rw [forFields, hlist, h.atPause]
  rfl

/-- As long as the entity is open, all are offered that have everything that is asked for. -/
theorem mem_openEntities_of_isFieldList {raw : Text} {q : Query} (hq : q.fieldList = fields)
    (h : IsFieldList e fields) (hraw : Stem raw) : e.name ∈ openEntities q raw := by
  have hfields : q.fields = some fields := by
    cases hsome : q.fields with
    | none => exact absurd hq.symm (by simpa [Query.fieldList, hsome] using h.ne_nil)
    | some fields' => simpa [Query.fieldList, hsome] using hq
  rw [openEntities.eq_def, hfields, Query.hasWildcard, hq]
  rcases h with rfl | ⟨-, hmem⟩
  · simp [Cursor.fragment_of_stem hraw, Entity.mem_all]
  · have hwild : fields.contains wildcard = false := by
      simpa using fun hcon => e.wildcard_notMem_fields (hmem wildcard hcon)
    rw [hwild]
    refine List.mem_map_of_mem (List.mem_filter.mpr ⟨e.mem_all, ?_⟩)
    simpa [Entity.hasField] using hmem

/-- **Behind `FROM`, the name of the entity is offered**, whether or not the fields imply it. -/
theorem Whole.offers_name (h : Whole e fields s) :
    Offers (s ++ [' '] ++ (Keyword.entity.text ++ [' '])) e.name := by
  have hstem : Stem (s ++ [' '] ++ (Keyword.entity.text ++ [' '])) :=
    (stem_concat Keyword.entity.text).append _
  have hlast : Cursor.lastWord (s ++ [' '] ++ (Keyword.entity.text ++ [' '])) =
      Keyword.entity.text := by
    rw [← List.append_assoc, Cursor.lastWord_append_space]
    exact lastWord_stem (h.opens.trans (List.prefix_append s _)) (stem_concat s)
      (Keyword.plain_text .entity).ne_nil (Keyword.plain_text .entity).no_blank
  have hknown : (Query.ofText (s ++ [' '] ++ (Keyword.entity.text ++ [' ']))).knownEntity? =
      impliedEntity? fields := by
    rw [h.ofText_from, ← h.saysFields.knownEntity?]
    rfl
  have hquery : forQuery (Query.ofText (s ++ [' '] ++ (Keyword.entity.text ++ [' '])))
      (s ++ [' '] ++ (Keyword.entity.text ++ [' '])) =
        .ok (forEntity (Query.ofText (s ++ [' '] ++ (Keyword.entity.text ++ [' '])))
          (s ++ [' '] ++ (Keyword.entity.text ++ [' ']))) := by
    rw [forQuery, h.ofText_from]
  rw [forEntity.eq_def, hknown] at hquery
  cases himplied : impliedEntity? fields with
  | none =>
    rw [himplied] at hquery
    refine offers_of_forQuery h.sound_from hstem _ hquery ?_
    refine mem_openEntities_of_isFieldList ?_ h.fit hstem
    rw [h.ofText_from]
    exact h.saysFields.fieldList
  | some e' =>
    obtain rfl := h.eq_of_implied himplied
    rw [himplied] at hquery
    dsimp only at hquery
    rw [atIdentifier_from, if_neg (by simp), if_pos hlast] at hquery
    exact offers_of_forQuery h.sound_from hstem _ hquery (by simp)

end Whole

/-! ### The filters -/

section Filters

variable {q : Query} {raw : Text}

/-- Where the last filter asks for nothing more, and the list goes on, the filters are offered that
are not in the list. -/
theorem forFilters_of_complete (hq : q.knownEntity? = some e) (hraw : Stem raw)
    (hlast : ∀ f ∈ q.filterList.getLast?, f.isComplete = true ∧ Cursor.atPause raw = false ∧
      f.value ≠ some (Cursor.lastWord raw))
    (hawaits : awaitsValue raw = false) :
    forFilters q raw = .ok (words (unusedFilters e q.filterList)) := by
  have hchar : lastIs (fun c => c == ',' || c == '(' || c == ')') raw = false :=
    Cursor.lastIs_of_stem hraw _
  rw [forFilters.eq_def, hq]
  dsimp only
  cases hf : q.filterList.getLast? with
  | none => simp [filterSettled, hchar, Cursor.fragment_of_stem hraw, hawaits]
  | some f =>
    obtain ⟨hcomplete, hpause, hvalue⟩ := hlast f hf
    obtain ⟨field, operator, value⟩ := f
    cases operator with
    | none => cases hcomplete
    | some op =>
      cases value with
      | none => cases hcomplete
      | some v =>
        have hne : v ≠ Cursor.lastWord raw := fun hcon => hvalue (congrArg some hcon)
        simp [filterSettled, hchar, hpause, hne, Cursor.fragment_of_stem hraw, isUnmatched, hawaits,
          Option.filter_some]

/-- Where the last filter is a field alone, its operators are offered. -/
theorem forFilters_of_field (hq : q.knownEntity? = some e) (hraw : Stem raw) {rule : FilterRule}
    (hrule : e.filterRule? rule.field = some rule)
    (hlast : q.filterList.getLast? = some ⟨rule.field, none, none⟩)
    (hawaits : awaitsValue raw = false) :
    forFilters q raw = .ok (words (rule.operators.map Operator.text)) := by
  have hchar : lastIs (fun c => c == ',' || c == '(' || c == ')') raw = false :=
    Cursor.lastIs_of_stem hraw _
  rw [forFilters.eq_def, hq]
  simp [hlast, Filter.isComplete, filterSettled, hchar, Cursor.fragment_of_stem hraw, isUnmatched,
    hrule, hawaits, atSpace_iff.mpr hraw, Option.filter_some]

/-- Where the list of filters is finished, `ON` is offered. -/
theorem forFilters_of_pause (hq : q.knownEntity? = some e) {f : Filter}
    (hlast : q.filterList.getLast? = some f) (hf : f.isComplete = true)
    (hpause : Cursor.atPause raw = true) : forFilters q raw = .ok (words [Keyword.chains.text]) := by
  rw [forFilters.eq_def, hq]
  simp [hlast, hf, hpause]

variable {done : List Comparison} {c : Comparison}

/-- Behind finished filters of the entity, the suggestions are made for them and for what is read
behind them. -/
theorem Ready.offers_of_forFilters (hs : Ready e [.filters, .chains] s)
    (hdone : ∀ d ∈ done, d.Fits e) {b : Text} (hb : Text.Quiet b) (hend : b = [] ∨ Stem b)
    (hfields : ∀ f ∈ b.filters, f.field ∈ e.filterFields) (offered : List Text)
    (hfor : ∀ q : Query, q.knownEntity? = some e →
      q.filterList = done.map Comparison.toFilter ++ b.filters →
        forFilters q (s ++ (Keyword.filters.text ++ ' ' :: (closedFilters done ++ b))) =
          .ok (words offered))
    (ht : t ∈ offered) :
    Offers (s ++ (Keyword.filters.text ++ ' ' :: (closedFilters done ++ b))) t := by
  have hquiet := quiet_closedFilters_append hdone hb
  have hfits := fits_closedFilters hs hdone hb hfields
  refine offers_of_forQuery (hfits.sound (hs.opens_append _)) (stem_filters s hend) offered ?_ ht
  have hlast : (Query.ofText (s ++ (Keyword.filters.text ++
      ' ' :: (closedFilters done ++ b)))).lastKeyword = some .filters := by
    rw [hs.ofText_filters (by simp) hquiet]
  rw [forQuery, hlast]
  refine hfor _ hfits.knownEntity? ?_
  rw [hs.filterList_filters (by simp) hquiet, filters_closedFilters_append hdone]

/-- Where a filter may begin, no value is awaited. -/
theorem awaitsValue_filters (s : Text) (done : List Comparison) :
    awaitsValue (s ++ (Keyword.filters.text ++ ' ' :: closedFilters done)) = false := by
  by_cases hne : done = []
  · subst hne
    have hlast : s ++ (Keyword.filters.text ++ ' ' :: closedFilters []) =
        s ++ "WHER".toList ++ ['E'] ++ [' '] := by
      simp [Keyword.text, closedFilters]
    rw [hlast]
    exact awaitsValue_of_last _ (by decide) (by decide)
  · have hraw : s ++ (Keyword.filters.text ++ ' ' :: closedFilters done) =
        s ++ (Keyword.filters.text ++ [' ']) ++ closed (done.map Comparison.text) := by
      simp [closedFilters]
    rw [hraw]
    exact awaitsValue_closed _ (by simpa using hne)

/-- **Behind finished filters, every filter is offered that is not among them.** -/
theorem Ready.offers_filter (hs : Ready e [.filters, .chains] s) (hdone : ∀ d ∈ done, d.Fits e)
    {x : Text} (hx : x ∈ e.filterFields) (hfresh : ∀ d ∈ done, d.field ≠ x) :
    Offers (s ++ (Keyword.filters.text ++ ' ' :: closedFilters done)) x := by
  have hstem : Stem (s ++ (Keyword.filters.text ++ ' ' :: (closedFilters done ++ []))) :=
    stem_filters s (Or.inl rfl)
  have hoffers := hs.offers_of_forFilters hdone (quiet_of_blank blank_nil) (Or.inl rfl) (by simp)
    (unusedFilters e (done.map Comparison.toFilter)) (t := x) (fun q hq hlist => ?_) ?_
  · rwa [List.append_nil] at hoffers
  · rw [List.append_nil] at hstem ⊢
    rw [filters_nil, List.append_nil] at hlist
    rw [← hlist]
    refine forFilters_of_complete hq hstem (fun f hf => ?_) (awaitsValue_filters s done)
    rw [hlist, List.getLast?_map, Option.mem_def, Option.map_eq_some_iff] at hf
    obtain ⟨d, hd, rfl⟩ := hf
    have hmem := List.mem_of_getLast? hd
    have hne : done.map Comparison.text ≠ [] := by simpa using List.ne_nil_of_mem hmem
    have hraw : s ++ (Keyword.filters.text ++ ' ' :: closedFilters done) =
        s ++ (Keyword.filters.text ++ [' ']) ++ closed (done.map Comparison.text) := by
      simp [closedFilters]
    rw [hraw]
    refine ⟨rfl, Cursor.atPause_append_closed _ hne, fun hvalue => ?_⟩
    -- the last word ends in a comma, and the value does not
    have hcomma := Cursor.getLast?_lastWord_closed (s ++ (Keyword.filters.text ++ [' '])) hne
    rw [← Option.some.inj hvalue] at hcomma
    exact (hdone d hmem).value.getLast?_ne_comma hcomma
  · rw [unusedFilters, List.mem_filter]
    refine ⟨hx, ?_⟩
    simpa [Comparison.toFilter] using fun d hd _ => hfresh d hd

/-- **Behind the field of a filter, every operator is offered that the filter admits.** -/
theorem Ready.offers_operator (hs : Ready e [.filters, .chains] s) (hdone : ∀ d ∈ done, d.Fits e)
    {rule : FilterRule} (hrule : rule ∈ e.filterRules) {op : Operator} (hop : op ∈ rule.operators) :
    Offers (s ++ (Keyword.filters.text ++
      ' ' :: (closedFilters done ++ (rule.field ++ [' '])))) op.text := by
  have hmem : rule.field ∈ e.filterFields := List.mem_map_of_mem hrule
  have hfield := isField_of_mem_filterFields _ hmem
  have hread : (rule.field ++ [' ']).filters = [⟨rule.field, none, none⟩] := by
    rw [filters_append_blank _ blank_space, filters_identifier hfield]
  have hend := stem_concat rule.field
  refine hs.offers_of_forFilters hdone (hfield.isWord.quiet.append_blank blank_space) (Or.inr hend)
    (fun f hf => ?_) _ (fun q hq hlist => forFilters_of_field hq (stem_filters s (Or.inr hend))
      (Entity.filterRule?_of_mem rule hrule) ?_ ?_) (List.mem_map_of_mem hop)
  · rw [hread, List.mem_singleton] at hf
    rwa [hf]
  · rw [hlist, hread, List.getLast?_concat]
  · -- a field ends in a character of an identifier, which is no sign
    obtain ⟨u, d, hu⟩ := (List.eq_nil_or_concat' rule.field).resolve_left hfield.ne_nil
    have hd : isIdentifierChar d = true := hfield.identifier d (by simp [hu])
    have hraw : s ++ (Keyword.filters.text ++ ' ' :: (closedFilters done ++ (rule.field ++ [' ']))) =
        s ++ (Keyword.filters.text ++ ' ' :: (closedFilters done ++ u)) ++ [d] ++ [' '] := by
      simp [hu]
    rw [hraw]
    exact awaitsValue_of_last _ (hfield.isWord.no_blank d (by simp [hu]))
      (isSign_of_isIdentifierChar hd)

/-- **Behind finished filters and a space, `ON` is offered.** -/
theorem Ready.offers_on (hs : Ready e [.filters, .chains] s) (hdone : ∀ d ∈ done, d.Fits e)
    (hc : c.Fits e) :
    Offers (s ++ (Keyword.filters.text ++ ' ' :: (closedFilters done ++ (c.text ++ [' ']))))
      Keyword.chains.text := by
  have hread := filters_finished hc
  refine hs.offers_of_forFilters hdone (hc.quiet.append_blank blank_space)
    (Or.inr (stem_concat c.text)) (fun f hf => ?_) [Keyword.chains.text] (fun q hq hlist =>
      forFilters_of_pause hq (f := c.toFilter) ?_ rfl ?_) (List.mem_singleton_self _)
  · rw [hread, List.mem_singleton] at hf
    exact hf ▸ hc.field
  · rw [hlist, hread, List.getLast?_concat]
  · -- the value stands before the space
    have hraw : s ++ (Keyword.filters.text ++ ' ' :: (closedFilters done ++ (c.text ++ [' ']))) =
        s ++ (Keyword.filters.text ++ ' ' :: (closedFilters done ++
          (c.field ++ ' ' :: (c.operator.text ++ [' '])))) ++ c.value ++ [' '] := by
      simp [Comparison.text, comparisonText]
    rw [hraw]
    refine atPause_of_last ?_
    rw [List.getLast?_append_of_ne_nil _ hc.value.solid.ne_nil]
    exact hc.value.getLast?_ne_comma

end Filters

/-! ### The chains -/

section Chains

variable {q : Query} {raw : Text} {xs done : List Text}

/-- Where nothing stands behind `ON`, all chains are offered. -/
theorem forChains_of_nil (hq : q.chainList = []) (hraw : Cursor.lastWord raw = Keyword.chains.text) :
    forChains q raw = words ChainQuery.chains := by
  rw [forChains, hq, hraw]
  rfl

/-- Where the list of chains goes on, the chains are offered that are not in the list. -/
theorem forChains_of_closed (s : Text) (hne : xs ≠ []) :
    forChains q (s ++ closed xs) = words (unusedChains q.chainList (s ++ closed xs)) := by
  -- the last word has a comma behind it
  have hcomma {y : Text} (hy : ',' ∉ y) : Cursor.lastWord (s ++ closed xs) ≠ y := by
    rintro rfl
    exact hy (List.mem_of_getLast? (Cursor.getLast?_lastWord_closed s hne))
  have hsettled : chainsSettled (s ++ closed xs) = false := by
    have hnot : Cursor.lastWord (s ++ closed xs) ∉ ChainQuery.chains := fun hmem =>
      hcomma (plain_of_mem_chains _ hmem).no_comma rfl
    rw [chainsSettled, Cursor.lastIs_of_stem ((stem_closed hne).append s)]
    simpa using hnot
  rw [forChains, Cursor.atPause_append_closed s hne, Bool.and_false, if_neg (by simp),
    if_neg (hcomma (Keyword.plain_text .chains).no_comma), hsettled]
  rfl

/-- Chains are read, and the suggestions for chains are made for them. -/
theorem Ready.offers_of_forChains (hs : Ready e [.chains] s) {list : Text}
    (hlist : Text.Quiet list) (hitems : ∀ x ∈ items list, x ∈ ChainQuery.chains)
    (hstem : Stem (s ++ (Keyword.chains.text ++ ' ' :: list))) (offered : List Text)
    (hfor : ∀ q : Query, q.chainList = items list →
      forChains q (s ++ (Keyword.chains.text ++ ' ' :: list)) = words offered)
    (ht : t ∈ offered) : Offers (s ++ (Keyword.chains.text ++ ' ' :: list)) t := by
  have hlower : ∀ x ∈ items list, lower x = x := fun x hx =>
    lower_eq_self (ascii_of_mem_chain x (hitems x hx))
  have hfits := hs.fits_chains (by simp) hlist fun x hx =>
    ⟨x, hitems x hx, by rw [hlower x hx]⟩
  refine offers_of_forQuery (hfits.sound (hs.opens_append _)) hstem offered ?_ ht
  have hread := hs.ofText_chains (by simp) hlist
  have hchains : (Query.ofText (s ++ (Keyword.chains.text ++ ' ' :: list))).chainList =
      items list := by
    rw [hread, Query.chainList, List.map_congr_left hlower, List.map_id']
    cases items list <;> rfl
  have hlast : (Query.ofText (s ++ (Keyword.chains.text ++ ' ' :: list))).lastKeyword =
      some .chains := by
    rw [hread]
  rw [forQuery, hlast]
  exact congrArg Except.ok (hfor _ hchains)

/-- **Behind `ON` every chain is offered, and behind finished chains every chain that is not among
them**, except that the wildcard cannot stand behind another chain. -/
theorem Ready.offers_chain (hs : Ready e [.chains] s) (hdone : ∀ y ∈ done, y ∈ ChainQuery.chains)
    {x : Text} (hx : x ∈ ChainQuery.chains) (hfresh : x ∉ done)
    (hwild : done = [] ∨ x ≠ wildcard) :
    Offers (s ++ (Keyword.chains.text ++ ' ' :: closed done)) x := by
  have hwords : ∀ y ∈ done, IsTableWord y := fun y hy => isTableWord_of_mem_chains y (hdone y hy)
  have hitems := items_closed hwords
  have hstem := stem_chains s done
  have hall : ∀ y ∈ items (closed done), y ∈ ChainQuery.chains := by rwa [hitems]
  by_cases hne : done = []
  · subst hne
    refine hs.offers_of_forChains (quiet_closed hwords) hall hstem _ (fun q hq =>
      forChains_of_nil hq ?_) hx
    have hsplit : s ++ (Keyword.chains.text ++ ' ' :: closed []) =
        s ++ Keyword.chains.text ++ [' '] := by simp
    rw [hsplit, Cursor.lastWord_append_space]
    exact lastWord_stem hs.opens hs.stem (Keyword.plain_text .chains).ne_nil
      (Keyword.plain_text .chains).no_blank
  · have hraw : s ++ (Keyword.chains.text ++ ' ' :: closed done) =
        s ++ (Keyword.chains.text ++ [' ']) ++ closed done := by simp
    refine hs.offers_of_forChains (quiet_closed hwords) hall hstem
      (unusedChains done (s ++ (Keyword.chains.text ++ ' ' :: closed done))) (fun q hq => ?_) ?_
    · rw [hraw, forChains_of_closed _ hne, hq, hitems]
    · rw [unusedChains, Cursor.fragment_of_stem hstem]
      simpa [namedChains, beginsWith, hx, hfresh] using hwild.resolve_left hne

/-- **Behind a finished list of chains and a space, `>>` is offered.** -/
theorem Ready.offers_dump (hs : Ready e [.chains] s) (hne : xs ≠ [])
    (hxs : ∀ x ∈ xs, x ∈ ChainQuery.chains) :
    Offers (s ++ (Keyword.chains.text ++ ' ' :: (joined xs ++ [' ']))) Keyword.dump.text := by
  have hwords : ∀ y ∈ xs, IsTableWord y := fun y hy => isTableWord_of_mem_chains y (hxs y hy)
  have hitems : items (joined xs ++ [' ']) = xs := by
    rw [items_append_blank _ blank_space, items_joined hne hwords]
  have hraw : s ++ (Keyword.chains.text ++ ' ' :: (joined xs ++ [' '])) =
      s ++ (Keyword.chains.text ++ [' ']) ++ joined xs ++ [' '] := by simp
  refine hs.offers_of_forChains ((quiet_joined hne hwords).append_blank blank_space) ?_ ?_
    [Keyword.dump.text] (fun q hq => ?_) (by simp)
  · rw [hitems]
    exact hxs
  · rw [hraw]
    exact stem_concat _
  · have hpause : Cursor.atPause (s ++ (Keyword.chains.text ++ ' ' :: (joined xs ++ [' ']))) =
        true := by
      obtain ⟨done, x, rfl, hjoined⟩ := exists_joined_eq hne
      rw [hraw, hjoined, ← List.append_assoc]
      exact atPause_of_last (IsTableWord.getLast?_ne_comma (hwords x (by simp)) _)
    have hsome : (!xs.isEmpty) = true := by simpa using hne
    rw [forChains, hq, hitems, hsome, hpause]
    rfl

end Chains

end Typing

end ChainQuery
