import ChainQuery.Proofs.Query.LastKeyword
import ChainQuery.Proofs.Suggestion.Tables
import ChainQuery.Proofs.Typing.FilterOffers

/-!
# Accepting an operator

Behind a field and a space operators are offered, and whoever accepts one means it for that field.
An operator that is accepted **attaches** to the last filter if it becomes the operator of that
filter, and nothing else changes in the list (`ChainQuery.Typing.Attaches`).

Operators are offered for the *last filter of the query*, which need not be what stands before the
cursor. There may be a comma between them, so that the operator is read as a new filter, one that no
entity has; and the text may end in a second `WHERE`, of which nothing is read. These are the only
exceptions (`ChainQuery.Typing.attaches_iff`).
-/

namespace ChainQuery

open Text Token Suggestion

namespace Typing

variable {raw : Text} {op : Operator} {q : Query} {l : List Suggestion} {t : Text}

/-! ### Words without signs -/

/-- **A word that is no operator**, since there is no sign in it. -/
def Signless (t : Text) : Prop := ∀ c ∈ t, Operator.isSign c = false

instance (t : Text) : Decidable (Signless t) :=
  inferInstanceAs (Decidable (∀ c ∈ t, Operator.isSign c = false))

theorem not_signless_operator (op : Operator) : ¬Signless op.text := by cases op <;> decide

theorem signless_of_mem_fields {e : Entity} : ∀ t ∈ e.fields, Signless t := by
  cases e <;> decide +kernel

theorem signless_of_mem_hints {e : Entity} : ∀ t ∈ e.hints, Signless t := by cases e <;> decide

theorem signless_name (e : Entity) : Signless e.name := by cases e <;> decide

theorem signless_of_mem_filterFields {e : Entity} : ∀ t ∈ e.filterFields, Signless t :=
  fun t ht c hc =>
    isSign_of_isIdentifierChar ((Grammar.isField_of_mem_filterFields t ht).identifier c hc)

/-- **Signs are offered after `WHERE` only**, but for those of `>>`. -/
theorem signless_of_offered (hl : forQuery q raw = .ok l) (h : Offered l t)
    (hlast : q.lastKeyword ≠ some .filters) : Signless t ∨ t = Keyword.dump.text := by
  have hchains : ∀ t ∈ ChainQuery.chains, Signless t := by decide
  have hformats : ∀ t ∈ dumpFormats, Signless t := by decide
  cases listed_of_offered hl h with
  | keyword k => cases k <;> decide
  | wildcard => exact Or.inl (by decide)
  | field e ht => exact Or.inl (signless_of_mem_fields t ht)
  | name e => exact Or.inl (signless_name e)
  | hint e ht => exact Or.inl (signless_of_mem_hints t ht)
  | filterField e ht => exact Or.inl (signless_of_mem_filterFields t ht)
  | operator op hfilters => exact absurd hfilters hlast
  | chain ht => exact Or.inl (hchains t ht)
  | dumpFormat ht => exact Or.inl (hformats t ht)

/-! ### Where operators are offered -/

/-- **A text for the last filter of which operators are offered**: filters are being typed, the text
ends in a space, nothing is wrong with it, and the last filter has a field and no value. -/
structure AsksOperator (raw : Text) (f : Filter) : Prop where
  /-- Filters are being typed. -/
  lastKeyword : (Query.ofText raw).lastKeyword = some .filters
  /-- The text ends in a space. -/
  stem : Stem raw
  /-- Nothing is wrong with the query. -/
  conforms : Query.Conforms raw (Query.ofText raw)
  /-- The filter is the last one. -/
  last : (Query.ofText raw).filterList.getLast? = some f
  /-- Its field is one that some entity is filtered by. -/
  field : ∃ e : Entity, f.field ∈ e.filterFields
  /-- Its value is missing. -/
  value : f.value = none
  /-- The text does not end in an operator. -/
  awaits : awaitsValue raw = false

theorem exists_asksOperator (hl : complete raw = .ok l) (hop : .word op.text ∈ l) :
    ∃ f, AsksOperator raw f := by
  have hoffered : Offered l op.text := ⟨_, hop, List.mem_singleton_self _⟩
  rcases complete_cases raw with hnil | ⟨hjudge, -, hquery⟩
  · rw [hl] at hnil
    cases hnil
    cases hop
  rw [hl] at hquery
  have hlast : (Query.ofText raw).lastKeyword = some .filters := by
    by_contra hne
    rcases signless_of_offered hquery.symm hoffered hne with hsign | hdump
    · exact not_signless_operator op hsign
    · revert hdump
      cases op <;> decide
  rw [forQuery, hlast] at hquery
  cases hknown : (Query.ofText raw).knownEntity? with
  | none =>
    rw [forFilters, hknown] at hquery
    cases hquery
  | some e =>
    rcases offered_forFilters hknown hquery.symm hoffered with
      hon | ⟨hmem, -⟩ | ⟨-, -, hspace, f, hf, hvalue, hawaits⟩ | ⟨hmem, -⟩
    · exact absurd (hon ▸ by decide) (not_signless_operator op)
    · exact absurd (signless_of_mem_filterFields _ hmem) (not_signless_operator op)
    · have hstem : Stem raw := Query.lastIs_space_iff.mp hspace
      have hconforms := conforms_of_atSpace hjudge hlast hspace
      have hfield := hconforms.filters f (List.mem_of_getLast? hf) e
        (Query.knownEntity?_eq_some_iff.mp hknown)
      exact ⟨f, hlast, hstem, hconforms, hf, ⟨e, hfield⟩, hvalue, hawaits⟩
    · exact absurd (signless_of_mem_filterFields _ hmem) (not_signless_operator op)

/-! ### The text with one more operator -/

/-- A text that begins with `GET` is its trimmed form and a blank. -/
theorem trim_append_blankEnd (h : Query.opening <+: raw) : trim raw ++ blankEnd raw = raw := by
  obtain ⟨rest, rfl⟩ := h
  have hstart : trimStart (Query.opening ++ rest) = Query.opening ++ rest :=
    trimStart_cons_of_not_blank (by decide) _
  rw [trim, hstart, trimEnd_append_blankEnd]

theorem comma_notMem_operator {w : Text} (hw : Blank w) (op : Operator) : ',' ∉ w ++ op.text := by
  intro hmem
  rcases List.mem_append.mp hmem with hmem | hmem
  · exact (no_bracket_of_blank hw ',' hmem).1 rfl
  · exact (no_bracket_operator op ',' hmem).1 rfl

/-- A text that ends in the name of a field does not end in a comma. -/
theorem getLast?_append_field_ne_comma {v : Text} (hend : blankEnd v = [])
    (hfield : Grammar.IsField (trim v)) (s : Text) : (s ++ v).getLast? ≠ some ',' := by
  obtain ⟨w, -, hv⟩ := exists_eq_blank_append_trim hend
  rw [hv, ← List.append_assoc, List.getLast?_append_of_ne_nil _ hfield.ne_nil]
  intro hcomma
  exact absurd (hfield.identifier ',' (List.mem_of_getLast? hcomma)) (by decide)

namespace AsksOperator

variable {f : Filter} {before after v : Text}

theorem solid (h : AsksOperator raw f) : Solid (trim raw) :=
  solid_trim (not_blank_of_opens h.conforms.opens)

/-- Behind a space nothing is being typed that an operator could replace. -/
theorem accepted_eq (h : AsksOperator raw f) (op : Operator) :
    Editor.accepted raw op.text = raw ++ op.text ++ [' '] := by
  have hword : ' ' ∉ ([] : Text) := List.not_mem_nil
  have hall := uptoLast_stem h.stem hword
  rw [List.append_nil] at hall
  rw [Editor.accepted, hall]

/-- The operator is put behind the text, and the space behind it says nothing. -/
theorem ofText_accepted (h : AsksOperator raw f) (op : Operator) :
    Query.ofText (Editor.accepted raw op.text) =
      Query.ofText (trim raw ++ (blankEnd raw ++ op.text)) := by
  rw [h.accepted_eq, Query.ofText_append_blank _ blank_space, ← List.append_assoc,
    trim_append_blankEnd h.conforms.opens]

theorem exists_lastClause (h : AsksOperator raw f) :
    ∃ before after, LastClause .filters before after (trim raw) := by
  have hends := (Query.lastKeyword_eq_iff raw _).mp h.lastKeyword
  cases hends with
  | @keyword _ before after hlast => exact ⟨before, after, hlast.lastClause (trim_trim raw)⟩

/-- The operator goes to the last clause. -/
theorem lastClause_append (h : AsksOperator raw f)
    (hq : LastClause .filters before after (trim raw)) (op : Operator) :
    LastClause .filters before (after ++ (blankEnd raw ++ op.text))
      (trim raw ++ (blankEnd raw ++ op.text)) := by
  refine hq.append (Quiet.blank_append (blank_blankEnd raw)
    (quiet_of_prefix_operator (List.prefix_refl op.text))) fun c hc => ?_
  rw [List.head?_append_of_ne_nil _ h.stem.blankEnd] at hc
  exact blank_blankEnd raw c (List.mem_of_mem_head? hc)

/-- Of a second list nothing is read, nor of what is put behind it. -/
theorem ofText_accepted_of_repeated (h : AsksOperator raw f)
    (hq : LastClause .filters before after (trim raw))
    (hold : (Clauses.ofText before).first? .filters ≠ none) (op : Operator) :
    Query.ofText (Editor.accepted raw op.text) = Query.ofText raw := by
  rw [h.ofText_accepted, (h.lastClause_append hq op).ofText_eq_of_repeated hold,
    ← Query.ofText_trim raw, hq.ofText_eq_of_repeated hold]

/-! ### The last filter -/

/-- **The last filter is a field**: an operator without a value would be what the text ends in. -/
theorem eq_field (h : AsksOperator raw f) (hend : blankEnd v = []) (hsuffix : v <:+ trim raw)
    (hf : f = Filter.ofTokens (lexemes v)) : f = ⟨trim v, none, none⟩ := by
  rcases Filter.ofTokens_cases (lexemes v) with ⟨t, u, value, op, hgroup, ht, hu⟩ | hgroup
  · exfalso
    have hvalue : nonempty? (stretch value) = none := by
      have := h.value
      rwa [hf, hgroup, Filter.ofTokens_of_operator ht hu] at this
    obtain rfl : value = [] := by
      cases value with
      | nil => rfl
      | cons w rest =>
        have hcut : w.IsCut := isCut_of_mem_lexemes w (by rw [hgroup]; simp)
        rw [nonempty?_of_ne_nil (by simp [stretch, hcut.ne_nil])] at hvalue
        cases hvalue
    -- the text ends in the operator
    have htext : u.text = op.text :=
      (Operator.text_of_ofText? (Option.ite_none_right_eq_some.mp hu).2).symm
    have hspell : v = (t.gap ++ (t.text ++ u.gap)) ++ op.text := by
      have hall := trimEnd_append_blankEnd v
      rw [hend, List.append_nil, ← spelling_lexemes, hgroup] at hall
      simpa [htext] using hall.symm
    obtain ⟨s, hs⟩ := hsuffix
    have hawaits := awaitsValue_of_operator (Operator.text_ne_nil op) (List.prefix_refl op.text)
      (s ++ (t.gap ++ (t.text ++ u.gap)))
    rw [List.append_assoc, ← hspell, hs, awaitsValue,
      ← trimEnd_append_blank (trim raw) (blank_blankEnd raw),
      trim_append_blankEnd h.conforms.opens, ← awaitsValue, h.awaits] at hawaits
    cases hawaits
  · rw [hf, hgroup, stretch_lexemes]

section New

variable (h : AsksOperator raw f) (hq : LastClause .filters before after (trim raw))
  (hnew : (Clauses.ofText before).first? .filters = none)

include hq hnew in
theorem filterList_eq : (Query.ofText raw).filterList = after.filters := by
  rw [← Query.ofText_trim, hq.ofText_eq hnew]
  exact Query.filterList_withClause (Query.ofText before) after

include h hq hnew in
theorem filterList_accepted (op : Operator) :
    (Query.ofText (Editor.accepted raw op.text)).filterList =
      (after ++ (blankEnd raw ++ op.text)).filters := by
  rw [h.ofText_accepted, (h.lastClause_append hq op).ofText_eq hnew]
  exact Query.filterList_withClause (Query.ofText before) _

include h hq hnew in
/-- What stands behind the last comma is nothing, or the field of the last filter. -/
theorem exists_last : ∃ v, IsLastFilter v after ∧
    (v = [] ∨
      ¬Blank v ∧ blankEnd v = [] ∧ f = ⟨trim v, none, none⟩ ∧ Grammar.IsField (trim v)) := by
  obtain ⟨v, hv⟩ := exists_isLastFilter after
  obtain ⟨s, hs⟩ := hv.isSuffix.trans hq.isSuffix
  refine ⟨v, hv, ?_⟩
  by_cases hblank : Blank v
  · -- a trimmed text does not end in white space
    have hend := h.solid.blankEnd
    rw [← hs, blankEnd_append_blank _ hblank] at hend
    exact Or.inl (List.append_eq_nil_iff.mp hend).2
  · have hend : blankEnd v = [] := by
      rw [← blankEnd_append_of_not_blank s hblank, hs, h.solid.blankEnd]
    obtain ⟨earlier, hearlier⟩ := hv.exists_filters_append
    have hlast := h.last
    have hall := hearlier []
    rw [List.append_nil, List.append_nil, filters_of_sheltered hv.1 hblank] at hall
    rw [filterList_eq hq hnew, hall, List.getLast?_concat, Option.some.injEq] at hlast
    have hf := h.eq_field hend ⟨s, hs⟩ hlast.symm
    obtain ⟨e, hfield⟩ := h.field
    rw [hf] at hfield
    exact Or.inr ⟨hblank, hend, hf, Grammar.isField_of_mem_filterFields _ hfield⟩

include h hq hnew in
/-- **Where nothing stands behind the last comma the operator is a filter of its own**; everywhere
else it goes to the last filter. -/
theorem filterList_cases (op : Operator) :
    ((trim raw).getLast? = some ',' ∧
      (Query.ofText (Editor.accepted raw op.text)).filterList =
        (Query.ofText raw).filterList ++ [⟨op.text, none, none⟩]) ∨
    ((trim raw).getLast? ≠ some ',' ∧ ∃ earlier,
      (Query.ofText raw).filterList = earlier ++ [f] ∧
      (Query.ofText (Editor.accepted raw op.text)).filterList =
        earlier ++ [{ f with operator := some op }]) := by
  obtain ⟨v, hv, hcases⟩ := h.exists_last hq hnew
  obtain ⟨s, hs⟩ := hv.isSuffix.trans hq.isSuffix
  obtain ⟨earlier, hearlier⟩ := hv.exists_filters_append
  have hbefore : (Query.ofText raw).filterList = earlier ++ v.filters := by
    have hall := hearlier []
    rwa [List.append_nil, List.append_nil, ← filterList_eq hq hnew] at hall
  rw [h.filterList_accepted hq hnew, hearlier, hbefore]
  rcases hcases with rfl | ⟨hblank, hend, hf, hfield⟩
  · refine Or.inl ⟨?_, ?_⟩
    · obtain ⟨-, rfl | ⟨u, -, rfl⟩⟩ := hv
      · have hlast := h.last
        rw [filterList_eq hq hnew] at hlast
        cases hlast
      · rw [hq.eq_append, ← List.append_assoc, ← List.append_assoc, List.getLast?_concat]
    · have hone : op.text.filters = [⟨op.text, none, none⟩] := by cases op <;> decide
      rw [List.nil_append, filters_blank_append (blank_blankEnd raw), hone, filters_nil,
        List.append_nil]
  · have hsheltered := hv.1.append_of_not_mem (comma_notMem_operator (blank_blankEnd raw) op)
    have hnot : ¬Blank (v ++ (blankEnd raw ++ op.text)) := fun hcon =>
      hblank (blank_append.mp hcon).1
    refine Or.inr ⟨?_, earlier, ?_, ?_⟩
    · rw [← hs]
      exact getLast?_append_field_ne_comma hend hfield _
    · obtain ⟨w, hlex⟩ := lexemes_of_identifier hfield.ne_nil hfield.identifier hend
      have hone : Filter.ofTokens (lexemes v) = f := by
        rw [hf, hlex, ← hlex, ← stretch_lexemes, hlex]
        rfl
      rw [filters_of_sheltered hv.1 hblank, hone]
    · rw [filters_of_sheltered hsheltered hnot,
        Filter.ofTokens_identifier_append op hfield.ne_nil hfield.identifier hend
          (blank_blankEnd raw) h.stem.blankEnd, hf]

include h hq hnew in
/-- Nothing but the filters changes. -/
theorem judgedAlike_accepted
    (hfields : (Query.ofText (Editor.accepted raw op.text)).filterList.map Filter.field =
      (Query.ofText raw).filterList.map Filter.field) :
    (Query.ofText raw).JudgedAlike (Query.ofText (Editor.accepted raw op.text)) := by
  refine ⟨?_, ?_, hfields, ?_⟩ <;>
    rw [h.ofText_accepted, (h.lastClause_append hq op).ofText_eq hnew, ← Query.ofText_trim raw,
      hq.ofText_eq hnew] <;> rfl

end New

/-- A text in which the same is judged is let pass. -/
theorem read_accepted (h : AsksOperator raw f)
    (halike : (Query.ofText raw).JudgedAlike (Query.ofText (Editor.accepted raw op.text))) :
    ∃ q, Query.read (Editor.accepted raw op.text) true = .ok q := by
  have hprefix : raw <+: Editor.accepted raw op.text := by
    rw [h.accepted_eq, List.append_assoc]
    exact List.prefix_append raw _
  exact ⟨_, Query.judge_of_conforms (halike.conforms h.conforms (h.conforms.opens.trans hprefix))⟩

end AsksOperator

/-! ### When an operator attaches -/

/-- **An operator attaches to the last filter**: when it is accepted it becomes the operator of that
filter, the list is the same otherwise, and judgement lets the text pass. -/
structure Attaches (raw : Text) (op : Operator) : Prop where
  /-- The last filter has the operator, and the others are the same. -/
  filters : ∃ earlier f, (Query.ofText raw).filters = some (earlier ++ [f]) ∧
    (Query.ofText (Editor.accepted raw op.text)).filters =
      some (earlier ++ [{ f with operator := some op }])
  /-- Nothing is wrong with the text. -/
  accepted : ∃ q, Query.read (Editor.accepted raw op.text) true = .ok q

/-- **The last clause is the first of its kind.** -/
def IsFirstOfKind (raw : Text) (k : Keyword) : Prop :=
  ∀ clause ∈ (Clauses.ofText raw).rest.dropLast, clause.keyword ≠ k

instance (raw : Text) (k : Keyword) : Decidable (IsFirstOfKind raw k) :=
  inferInstanceAs (Decidable (∀ clause ∈ (Clauses.ofText raw).rest.dropLast, clause.keyword ≠ k))

/-- **A text whose last filter takes an operator**: the filter is what stands before the cursor, or
it has the operator already and a second list, which says nothing, stands behind it. -/
inductive TakesOperator (raw : Text) (op : Operator) : Prop
  /-- There is one list, and something stands behind its last comma. -/
  | typed (hnew : IsFirstOfKind raw .filters) (hend : (trim raw).getLast? ≠ some ',') :
      TakesOperator raw op
  /-- The operator is there, and nothing is read of what is typed. -/
  | present (hold : ¬IsFirstOfKind raw .filters) {f : Filter}
      (hf : (Query.ofText raw).filterList.getLast? = some f) (hop : f.operator = some op) :
      TakesOperator raw op

theorem isFirstOfKind_iff {k : Keyword} {before after : Text}
    (hq : LastClause k before after (trim raw)) :
    IsFirstOfKind raw k ↔ (Clauses.ofText before).first? k = none := by
  have hread : Clauses.ofText raw = Clauses.ofText (trim raw) := by
    rw [Clauses.ofText, Clauses.ofText, trim_trim]
  rw [IsFirstOfKind, hread, hq.clauses_eq, List.dropLast_concat, Clauses.first?,
    Option.map_eq_none_iff, List.find?_eq_none]
  simp only [beq_iff_eq]

theorem filters_eq_some_iff {list : List Filter} (hne : list ≠ []) :
    q.filters = some list ↔ q.filterList = list := by
  rw [Query.filterList]
  cases q.filters with
  | none => simp [hne.symm]
  | some filters => simp

/-- **An operator that is offered attaches to the last filter exactly if the last filter takes
it.** -/
theorem attaches_iff (hl : complete raw = .ok l) (hop : .word op.text ∈ l) :
    Attaches raw op ↔ TakesOperator raw op := by
  obtain ⟨f, h⟩ := exists_asksOperator hl hop
  obtain ⟨before, after, hq⟩ := h.exists_lastClause
  by_cases hnew : (Clauses.ofText before).first? .filters = none
  · have hfirst := (isFirstOfKind_iff hq).mpr hnew
    rcases h.filterList_cases hq hnew op with ⟨hcomma, hlist⟩ | ⟨hcomma, earlier, hbefore, hbehind⟩
    · refine iff_of_false ?_ ?_
      · -- there is one filter more than there was
        rintro ⟨⟨earlier, f', hbefore, hbehind⟩, -⟩
        rw [filters_eq_some_iff (by simp)] at hbefore hbehind
        rw [hbehind, hbefore] at hlist
        have hlength := congrArg List.length hlist
        simp at hlength
      · rintro (⟨-, hend⟩ | ⟨hold, -, -⟩)
        · exact hend hcomma
        · exact hold hfirst
    · refine iff_of_true ⟨⟨earlier, f, ?_, ?_⟩, h.read_accepted ?_⟩ (.typed hfirst hcomma)
      · rwa [filters_eq_some_iff (by simp)]
      · rwa [filters_eq_some_iff (by simp)]
      · have hfields : (Query.ofText (Editor.accepted raw op.text)).filterList.map Filter.field =
            (Query.ofText raw).filterList.map Filter.field := by
          rw [hbefore, hbehind, List.map_append, List.map_append]
          rfl
        exact h.judgedAlike_accepted hq hnew hfields
  · have hold : ¬IsFirstOfKind raw .filters := fun hfirst => hnew ((isFirstOfKind_iff hq).mp hfirst)
    have hsame := h.ofText_accepted_of_repeated hq hnew op
    constructor
    · rintro ⟨⟨earlier, f', hbefore, hbehind⟩, -⟩
      rw [hsame, hbefore, Option.some.injEq, List.append_cancel_left_eq] at hbehind
      refine .present hold (f := f') ?_ ?_
      · rw [Query.filterList, hbefore, Option.getD_some, List.getLast?_concat]
      · rw [(List.cons.inj hbehind).1]
    · intro htakes
      cases htakes with
      | typed hfirst => exact absurd hfirst hold
      | @present _ f' hf' hop' =>
        obtain ⟨earlier, hlist⟩ := List.getLast?_eq_some_iff.mp hf'
        have hfilters := (filters_eq_some_iff (by simp)).mpr hlist
        have hfix : { f' with operator := some op } = f' := by rw [← hop']
        refine ⟨⟨earlier, f', hfilters, ?_⟩, h.read_accepted ?_⟩
        · rw [hsame, hfix, hfilters]
        · rw [hsame]
          exact .refl _

/-- Behind a finished filter and a field that is typed. -/
theorem attaches_behind_comparison :
    complete "GET * FROM log WHERE block = 1, topic0 ".toList = .ok [.word Operator.eq.text] ∧
      Attaches "GET * FROM log WHERE block = 1, topic0 ".toList .eq := by
  have hl : complete "GET * FROM log WHERE block = 1, topic0 ".toList =
      .ok [.word Operator.eq.text] := by
    decide +kernel
  refine ⟨hl, (attaches_iff hl (List.mem_singleton_self _)).mpr (.typed ?_ ?_)⟩
  · decide +kernel
  · decide +kernel

/-- **Behind a comma an operator is offered that no filter takes.** -/
theorem not_attaches_behind_comma :
    complete "GET * FROM tx WHERE value, ".toList =
        .ok (words (Operator.all.map Operator.text)) ∧
      (Query.ofText (Editor.accepted "GET * FROM tx WHERE value, ".toList
          Operator.eq.text)).filters =
        some [⟨"value".toList, none, none⟩, ⟨"=".toList, none, none⟩] ∧
      Query.read (Editor.accepted "GET * FROM tx WHERE value, ".toList Operator.eq.text) true =
        .error ⟨.foreignFilter "=".toList .transaction, some ⟨27, 28⟩⟩ ∧
      ¬Attaches "GET * FROM tx WHERE value, ".toList .eq := by
  have hread : Query.read
      (Editor.accepted "GET * FROM tx WHERE value, ".toList Operator.eq.text) true =
        .error ⟨.foreignFilter "=".toList .transaction, some ⟨27, 28⟩⟩ := by
    decide +kernel
  refine ⟨by decide +kernel, by decide +kernel, hread, fun h => ?_⟩
  obtain ⟨q, hq⟩ := h.accepted
  rw [hread] at hq
  cases hq

end Typing

end ChainQuery
