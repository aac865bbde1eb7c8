import ChainQuery.Proofs.Query.Grammar

/-!
# The words of the tables

Fields, filters, entities and chains have names, and these names are easy to read and easy to
type. They are **plain** words, without white space and commas
(`ChainQuery.Text.Plain`), and so is everything else that is ever suggested. They are not spelled
like keywords, and neither is any beginning of them, so that nothing is made of them before they
are finished (`ChainQuery.Grammar.IsTableWord`).
-/

namespace ChainQuery

open Text Token

/-! ### Plain words -/

/-- **A plain word**: it holds no white space and no comma. -/
structure Text.Plain (s : Text) : Prop where
  /-- Something is there. -/
  ne_nil : s ≠ []
  /-- There is no white space. -/
  no_blank : ∀ c ∈ s, isBlank c = false
  /-- There is no comma. -/
  no_comma : ',' ∉ s

instance (s : Text) : Decidable s.Plain :=
  decidable_of_iff (s ≠ [] ∧ (∀ c ∈ s, isBlank c = false) ∧ ',' ∉ s)
    ⟨fun ⟨hne, hblank, hcomma⟩ => ⟨hne, hblank, hcomma⟩,
      fun h => ⟨h.ne_nil, h.no_blank, h.no_comma⟩⟩

theorem Entity.plain_of_mem_fields {e : Entity} : ∀ t ∈ e.fields, t.Plain := by
  cases e <;> decide

theorem Entity.plain_of_mem_filterFields {e : Entity} : ∀ t ∈ e.filterFields, t.Plain := by
  cases e <;> decide

theorem Entity.plain_of_mem_hints {e : Entity} : ∀ t ∈ e.hints, t.Plain := by
  cases e <;> decide

/-- A field is filtered by one rule only. -/
theorem Entity.filterRule?_of_mem {e : Entity} :
    ∀ rule ∈ e.filterRules, e.filterRule? rule.field = some rule := by
  cases e <;> decide

theorem Entity.plain_name (e : Entity) : e.name.Plain := by cases e <;> decide

theorem Operator.plain_text (op : Operator) : op.text.Plain := by cases op <;> decide

theorem Keyword.plain_text (k : Keyword) : k.text.Plain := by cases k <;> decide

theorem plain_wildcard : wildcard.Plain := by decide

theorem plain_of_mem_chains : ∀ t ∈ chains, t.Plain := by decide

theorem plain_of_mem_dumpFormats : ∀ t ∈ dumpFormats, t.Plain := by decide

namespace Grammar

/-! ### Words that do not begin like keywords -/

/-- **A word of a table**: an item that does not begin like a keyword. -/
structure IsTableWord (x : Text) : Prop extends IsItem x where
  /-- No beginning of the word is a keyword, even if a comma follows. -/
  no_keyword : ∀ k : Keyword, ¬k.text <+: x ++ [',']

/-- A plain word is a word of a table, unless it begins like a keyword. -/
theorem isTableWord_of_plain {x : Text} (h : x.Plain)
    (hk : ∀ k ∈ Keyword.all, ¬k.text <+: x ++ [',']) : IsTableWord x where
  ne_nil := h.ne_nil
  no_blank := h.no_blank
  not_keyword := by
    rintro k - rfl
    exact hk k (Keyword.mem_all k) (List.prefix_append _ _)
  no_comma := h.no_comma
  no_keyword := forall_keyword_iff.mpr hk

theorem isTableWord_of_mem_fields {e : Entity} : ∀ x ∈ e.fields, IsTableWord x := by
  have hk : ∀ x ∈ e.fields, ∀ k ∈ Keyword.all, ¬k.text <+: x ++ [','] := by cases e <;> decide
  exact fun x hx => isTableWord_of_plain (Entity.plain_of_mem_fields x hx) (hk x hx)

theorem isTableWord_of_mem_filterFields {e : Entity} : ∀ x ∈ e.filterFields, IsTableWord x := by
  have hk : ∀ x ∈ e.filterFields, ∀ k ∈ Keyword.all, ¬k.text <+: x ++ [','] := by
    cases e <;> decide
  exact fun x hx => isTableWord_of_plain (Entity.plain_of_mem_filterFields x hx) (hk x hx)

theorem isTableWord_name (e : Entity) : IsTableWord e.name :=
  isTableWord_of_plain e.plain_name (by cases e <;> decide)

theorem isTableWord_of_mem_chains : ∀ x ∈ ChainQuery.chains, IsTableWord x := by
  have hk : ∀ x ∈ ChainQuery.chains, ∀ k ∈ Keyword.all, ¬k.text <+: x ++ [','] := by decide
  exact fun x hx => isTableWord_of_plain (plain_of_mem_chains x hx) (hk x hx)

theorem isTableWord_wildcard : IsTableWord wildcard :=
  isTableWord_of_plain plain_wildcard (by decide)

theorem isField_of_mem_filterFields {e : Entity} : ∀ x ∈ e.filterFields, IsField x := by
  have hid : ∀ x ∈ e.filterFields, ∀ c ∈ x, isIdentifierChar c = true := by cases e <;> decide
  intro x hx
  have hword := isTableWord_of_mem_filterFields x hx
  exact ⟨hword.ne_nil, hid x hx, hword.not_keyword⟩

section IsTableWord

variable {x w : Text}

theorem IsTableWord.no_blank_of_isPrefix (h : IsTableWord x) (hw : w <+: x ++ [',']) :
    ∀ c ∈ w, isBlank c = false := by
  intro c hc
  rcases List.mem_append.mp (hw.subset hc) with hc | hc
  · exact h.no_blank c hc
  · rw [List.mem_singleton.mp hc]
    decide

theorem IsTableWord.ne_keyword_of_isPrefix (h : IsTableWord x) (hw : w <+: x ++ [','])
    (k : Keyword) : w ≠ k.text := by
  rintro rfl
  exact h.no_keyword k hw

theorem IsTableWord.quiet_of_isPrefix (h : IsTableWord x) (hw : w <+: x ++ [',']) : Quiet w :=
  quiet_of_no_blank (h.no_blank_of_isPrefix hw) fun k _ => h.ne_keyword_of_isPrefix hw k

theorem notMem_space_of_no_blank (h : ∀ c ∈ w, isBlank c = false) : ' ' ∉ w := by
  intro hmem
  exact absurd (h ' ' hmem) (by decide)

theorem IsTableWord.notMem_space_of_isPrefix (h : IsTableWord x) (hw : w <+: x ++ [',']) :
    ' ' ∉ w :=
  notMem_space_of_no_blank (h.no_blank_of_isPrefix hw)

theorem IsItem.items (h : IsItem x) : items x = [x] := by
  have := items_blank_solid_blank blank_nil h.solid h.no_comma blank_nil
  rwa [List.nil_append, List.append_nil] at this

/-- What is read of a word that is being typed, of which the comma may have been typed too. -/
theorem IsTableWord.items_of_isPrefix (h : IsTableWord x) (hw : w <+: x ++ [',']) :
    w = [] ∨ (w ≠ [] ∧ w <+: x ∧ items w = [w]) ∨ (w = x ++ [','] ∧ items w = [x]) := by
  rcases List.prefix_concat_iff.mp hw with rfl | hw
  · refine Or.inr (Or.inr ⟨rfl, ?_⟩)
    rw [items_append_comma, h.toIsItem.items, items_nil, List.append_nil]
  · by_cases hne : w = []
    · exact Or.inl hne
    · refine Or.inr (Or.inl ⟨hne, hw, ?_⟩)
      have hitem : IsItem w :=
        { ne_nil := hne
          no_blank := fun c hc => h.no_blank c (hw.subset hc)
          not_keyword := fun k _ =>
            h.ne_keyword_of_isPrefix (hw.trans (List.prefix_append x _)) k
          no_comma := fun hmem => h.no_comma (hw.subset hmem) }
      exact hitem.items

end IsTableWord

end Grammar

end ChainQuery
