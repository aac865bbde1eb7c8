import ChainQuery.Query.Reading
import ChainQuery.Proofs.Text.Trimming

/-!
# The items of a list

A list of fields, or of chains, is a text cut at its commas: the **items** are the pieces
without the white space around them, and empty pieces are none. Cutting is local. A comma
divides the text into two whose items are those of the whole, one after the other
(`ChainQuery.Text.items_append_comma`), so that the items of a list are known as soon as those
of a text without commas are (`ChainQuery.Text.items_of_not_mem`); and white space around the
whole says nothing (`ChainQuery.Text.items_trim`).
-/

namespace ChainQuery

namespace Text

/-! ### Pieces on both sides of a separator -/

/-- A separator divides the pieces of a text: those before it and those behind it are the
pieces of two texts of their own. -/
theorem pieces_append_sep (sep : Char) (s t : Text) :
    pieces sep (s ++ sep :: t) = pieces sep s ++ pieces sep t := by
  induction s with
  | nil => simp
  | cons c s ih =>
    by_cases hc : c = sep
    · subst hc
      simp [ih]
    · obtain ⟨piece, rest, hs⟩ := List.exists_cons_of_ne_nil (pieces_ne_nil sep s)
      rw [List.cons_append, pieces_cons_of_ne hc, pieces_cons_of_ne hc, ih, hs]
      rfl

/-- The last piece of a text is what follows its last separator. -/
theorem getLastD_pieces_append_sep {sep : Char} {t : Text} (ht : sep ∉ t) (s : Text) :
    (pieces sep (s ++ sep :: t)).getLastD [] = t := by
  rw [pieces_append_sep, pieces_of_not_mem ht, List.getLastD_concat]

/-- The text up to its last separator. -/
theorem uptoLast_append_sep {sep : Char} {t : Text} (ht : sep ∉ t) (s : Text) :
    uptoLast sep (s ++ sep :: t) = s ++ [sep] := by
  have h := uptoLast_append_getLastD_pieces sep (s ++ sep :: t)
  rw [getLastD_pieces_append_sep ht] at h
  refine (List.append_left_inj t).mp ?_
  rw [h]
  simp

/-- To prove something of every text it is enough to prove it of the texts without the
separator, and to carry it over a separator to the left. -/
@[elab_as_elim]
theorem induction_on_separator {motive : Text → Prop} (sep : Char)
    (whole : ∀ s, sep ∉ s → motive s)
    (more : ∀ s t, sep ∉ s → motive t → motive (s ++ sep :: t)) (s : Text) : motive s := by
  induction hn : s.length using Nat.strong_induction_on generalizing s with
  | h n ih =>
    by_cases hs : sep ∈ s
    · obtain ⟨a, b, rfl, ha⟩ := List.eq_append_cons_of_mem hs
      refine more a b ha (ih b.length ?_ b rfl)
      subst hn
      simp only [List.length_append, List.length_cons]
      omega
    · exact whole s hs

/-! ### What follows the last separator -/

/-- **The text after the last separator**, which is the whole text if there is no separator. -/
def IsAfterLast (sep : Char) (w s : Text) : Prop := sep ∉ w ∧ (s = w ∨ ∃ v, s = v ++ sep :: w)

theorem exists_isAfterLast (sep : Char) (s : Text) : ∃ w, IsAfterLast sep w s := by
  induction s using induction_on_separator sep with
  | whole s hs => exact ⟨s, hs, Or.inl rfl⟩
  | more s t _ ih =>
    obtain ⟨w, hw, rfl | ⟨v, rfl⟩⟩ := ih
    · exact ⟨t, hw, Or.inr ⟨s, rfl⟩⟩
    · exact ⟨w, hw, Or.inr ⟨s ++ sep :: v, by simp⟩⟩

/-- A text that does not end in the separator ends as what follows the last separator. -/
theorem IsAfterLast.getLast? {sep c : Char} {w s : Text} (h : IsAfterLast sep w s) (hc : c ≠ sep)
    (hs : s.getLast? = some c) : w.getLast? = some c := by
  obtain ⟨-, rfl | ⟨v, rfl⟩⟩ := h
  · exact hs
  · rw [List.getLast?_append_of_ne_nil v (List.cons_ne_nil sep w), List.getLast?_cons] at hs
    cases hw : w.getLast? with
    | none =>
      rw [hw, Option.getD_none, Option.some.injEq] at hs
      exact absurd hs.symm hc
    | some d => rwa [hw, Option.getD_some] at hs

theorem IsAfterLast.getLastD_pieces {sep : Char} {w s : Text} (h : IsAfterLast sep w s) :
    (pieces sep s).getLastD [] = w := by
  obtain ⟨hw, rfl | ⟨v, rfl⟩⟩ := h
  · rw [pieces_of_not_mem hw]
    rfl
  · exact getLastD_pieces_append_sep hw v

/-- **The last of the pieces of a text is what follows its last separator.** -/
theorem getLastD_pieces_eq_iff {sep : Char} {w s : Text} :
    (pieces sep s).getLastD [] = w ↔ IsAfterLast sep w s := by
  constructor
  · rintro rfl
    obtain ⟨w, hw⟩ := exists_isAfterLast sep s
    rwa [hw.getLastD_pieces]
  · exact IsAfterLast.getLastD_pieces

/-! ### Items on both sides of a comma -/

@[simp] theorem items_nil : items [] = [] := rfl

/-- **A comma divides the items of a list.** -/
theorem items_append_comma (s t : Text) : items (s ++ ',' :: t) = items s ++ items t := by
  rw [items, pieces_append_sep, List.map_append, List.filter_append, items, items]

/-- A text without commas is one item, or none. -/
theorem items_of_not_mem {s : Text} (h : ',' ∉ s) :
    items s = if (trim s).isEmpty then [] else [trim s] := by
  rw [items, pieces_of_not_mem h]
  by_cases hs : (trim s).isEmpty = true <;> simp [hs]

theorem items_of_blank {s : Text} (h : Blank s) : items s = [] := by
  have hcomma : ',' ∉ s := fun hmem => absurd (h ',' hmem) (by decide)
  rw [items_of_not_mem hcomma, trim_eq_nil_iff.mpr h]
  rfl

/-- A solid text between two blanks is one item. -/
theorem items_blank_solid_blank {v s w : Text} (hv : Blank v) (hs : Solid s) (hcomma : ',' ∉ s)
    (hw : Blank w) : items (v ++ s ++ w) = [s] := by
  have hne : ∀ {u : Text}, Blank u → ',' ∉ u :=
    fun hu hmem => absurd (hu ',' hmem) (by decide)
  have hmem : ',' ∉ v ++ s ++ w := by
    simp [hne hv, hcomma, hne hw]
  rw [items_of_not_mem hmem, trim_blank_solid_blank hv hs hw]
  simp [hs.ne_nil]

/-! ### White space around a list -/

theorem items_blank_append {w : Text} (hw : Blank w) (s : Text) : items (w ++ s) = items s := by
  have hcomma : ',' ∉ w := fun hmem => absurd (hw ',' hmem) (by decide)
  induction s using induction_on_separator ',' with
  | whole s hs =>
    rw [items_of_not_mem (by simp [hcomma, hs]), items_of_not_mem hs, trim_blank_append hw]
  | more s t hs _ =>
    rw [← List.append_assoc, items_append_comma, items_append_comma,
      items_of_not_mem (by simp [hcomma, hs]), items_of_not_mem hs, trim_blank_append hw]

theorem items_append_blank (s : Text) {w : Text} (hw : Blank w) : items (s ++ w) = items s := by
  have hcomma : ',' ∉ w := fun hmem => absurd (hw ',' hmem) (by decide)
  induction s using induction_on_separator ',' with
  | whole s hs =>
    rw [items_of_not_mem (by simp [hcomma, hs]), items_of_not_mem hs, trim_append_blank _ hw]
  | more s t hs ih =>
    rw [List.append_assoc, List.cons_append, items_append_comma, items_append_comma, ih]

/-- **White space around a list says nothing.** -/
@[simp] theorem items_trim (s : Text) : items (trim s) = items s := by
  obtain ⟨v, w, hv, hw, hs⟩ := exists_eq_blank_trim_blank s
  calc items (trim s) = items (v ++ trim s ++ w) := by
        rw [items_append_blank _ hw, items_blank_append hv]
    _ = items s := by rw [← hs]

/-! ### What stands in the items -/

/-- A character that is neither white space nor a comma stands in an item. -/
theorem exists_mem_items_of_mem {c : Char} (hblank : isBlank c = false) (hcomma : c ≠ ',')
    {s : Text} (hc : c ∈ s) : ∃ item ∈ items s, c ∈ item := by
  have hwhole {t : Text} (ht : ',' ∉ t) (hc : c ∈ t) : ∃ item ∈ items t, c ∈ item := by
    obtain ⟨v, w, hv, hw, hsplit⟩ := exists_eq_blank_trim_blank t
    rw [hsplit, List.mem_append, List.mem_append] at hc
    have hmem : c ∈ trim t := by
      rcases hc with (hc | hc) | hc
      · rw [hv c hc] at hblank
        cases hblank
      · exact hc
      · rw [hw c hc] at hblank
        cases hblank
    refine ⟨trim t, ?_, hmem⟩
    rw [items_of_not_mem ht, if_neg (by simp [List.ne_nil_of_mem hmem])]
    exact List.mem_singleton_self _
  induction s using induction_on_separator ',' with
  | whole s hs => exact hwhole hs hc
  | more s t hs ih =>
    rw [items_append_comma]
    rw [List.mem_append, List.mem_cons] at hc
    rcases hc with hc | rfl | hc
    · obtain ⟨item, hitem, hc⟩ := hwhole hs hc
      exact ⟨item, List.mem_append_left _ hitem, hc⟩
    · exact absurd rfl hcomma
    · obtain ⟨item, hitem, hc⟩ := ih hc
      exact ⟨item, List.mem_append_right _ hitem, hc⟩

/-- **A list has no items exactly when it is made of commas and white space.** -/
theorem items_eq_nil_iff {s : Text} : items s = [] ↔ ∀ c ∈ s, isBlank c = true ∨ c = ',' := by
  constructor
  · intro h c hc
    by_contra hcon
    rw [not_or, Bool.not_eq_true] at hcon
    obtain ⟨item, hitem, -⟩ := exists_mem_items_of_mem hcon.1 hcon.2 hc
    rw [h] at hitem
    cases hitem
  · intro h
    induction s using induction_on_separator ',' with
    | whole s hs =>
      refine items_of_blank fun c hc => (h c hc).resolve_right ?_
      rintro rfl
      exact hs hc
    | more s t hs ih =>
      have hblank : Blank s := by
        refine fun c hc => (h c (List.mem_append_left _ hc)).resolve_right ?_
        rintro rfl
        exact hs hc
      rw [items_append_comma, items_of_blank hblank, List.nil_append]
      exact ih fun c hc => h c (List.mem_append_right _ (List.mem_cons_of_mem _ hc))

end Text

end ChainQuery
