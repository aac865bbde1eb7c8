import ChainQuery.Editor
import ChainQuery.Proofs.Query.Growth
import ChainQuery.Proofs.Suggestion.Failures
import ChainQuery.Proofs.Suggestion.Tables

/-!
# What accepting a suggestion leaves alone

A suggestion that is accepted takes the place of the word that is being typed, which is everything
behind the last space. Suggestions are made for the *item* that is being typed, which is everything
behind the last comma of the list. As long as no comma stands in the word the two are the same, and
all items but the last stay what they are. If one does, the items before it go with the word
(`ChainQuery.Editor.replaced_of_accept`).

What can become of a list is the same for fields, filters and chains (`ChainQuery.Replaced`), since
all of them grow at their end (`ChainQuery.Grows`). Chains have it better than the others: nothing
is offered for a word with a comma in it.
-/

namespace ChainQuery

open Text Suggestion

/-! ### Lists of which the last item is typed -/

/-- **A list, and what it becomes when the word at its end is replaced.** The word may hold a comma,
and what takes its place holds none. -/
structure Replaced {α : Type} (old new : List α) (comma : Prop) : Prop where
  /-- Only the last item of the list can be new. -/
  dropLast_isPrefix : new.dropLast <+: old
  /-- All items but the last are kept, unless there was a comma. -/
  keeps : ¬comma → old.dropLast <+: new
  /-- They are kept exactly if no other item is missing. -/
  keeps_iff : old.dropLast <+: new ↔ old.length ≤ new.length ∨ new = old.dropLast

theorem dropLast_append_isPrefix {α : Type} (earlier : List α) {later : List α}
    (h : later.length ≤ 1) (more : List α) : (earlier ++ later).dropLast <+: earlier ++ more := by
  cases later with
  | nil =>
    rw [List.append_nil]
    exact (List.dropLast_prefix earlier).trans (List.prefix_append earlier more)
  | cons x rest =>
    obtain rfl : rest = [] := List.eq_nil_of_length_eq_zero (by simpa using h)
    rw [List.dropLast_concat]
    exact List.prefix_append earlier more

/-- **Where a list grows, its end can be replaced.** -/
theorem Grows.replaced {α β : Type} {comma : α → Prop} {list : α → List β} (h : Grows comma list)
    (a : α) {b : α} (hb : ¬comma b) : Replaced (list a) (list b) (comma a) := by
  obtain ⟨earlier, h⟩ := h
  obtain ⟨old, hold, honeold⟩ := h a
  obtain ⟨new, hnew, honenew⟩ := h b
  have hone := honenew hb
  rw [hold, hnew]
  refine ⟨dropLast_append_isPrefix earlier hone old,
    fun ha => dropLast_append_isPrefix earlier (honeold ha) new, fun hkeeps => ?_, ?_⟩
  · -- a shorter list that still begins with all items but the last is these items
    refine or_iff_not_imp_left.mpr fun hshort => (hkeeps.eq_of_length ?_).symm
    have hlength := hkeeps.length_le
    rw [List.length_dropLast] at hlength ⊢
    omega
  · rintro (hlong | heq)
    · refine dropLast_append_isPrefix earlier ?_ new
      rw [List.length_append, List.length_append] at hlong
      omega
    · simp only [heq, List.prefix_rfl]

/-! ### The word that is being typed -/

namespace Cursor

variable {raw : Text}

theorem uptoLast_append_fragment (raw : Text) : uptoLast ' ' raw ++ fragment raw = raw :=
  uptoLast_append_getLastD_pieces ' ' raw

/-- What stands before the word ends in a space, if anything stands there. -/
theorem uptoLast_cases (raw : Text) : uptoLast ' ' raw = [] ∨ blankEnd (uptoLast ' ' raw) ≠ [] := by
  obtain ⟨w, hw, rfl | ⟨v, rfl⟩⟩ := exists_isAfterLast ' ' raw
  · exact Or.inl (uptoLast_of_not_mem hw)
  · rw [uptoLast_append_sep hw]
    exact Or.inr (stem_concat v).blankEnd

/-- The word that is being typed is a part of the last word, but for white space. -/
theorem mem_lastWord {c : Char} (hc : c ∈ fragment raw) (hblank : isBlank c = false) :
    c ∈ lastWord raw := by
  have hnot {w : Text} (hw : Blank w) : c ∉ w := fun hmem => by
    rw [hw c hmem] at hblank
    cases hblank
  have hsuffix : fragment raw <:+ raw := ⟨_, uptoLast_append_fragment raw⟩
  obtain ⟨a, b, ha, hb, hsplit⟩ := exists_eq_blank_trim_blank raw
  obtain ⟨-, hword | ⟨y, hword⟩⟩ := lastWord_eq_iff.mp (rfl : lastWord raw = lastWord raw)
  · -- there is no other word
    have hmem := hsuffix.subset hc
    rw [hsplit, hword, List.mem_append, List.mem_append] at hmem
    exact (hmem.resolve_right (hnot hb)).resolve_left (hnot ha)
  · have hspace : ' ' ∉ fragment raw := (fragment_eq_iff.mp rfl).1
    have hlast : ' ' :: (lastWord raw ++ b) <:+ raw := by
      refine ⟨a ++ y, ?_⟩
      rw [hword] at hsplit
      simpa using hsplit.symm
    rcases List.suffix_or_suffix_of_suffix hsuffix hlast with h | h
    · have hmem := h.subset hc
      rw [List.mem_cons, List.mem_append] at hmem
      refine (hmem.resolve_left ?_).resolve_right (hnot hb)
      rintro rfl
      exact absurd hblank (by decide)
    · exact absurd (h.subset List.mem_cons_self) hspace

end Cursor

namespace Editor

variable {l : List Suggestion} {t : Text} {raw : Text}

/-- **Chains are offered for a word without commas only.** -/
theorem comma_notMem_fragment (hl : complete raw = .ok l) (h : Offered l t)
    (hlast : (Query.ofText raw).lastKeyword = some .chains) : ',' ∉ Cursor.fragment raw := by
  obtain ⟨-, hquery⟩ := forQuery_of_offered hl h
  have hplain : t.Plain := plain_of_offered hquery h
  rw [forQuery, hlast] at hquery
  cases hquery
  rw [forChains] at h
  split at h
  next hpause =>
    -- behind a space no word is being typed
    rw [Bool.and_eq_true, Cursor.atPause, Bool.and_eq_true] at hpause
    have hstem : Stem raw := Query.lastIs_space_iff.mp hpause.2.1
    obtain ⟨r, hr⟩ := hstem.exists_eq
    have hnil : Cursor.fragment raw = [] := Cursor.fragment_eq_iff.mpr ⟨by simp, Or.inr ⟨r, hr⟩⟩
    rw [hnil]
    exact List.not_mem_nil
  split at h
  next hon =>
    intro hcomma
    have hmem := Cursor.mem_lastWord hcomma (by decide)
    rw [hon] at hmem
    exact absurd hmem (by decide)
  split at h
  · exact absurd h (not_offered_nil t)
  · intro hcomma
    obtain ⟨hbegin, -⟩ := List.mem_filter.mp (offered_words.mp h)
    have hbegins : Cursor.fragment raw <+: t := by
      simpa [beginsWith] using (List.mem_filter.mp hbegin).2
    exact hplain.no_comma (hbegins.subset hcomma)

/-- **What accepting a suggestion does to the list that is being typed.** All items but the last
stay what they are, unless there is a comma in the word that is replaced; then some may be lost, but
nothing is put in their place. Chains are never lost. -/
theorem replaced_of_accept (editor : Editor) (hl : complete editor.input = .ok l)
    (h : Offered l t) :
    ((Query.ofText editor.input).lastKeyword = some .fields →
      Replaced (Query.ofText editor.input).fieldList
        (Query.ofText (editor.accept t).1.input).fieldList (',' ∈ Cursor.fragment editor.input)) ∧
    ((Query.ofText editor.input).lastKeyword = some .filters →
      Replaced (Query.ofText editor.input).filterList
        (Query.ofText (editor.accept t).1.input).filterList
        (',' ∈ Cursor.fragment editor.input)) ∧
    ((Query.ofText editor.input).lastKeyword = some .chains →
      Replaced (Query.ofText editor.input).chainList
        (Query.ofText (editor.accept t).1.input).chainList False) := by
  obtain ⟨raw, suggestions, diagnostic, outcomes⟩ := editor
  have hplain : t.Plain := plain_of_offered (forQuery_of_offered hl h).2 h
  have hcomma : ',' ∉ t ++ [' '] := by simp [hplain.no_comma]
  have haccept : (Editor.accept ⟨raw, suggestions, diagnostic, outcomes⟩ t).1.input =
      uptoLast ' ' raw ++ (t ++ [' ']) := List.append_assoc _ _ _
  have hkept := Cursor.uptoLast_cases raw
  have hall := Cursor.uptoLast_append_fragment raw
  rw [haccept]
  refine ⟨fun _ => ?_, fun _ => ?_, fun hlast => ?_⟩
  · have hfields := (Query.grows_fieldList hkept).replaced (Cursor.fragment raw) hcomma
    simpa only [hall] using hfields
  · have hfilters := (Query.grows_filterList hkept).replaced (Cursor.fragment raw) hcomma
    simpa only [hall] using hfilters
  · have hchains := (Query.grows_chainList hkept).replaced (Cursor.fragment raw) hcomma
    simp only [hall] at hchains
    exact ⟨hchains.dropLast_isPrefix, fun _ => hchains.keeps (comma_notMem_fragment hl h hlast),
      hchains.keeps_iff⟩

/-- The field before the comma is kept, since a space stands behind the comma. -/
theorem replaced_behind_space :
    complete "GET nonce, bal".toList = .ok [.word "balance".toList] ∧
      (Query.ofText "GET nonce, bal".toList).fieldList = ["nonce".toList, "bal".toList] ∧
      ["nonce".toList] <+: (Query.ofText (Editor.accept { input := "GET nonce, bal".toList }
        "balance".toList).1.input).fieldList := by
  have hl : complete "GET nonce, bal".toList = .ok [.word "balance".toList] := by decide +kernel
  have hfields : (Query.ofText "GET nonce, bal".toList).fieldList =
      ["nonce".toList, "bal".toList] := by
    decide +kernel
  have hcomma : ',' ∉ Cursor.fragment "GET nonce, bal".toList := by decide
  have hkeeps := ((replaced_of_accept { input := "GET nonce, bal".toList } hl
    ⟨_, List.mem_singleton_self _, List.mem_singleton_self _⟩).1 (by decide +kernel)).keeps hcomma
  refine ⟨hl, hfields, ?_⟩
  rwa [hfields] at hkeeps

/-- **Without the space the field before the comma is lost.** -/
theorem not_kept_behind_comma :
    complete "GET nonce,bal".toList = .ok [.word "balance".toList] ∧
      (Query.ofText "GET nonce,bal".toList).lastKeyword = some .fields ∧
      (Query.ofText "GET nonce,bal".toList).fieldList = ["nonce".toList, "bal".toList] ∧
      (Editor.accept { input := "GET nonce,bal".toList } "balance".toList).1.input =
        "GET balance ".toList ∧
      ¬(Query.ofText "GET nonce,bal".toList).fieldList.dropLast <+:
        (Query.ofText (Editor.accept { input := "GET nonce,bal".toList }
          "balance".toList).1.input).fieldList := by
  decide +kernel

end Editor

end ChainQuery
