import ChainQuery.Proofs.Suggestion.Tables
import ChainQuery.Proofs.Typing.FilterOffers

/-!
# Accepting what is offered

Whoever types a canonical query and accepts a suggestion on the way is not led astray
(`ChainQuery.Typing.accept_of_offered`): what has been accepted takes the place of the word that
was being typed, and the text is sound again. It need not go on to be the query that was meant.
-/

namespace ChainQuery

open Text Token Grammar Suggestion

namespace Typing

variable {e : Entity} {s w t : Text} {l : List Suggestion}

/-- Before a query is opened, only `GET` is offered. -/
theorem eq_get_of_offered (hw : w <+: "GET".toList) (hl : complete w = .ok l) (ht : Offered l t) :
    t = Keyword.fields.text := by
  have hmem : w ∈ "GET".toList.inits := (List.mem_inits _ _).mpr hw
  have hcases : ∀ w ∈ "GET".toList.inits, Keyword.isKeyword (Cursor.fragment w) = true ∨
      (Query.ofText w).lastKeyword = none := by decide
  obtain ⟨hkeyword, hquery⟩ := forQuery_of_offered hl ht
  rcases hcases w hmem with hkeyword' | hlast
  · rw [hkeyword] at hkeyword'
    cases hkeyword'
  · rw [forQuery, hlast] at hquery
    cases hquery
    simpa using ht

/-- **At every slot what is offered can be put in the place of the word.** -/
theorem Slot.sound_of_offered (h : Slot e s w) (hl : complete (s ++ w) = .ok l)
    (ht : Offered l t) : Sound (s ++ t ++ [' ']) := by
  have hplain : t.Plain := plain_of_offered (forQuery_of_offered hl ht).2 ht
  -- behind an entity and in a value it is enough that the word is plain
  cases h with
  | opening hw =>
    rw [eq_get_of_offered hw hl ht]
    have hsound : Sound (Query.opening ++ closed []) :=
      sound_closed (by simp) fun x hx => absurd hx (by simp)
    simpa [Query.opening, Keyword.text] using hsound
  | wildcard hw =>
    have hsound : Sound (Query.opening ++ closed [] ++ t) :=
      sound_of_offered_field (e := e) (by simp) isTableWord_wildcard hw (by simpa using hl) ht
    simpa using hsound.append_blank blank_space
  | field hdone hx hw =>
    exact (sound_of_offered_field hdone (isTableWord_of_mem_fields _ hx) hw hl ht).append_blank
      blank_space
  | whole hs hw =>
    rw [hs.eq_from_of_offered hw hl ht]
    simpa using hs.sound_from
  | name hs hw => exact hs.sound_of_offered_name hw hl ht
  | source hs hlater hstem hstart hw =>
    have hfits := (fits_source_word hs hlater hstem hstart hplain.no_blank).1
    exact (hfits.sound ((ready_source hs hlater hstem hstart).opens_append t)).append_blank
      blank_space
  | filter hs hdone hc hw => exact sound_of_offered_filter hs hdone hc.field hw hl ht
  | operator hs hdone hc hw => exact sound_of_offered_operator hs hdone hc hw hl ht
  | value hs hdone hc hv hstem hsheltered hw hquiet =>
    exact sound_of_plain_value hs hdone hc hv hstem hsheltered hplain
  | chain hs hdone hx hw => exact sound_of_offered_chain hs hdone hx hw hl ht

/-- What stands before the word of a slot is kept when the word is replaced. -/
theorem Slot.accepted (h : Slot e s w) (t : Text) :
    Editor.accepted (s ++ w) t = s ++ t ++ [' '] := by
  rw [Editor.accepted]
  rcases h.stem with rfl | hstem
  · rw [List.nil_append, uptoLast_of_not_mem h.notMem_space]
  · rw [uptoLast_stem hstem h.notMem_space]

/-- **Accepting what is offered is never disturbed**: whatever is offered while a canonical query
is being typed, accepting it succeeds and leaves nothing wrong with the input. -/
theorem accept_of_offered (c : Canonical) (editor : Editor) (hinput : editor.input <+: c.text)
    (hl : complete editor.input = .ok l) {suggestion : Suggestion} (hs : suggestion ∈ l)
    (ht : t ∈ suggestion.offers) :
    (∃ suggestions, (editor.accept t).2 = .ok suggestions) ∧
      (editor.accept t).1.diagnostic = none := by
  obtain ⟨s, w, htext, hslot⟩ := atSlot_of_isPrefix c hinput
  have hsound : Sound (Editor.accepted editor.input t) := by
    rw [htext, hslot.accepted]
    exact hslot.sound_of_offered (htext ▸ hl) ⟨suggestion, hs, ht⟩
  obtain ⟨⟨q, hq⟩, hsuggestions⟩ := hsound.welcome
  have hjudge : Query.judge (Editor.accepted editor.input t) = .ok q := hq
  refine ⟨hsuggestions, ?_⟩
  change Query.diagnostic? (Editor.accepted editor.input t) = none
  rw [Query.diagnostic?, hjudge]

/-- A field of one entity is accepted while a query for another is being typed. -/
theorem accept_within_fields :
    (∃ suggestions, (Editor.accept { input := "GET hash, n".toList } "number".toList).2 =
        .ok suggestions) ∧
      (Editor.accept { input := "GET hash, n".toList } "number".toList).1.diagnostic = none := by
  let c : Canonical :=
    { entity := .transaction
      fields := ["hash".toList, "nonce".toList]
      fields_fit := by decide
      identifier_fits := by decide
      filters_fit := by decide
      chains_fit := by decide }
  have hinput : "GET hash, n".toList <+: c.text := by decide
  have hoffered : complete "GET hash, n".toList =
      .ok [.group .block ["number".toList], .group .transaction ["nonce".toList]] := by decide
  exact accept_of_offered c { input := "GET hash, n".toList } hinput hoffered List.mem_cons_self
    List.mem_cons_self

end Typing

end ChainQuery
