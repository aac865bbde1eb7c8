import ChainQuery.Proofs.Token.Extents

/-!
# The parts of a text on which tokens stand

Neighbouring tokens of a text stand on a part of it, which starts where the first of them starts and
stops where the last of them stops (`ChainQuery.Token.StandOn`). The places are counted in bytes, and
a place that is not the end of a character would cut nothing off; those of tokens all are
(`ChainQuery.Text.IsSlice`). What is between the places is the stretch of the tokens
(`ChainQuery.Token.standOn_stretch`): the texts of the tokens, and the gaps between them as they were
typed.
-/

namespace ChainQuery

open Text

/-- **A slice of a text**: what stands between two places that are counted in bytes. -/
def Text.IsSlice (part : Text) (span : Span) (s : Text) : Prop :=
  ∃ before after, s = before ++ (part ++ after) ∧ span.start = utf8Size before ∧
    span.stop = utf8Size (before ++ part)

namespace Token

/-- **The part of a text on which some neighbouring tokens stand**, from the first byte of the first
token to the last byte of the last one. -/
def StandOn (tokens : List Token) (part s : Text) : Prop :=
  ∃ placed, placed <:+: places s ∧ placed.map Prod.fst = tokens ∧
    ∃ first ∈ placed.head?, ∃ last ∈ placed.getLast?,
      part.IsSlice ⟨first.2.start, last.2.stop⟩ s

/-- The places of tokens among others are counted behind all that precedes them. -/
theorem zip_extents_append (offset : Nat) (tokens more : List Token) :
    (tokens ++ more).zip (extents offset (tokens ++ more)) =
      tokens.zip (extents offset tokens) ++
        more.zip (extents (offset + utf8Size (spelling tokens)) more) := by
  rw [extents_append, List.zip_append (length_extents offset tokens).symm]

/-- The last of some tokens stops behind all that they spell. -/
theorem exists_getLast?_zip_extents {tokens : List Token} (hne : tokens ≠ []) (offset : Nat) :
    ∃ last ∈ (tokens.zip (extents offset tokens)).getLast?,
      last.2.stop = offset + utf8Size (spelling tokens) := by
  obtain ⟨earlier, t, rfl⟩ := List.eq_nil_or_concat' tokens |>.resolve_left hne
  refine ⟨_, by rw [zip_extents_append]; exact List.getLast?_concat, ?_⟩
  simp only [spelling, List.flatMap_append, List.flatMap_cons, List.flatMap_nil, List.append_nil,
    utf8Size_append]
  omega

theorem map_fst_places (s : Text) : (places s).map Prod.fst = tokenize s :=
  List.map_fst_zip (length_extents 0 (tokenize s)).ge

/-- **Tokens at neighbouring places cut out their stretch** of the text, from the first byte of the
first of them to the last byte of the last one. -/
theorem isSlice_of_isInfix_places {s : Text} {placed : List (Token × Span)} (hne : placed ≠ [])
    (h : placed <:+: places s) :
    ∃ first ∈ placed.head?, ∃ last ∈ placed.getLast?,
      (stretch (placed.map Prod.fst)).IsSlice ⟨first.2.start, last.2.stop⟩ s := by
  obtain ⟨before, after, hall⟩ := h
  obtain ⟨earlier, hearlier⟩ : ∃ earlier, earlier = before.map Prod.fst := ⟨_, rfl⟩
  obtain ⟨t, rest, htokens⟩ := List.exists_cons_of_ne_nil (mt List.map_eq_nil_iff.mp hne)
  obtain ⟨later, hlater⟩ : ∃ later, later = after.map Prod.fst := ⟨_, rfl⟩
  set offset := utf8Size (spelling earlier)
  have hsplit : earlier ++ (t :: rest) ++ later = tokenize s := by
    rw [← map_fst_places, ← hall, List.map_append, List.map_append, htokens, hearlier, hlater]
  -- the places are those that are counted behind the earlier tokens
  have hplaced : placed = (t :: rest).zip (extents offset (t :: rest)) := by
    have hplaces : before ++ placed ++ after = earlier.zip (extents 0 earlier) ++
        (t :: rest).zip (extents offset (t :: rest)) ++
          later.zip (extents (0 + utf8Size (spelling (earlier ++ t :: rest))) later) := by
      rw [hall, places, ← hsplit, zip_extents_append, zip_extents_append, Nat.zero_add]
    rw [List.append_assoc, List.append_assoc] at hplaces
    have hlength : before.length = (earlier.zip (extents 0 earlier)).length := by
      simp [hearlier]
    have hrest := (List.append_inj hplaces hlength).2
    have hlength' : placed.length = ((t :: rest).zip (extents offset (t :: rest))).length := by
      rw [List.length_zip, length_extents, min_self, ← htokens, List.length_map]
    exact (List.append_inj hrest hlength').1
  obtain ⟨last, hlast, hstop⟩ := exists_getLast?_zip_extents (List.cons_ne_nil t rest) offset
  rw [htokens]
  refine ⟨(t, ⟨offset + utf8Size t.gap, offset + utf8Size t.gap + utf8Size t.text⟩),
    by rw [hplaced]; rfl, last, hplaced ▸ hlast, spelling earlier ++ t.gap,
    spelling later ++ blankEnd s, ?_, ?_, ?_⟩
  · calc s = spelling (tokenize s) ++ blankEnd s := by
          rw [spelling_tokenize, trimEnd_append_blankEnd]
      _ = spelling earlier ++ t.gap ++
          (stretch (t :: rest) ++ (spelling later ++ blankEnd s)) := by
          rw [← hsplit]
          simp [spelling, stretch]
  · rw [utf8Size_append]
  · rw [hstop]
    simp only [offset, spelling, stretch, List.flatMap_cons, utf8Size_append]
    omega

/-- **Neighbouring tokens of a text stand on their stretch.** -/
theorem standOn_stretch {s : Text} {tokens : List Token} (hne : tokens ≠ [])
    (h : tokens <:+: tokenize s) : StandOn tokens (stretch tokens) s := by
  rw [← map_fst_places, List.infix_map_iff] at h
  obtain ⟨placed, hplaced, rfl⟩ := h
  refine ⟨placed, hplaced, rfl, isSlice_of_isInfix_places ?_ hplaced⟩
  rintro rfl
  exact hne rfl

end Token

end ChainQuery
