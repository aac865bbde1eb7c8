import ChainQuery.Text.Basic

/-!
# The pieces of a text

A separator cuts a text into **pieces**, one more of them than there are separators. The last
piece is what follows the last separator, and `ChainQuery.Text.uptoLast` is the rest of the
text: put together they are the text again
(`ChainQuery.Text.uptoLast_append_getLastD_pieces`), so that replacing the last piece leaves
everything before it as it was.
-/

namespace ChainQuery

namespace Text

/-- The texts between the occurrences of `sep`, in order. There is one more of them than
there are occurrences, so there is always one. -/
def pieces (sep : Char) : Text → List Text
  | [] => [[]]
  | c :: s =>
    if c = sep then [] :: pieces sep s else (pieces sep s).modifyHead (c :: ·)

/-- The text up to and including the last occurrence of `sep`; nothing if there is none. -/
def uptoLast (sep : Char) : Text → Text
  | [] => []
  | c :: s =>
    match uptoLast sep s with
    | [] => if c = sep then [c] else []
    | kept => c :: kept

/-! ### Pieces -/

@[simp] theorem pieces_nil (sep : Char) : pieces sep [] = [[]] := rfl

@[simp] theorem pieces_cons_self (sep : Char) (s : Text) :
    pieces sep (sep :: s) = [] :: pieces sep s := by
  simp [pieces]

theorem pieces_cons_of_ne {sep c : Char} (h : c ≠ sep) (s : Text) :
    pieces sep (c :: s) = (pieces sep s).modifyHead (c :: ·) := by
  simp [pieces, h]

/-- There is one more piece than there are separators. -/
theorem length_pieces (sep : Char) (s : Text) :
    (pieces sep s).length = s.count sep + 1 := by
  induction s with
  | nil => rfl
  | cons c s ih =>
    by_cases h : c = sep
    · subst h
      simp [ih]
    · simp [pieces_cons_of_ne h, ih, h]

theorem pieces_ne_nil (sep : Char) (s : Text) : pieces sep s ≠ [] := by
  intro h
  have := length_pieces sep s
  simp [h] at this

/-- A text without the separator is a single piece. -/
theorem pieces_of_not_mem {sep : Char} {s : Text} (h : sep ∉ s) : pieces sep s = [s] := by
  induction s with
  | nil => rfl
  | cons c s ih =>
    have hc : c ≠ sep := fun hc => h (hc ▸ List.mem_cons_self)
    rw [pieces_cons_of_ne hc, ih fun hs => h (List.mem_cons_of_mem c hs)]
    rfl

/-! ### The last piece and what precedes it -/

theorem uptoLast_of_not_mem {sep : Char} {s : Text} (h : sep ∉ s) : uptoLast sep s = [] := by
  induction s with
  | nil => rfl
  | cons c s ih =>
    have hc : c ≠ sep := fun hc => h (hc ▸ List.mem_cons_self)
    simp [uptoLast, ih fun hs => h (List.mem_cons_of_mem c hs), hc]

theorem uptoLast_ne_nil_of_mem {sep : Char} {s : Text} (h : sep ∈ s) :
    uptoLast sep s ≠ [] := by
  induction s with
  | nil => simp at h
  | cons c s ih =>
    cases hs : uptoLast sep s with
    | nil =>
      have hc : c = sep := by
        rcases List.mem_cons.1 h with hc | hmem
        · exact hc.symm
        · exact absurd hs (ih hmem)
      simp [uptoLast, hs, hc]
    | cons d kept => simp [uptoLast, hs]

theorem uptoLast_cons_of_mem {sep : Char} {s : Text} (h : sep ∈ s) (c : Char) :
    uptoLast sep (c :: s) = c :: uptoLast sep s := by
  cases hs : uptoLast sep s with
  | nil => exact absurd hs (uptoLast_ne_nil_of_mem h)
  | cons d kept => simp [uptoLast, hs]

/-- A character before a separator is not in the last piece. -/
theorem getLastD_pieces_cons_of_mem {sep : Char} {s : Text} (h : sep ∈ s) (c : Char) :
    (pieces sep (c :: s)).getLastD [] = (pieces sep s).getLastD [] := by
  have hlong : 2 ≤ (pieces sep s).length := by
    have := List.count_pos_iff.2 h
    rw [length_pieces]
    omega
  obtain ⟨piece, next, rest, hs⟩ : ∃ piece next rest, pieces sep s = piece :: next :: rest := by
    match hs : pieces sep s with
    | [] | [_] => simp [hs] at hlong
    | piece :: next :: rest => exact ⟨piece, next, rest, rfl⟩
  by_cases hc : c = sep
  · subst hc
    simp [hs]
  · simp [pieces_cons_of_ne hc, hs]

/-- The text up to the last separator and the last of the pieces are the whole text. -/
theorem uptoLast_append_getLastD_pieces (sep : Char) (s : Text) :
    uptoLast sep s ++ (pieces sep s).getLastD [] = s := by
  induction s with
  | nil => rfl
  | cons c s ih =>
    by_cases hs : sep ∈ s
    · rw [uptoLast_cons_of_mem hs, getLastD_pieces_cons_of_mem hs, List.cons_append, ih]
    · by_cases hc : c = sep
      · subst hc
        simp [pieces_of_not_mem hs, uptoLast, uptoLast_of_not_mem hs]
      · simp [pieces_cons_of_ne hc, pieces_of_not_mem hs, uptoLast, uptoLast_of_not_mem hs, hc]

end Text

end ChainQuery
