import ChainQuery.Proofs.Text.Items
import ChainQuery.Proofs.Token.Marking

/-!
# Lists that are being typed

A list is written with a comma and a space between its items (`ChainQuery.Text.joined`). While it
is being typed there are some items that are finished, each with the comma and the space behind
it (`ChainQuery.Text.closed`), and then the beginning of another
(`ChainQuery.Text.exists_of_prefix_joined`).

What is being typed is the part behind the last space, the only one that a suggestion replaces;
before it stands a **stem**, a text that ends in a space.
-/

namespace ChainQuery

open Token

namespace Text

/-! ### The beginnings of a text -/

/-- A beginning of two texts ends in the first, or goes on into the second. -/
theorem prefix_append_iff {p s t : Text} :
    p <+: s ++ t ↔ p <+: s ∨ ∃ u, p = s ++ u ∧ u <+: t := by
  constructor
  · intro h
    rcases List.prefix_or_prefix_of_prefix h (List.prefix_append s t) with hp | ⟨u, rfl⟩
    · exact Or.inl hp
    · exact Or.inr ⟨u, rfl, (List.prefix_append_right_inj s).mp h⟩
  · rintro (h | ⟨u, rfl, hu⟩)
    · exact h.trans (List.prefix_append s t)
    · exact (List.prefix_append_right_inj s).mpr hu

/-! ### Lists and their beginnings -/

/-- **A list as it is written.** -/
def joined (xs : List Text) : Text := List.intercalate [',', ' '] xs

/-- **The finished items of a list** that goes on. -/
def closed (xs : List Text) : Text := xs.flatMap fun x => x ++ [',', ' ']

@[simp] theorem closed_nil : closed [] = [] := rfl

@[simp] theorem closed_cons (x : Text) (xs : List Text) :
    closed (x :: xs) = x ++ ',' :: ' ' :: closed xs := by
  simp [closed]

@[simp] theorem joined_singleton (x : Text) : joined [x] = x := List.intercalate_singleton

theorem joined_cons_cons (x y : Text) (xs : List Text) :
    joined (x :: y :: xs) = x ++ [','] ++ ' ' :: joined (y :: xs) := by
  rw [joined, List.intercalate_cons_cons, ← joined]
  simp

/-- A list is made of its first items, all finished, and the list of those behind them. -/
theorem joined_append_cons (xs : List Text) (x : Text) (ys : List Text) :
    joined (xs ++ x :: ys) = closed xs ++ joined (x :: ys) := by
  induction xs with
  | nil => rfl
  | cons y xs ih =>
    obtain ⟨z, zs, hz⟩ := List.exists_cons_of_ne_nil (List.append_ne_nil_of_right_ne_nil xs
      (List.cons_ne_nil x ys))
    rw [List.cons_append, hz, joined_cons_cons, ← hz, ih]
    simp

theorem isPrefix_joined_cons (x : Text) (xs : List Text) : x <+: joined (x :: xs) := by
  cases xs with
  | nil => simp
  | cons y ys =>
    rw [joined_cons_cons, List.append_assoc]
    exact List.prefix_append x _

/-- The last item of a list is the only one that is not closed. -/
theorem joined_concat (xs : List Text) (x : Text) : joined (xs ++ [x]) = closed xs ++ x := by
  rw [joined_append_cons, joined_singleton]

theorem exists_joined_eq {xs : List Text} (h : xs ≠ []) :
    ∃ done x, xs = done ++ [x] ∧ joined xs = closed done ++ x := by
  obtain ⟨done, x, rfl⟩ := (List.eq_nil_or_concat' xs).resolve_left h
  exact ⟨done, x, rfl, joined_concat done x⟩

/-- **The beginning of a list** is made of some of its items, all finished, and a beginning of the
next, which may have got as far as the comma. -/
theorem exists_of_prefix_joined {xs : List Text} (hne : xs ≠ []) {p : Text}
    (h : p <+: joined xs) :
    ∃ done x later w, xs = done ++ x :: later ∧ p = closed done ++ w ∧ w <+: x ++ [','] := by
  induction xs generalizing p with
  | nil => exact absurd rfl hne
  | cons x xs ih =>
    cases xs with
    | nil =>
      rw [joined_singleton] at h
      exact ⟨[], x, [], p, rfl, rfl, h.trans (List.prefix_append x _)⟩
    | cons y ys =>
      rw [joined_cons_cons] at h
      -- the beginning ends in the first item, right behind its comma, or in the later ones
      rcases prefix_append_iff.mp h with hp | ⟨u, rfl, hu⟩
      · exact ⟨[], x, y :: ys, p, rfl, rfl, hp⟩
      · cases u with
        | nil => exact ⟨[], x, y :: ys, x ++ [','], rfl, by simp, List.prefix_rfl⟩
        | cons c u =>
          obtain ⟨rfl, hrest⟩ := List.cons_prefix_cons.mp hu
          obtain ⟨done, z, later, w, hxs, rfl, hw⟩ := ih (by simp) hrest
          exact ⟨x :: done, z, later, w, by rw [hxs, List.cons_append], by simp, hw⟩

/-! ### Items and keywords -/

theorem items_closed_append {xs : List Text} (h : ∀ x ∈ xs, Solid x ∧ ',' ∉ x) (s : Text) :
    items (closed xs ++ s) = xs ++ items s := by
  induction xs with
  | nil => rfl
  | cons x xs ih =>
    obtain ⟨hsolid, hcomma⟩ := h x List.mem_cons_self
    have hx : items x = [x] := by
      have := items_blank_solid_blank blank_nil hsolid hcomma blank_nil
      rwa [List.nil_append, List.append_nil] at this
    have hlater : items (' ' :: (closed xs ++ s)) = items (closed xs ++ s) :=
      items_blank_append blank_space _
    rw [closed_cons, List.append_assoc, List.cons_append, List.cons_append, items_append_comma, hx,
      hlater, ih fun y hy => h y (List.mem_cons_of_mem x hy)]
    rfl

theorem quiet_closed_append {xs : List Text} (h : ∀ x ∈ xs, Quiet x) {s : Text} (hs : Quiet s) :
    Quiet (closed xs ++ s) := by
  induction xs with
  | nil => exact hs
  | cons x xs ih =>
    have hlater : Quiet (closed xs ++ s) := ih fun y hy => h y (List.mem_cons_of_mem x hy)
    have hspace : Quiet ([' '] ++ (closed xs ++ s)) := hlater.blank_append blank_space
    have := (h x List.mem_cons_self).append_comma hspace
    simpa using this

/-! ### Stems -/

/-- **A stem** ends in a space. -/
def Stem (s : Text) : Prop := [' '] <:+ s

theorem stem_concat (s : Text) : Stem (s ++ [' ']) := List.suffix_append s _

theorem Stem.append {t : Text} (h : Stem t) (s : Text) : Stem (s ++ t) :=
  h.trans (List.suffix_append s t)

theorem Stem.exists_eq {s : Text} (h : Stem s) : ∃ r, s = r ++ [' '] := by
  obtain ⟨r, rfl⟩ := h
  exact ⟨r, rfl⟩

theorem Stem.ne_nil {s : Text} (h : Stem s) : s ≠ [] := by
  obtain ⟨r, rfl⟩ := h.exists_eq
  simp

/-- Finished items end in a comma and a space. -/
theorem exists_closed_eq {xs : List Text} (h : xs ≠ []) : ∃ r, closed xs = r ++ [','] ++ [' '] := by
  obtain ⟨done, x, rfl⟩ := (List.eq_nil_or_concat' xs).resolve_left h
  exact ⟨closed done ++ x, by simp [closed]⟩

/-- Finished items make a stem. -/
theorem stem_closed {xs : List Text} (h : xs ≠ []) : Stem (closed xs) := by
  obtain ⟨r, hr⟩ := exists_closed_eq h
  rw [hr]
  exact stem_concat _

theorem Stem.append_closed {s : Text} (h : Stem s) (xs : List Text) : Stem (s ++ closed xs) := by
  by_cases hne : xs = []
  · subst hne
    simpa using h
  · exact (stem_closed hne).append s

theorem Stem.blankEnd {s : Text} (h : Stem s) : blankEnd s ≠ [] := by
  obtain ⟨r, rfl⟩ := h.exists_eq
  rw [blankEnd_append_blank r blank_space]
  simp

/-- What can be typed without leaving the word that is being typed. -/
theorem getLastD_pieces_stem {s w : Text} (hs : Stem s) (hw : ' ' ∉ w) :
    (pieces ' ' (s ++ w)).getLastD [] = w := by
  obtain ⟨r, rfl⟩ := hs.exists_eq
  rw [List.append_assoc]
  exact getLastD_pieces_append_sep hw r

theorem uptoLast_stem {s w : Text} (hs : Stem s) (hw : ' ' ∉ w) : uptoLast ' ' (s ++ w) = s := by
  obtain ⟨r, rfl⟩ := hs.exists_eq
  rw [List.append_assoc]
  exact uptoLast_append_sep hw r

/-- A word without spaces, unless it is empty, leaves a text that is no stem. -/
theorem not_stem_append {s w : Text} (hne : w ≠ []) (hw : ' ' ∉ w) : ¬Stem (s ++ w) := by
  intro h
  obtain ⟨r, hr⟩ := h.exists_eq
  obtain ⟨u, c, rfl⟩ := (List.eq_nil_or_concat' w).resolve_left hne
  rw [← List.append_assoc] at hr
  obtain rfl : c = ' ' := by simpa using (List.append_inj' hr rfl).2
  exact hw (by simp)

/-- A text is its last stem and a word without spaces. -/
theorem exists_stem_append (s : Text) :
    ∃ v w, s = v ++ w ∧ (v = [] ∨ Stem v) ∧ ' ' ∉ w := by
  obtain ⟨w, hw, rfl | ⟨v, rfl⟩⟩ := exists_isAfterLast ' ' s
  · exact ⟨[], s, rfl, Or.inl rfl, hw⟩
  · exact ⟨v ++ [' '], w, by simp, Or.inr (stem_concat v), hw⟩

end Text

end ChainQuery
