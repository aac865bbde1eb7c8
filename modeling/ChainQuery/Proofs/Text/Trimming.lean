import ChainQuery.Text.Basic
import Mathlib.Data.List.Basic
import Mathlib.Data.List.TakeWhile

/-!
# White space at the ends of a text

Reading a query trims the text over and over – the text as a whole, each clause, each item of a
list – and almost everything that is said about reading comes down to two questions about the
ends of a text: which white space is there, and what is left without it. This file answers both.

| notion | what it is |
|---|---|
| `ChainQuery.Text.Blank` | a text of white space alone, such as a gap between two words |
| `ChainQuery.Text.blankEnd` | the white space a text ends in: what `ChainQuery.Text.trimEnd` drops |
| `ChainQuery.Text.Solid` | a text that neither begins nor ends in white space |

A text is its trimmed form between two blanks (`ChainQuery.Text.exists_eq_blank_trim_blank`), and
a solid text between two blanks is what trimming finds (`ChainQuery.Text.trim_blank_solid_blank`).
Trimming leaves a solid text, or nothing (`ChainQuery.Text.solid_trim`).
-/

namespace ChainQuery

namespace Text

/-! ### Deciding

What is said of the characters of a text is decided by looking at the text. There are finitely
many characters, so it could be decided by looking at all of them, but not in practice. -/

section Decide

variable (p : Char → Prop) [DecidablePred p]

instance decidableForallMem (s : Text) : Decidable (∀ c ∈ s, p c) := List.decidableBAll p s

instance decidableForallMemOption (o : Option Char) : Decidable (∀ c ∈ o, p c) :=
  match o with
  | none => isTrue (by simp)
  | some c => decidable_of_iff (p c) (by simp)

instance decidableExistsMemOption (o : Option Char) : Decidable (∃ c ∈ o, p c) :=
  match o with
  | none => isFalse (by simp)
  | some c => decidable_of_iff (p c) (by simp)

end Decide

/-! ### Blanks -/

/-- **A blank**: a text, possibly empty, in which every character is white space. -/
def Blank (s : Text) : Prop := ∀ c ∈ s, isBlank c = true

instance (s : Text) : Decidable (Blank s) :=
  inferInstanceAs (Decidable (∀ c ∈ s, isBlank c = true))

@[simp] theorem blank_nil : Blank [] := by simp [Blank]

@[simp] theorem blank_cons {c : Char} {s : Text} :
    Blank (c :: s) ↔ isBlank c = true ∧ Blank s := by
  simp [Blank]

@[simp] theorem blank_append {s t : Text} : Blank (s ++ t) ↔ Blank s ∧ Blank t := by
  simp only [Blank, List.mem_append]
  exact ⟨fun h => ⟨fun c hc => h c (Or.inl hc), fun c hc => h c (Or.inr hc)⟩,
    fun h c hc => hc.elim (h.1 c) (h.2 c)⟩

@[simp] theorem isBlank_space : isBlank ' ' = true := by decide

theorem blank_space : Blank [' '] := by simp

/-! ### The end of a text -/

@[simp] theorem trimEnd_nil : trimEnd [] = [] := rfl

theorem trimEnd_cons (c : Char) (s : Text) :
    trimEnd (c :: s) =
      if (trimEnd s).isEmpty && isBlank c then [] else c :: trimEnd s := rfl

/-- Trimming the end leaves nothing exactly of a blank. -/
theorem trimEnd_eq_nil_iff {s : Text} : trimEnd s = [] ↔ Blank s := by
  induction s with
  | nil => simp
  | cons c s ih =>
    rw [trimEnd_cons, blank_cons, ← ih]
    by_cases hs : trimEnd s = [] <;> by_cases hc : isBlank c = true <;> simp [hs, hc]

/-- The white space a text ends in. -/
def blankEnd : Text → Text
  | [] => []
  | c :: s => if trimEnd (c :: s) = [] then c :: s else blankEnd s

@[simp] theorem blankEnd_nil : blankEnd [] = [] := rfl

theorem blankEnd_of_blank {s : Text} (h : Blank s) : blankEnd s = s := by
  cases s with
  | nil => rfl
  | cons c s => rw [blankEnd, if_pos (trimEnd_eq_nil_iff.mpr h)]

theorem blankEnd_cons_of_not_blank {c : Char} {s : Text} (h : ¬Blank (c :: s)) :
    blankEnd (c :: s) = blankEnd s := by
  rw [blankEnd, if_neg fun hc => h (trimEnd_eq_nil_iff.mp hc)]

theorem blank_blankEnd (s : Text) : Blank (blankEnd s) := by
  induction s with
  | nil => simp
  | cons c s ih =>
    by_cases h : Blank (c :: s)
    · rwa [blankEnd_of_blank h]
    · rwa [blankEnd_cons_of_not_blank h]

/-- What trimming drops at the end is the white space there, and nothing else. -/
theorem trimEnd_append_blankEnd (s : Text) : trimEnd s ++ blankEnd s = s := by
  induction s with
  | nil => rfl
  | cons c s ih =>
    by_cases h : Blank (c :: s)
    · rw [blankEnd_of_blank h, trimEnd_eq_nil_iff.mpr h, List.nil_append]
    · have hkeep : ((trimEnd s).isEmpty && isBlank c) = false := by
        by_contra hc
        simp only [Bool.not_eq_false, Bool.and_eq_true, List.isEmpty_iff] at hc
        exact h (blank_cons.mpr ⟨hc.2, trimEnd_eq_nil_iff.mp hc.1⟩)
      rw [blankEnd_cons_of_not_blank h, trimEnd_cons, hkeep]
      simpa using ih

/-- White space put at the end is trimmed away again. -/
theorem trimEnd_append_blank (s : Text) {w : Text} (hw : Blank w) :
    trimEnd (s ++ w) = trimEnd s := by
  induction s with
  | nil => simpa using trimEnd_eq_nil_iff.mpr hw
  | cons c s ih => rw [List.cons_append, trimEnd_cons, ih, trimEnd_cons]

theorem blankEnd_append_blank (s : Text) {w : Text} (hw : Blank w) :
    blankEnd (s ++ w) = blankEnd s ++ w := by
  have h := trimEnd_append_blankEnd (s ++ w)
  rw [trimEnd_append_blank s hw] at h
  have hs := trimEnd_append_blankEnd s
  refine (List.append_right_inj (trimEnd s)).mp ?_
  rw [h, ← List.append_assoc, hs]

/-- Behind a text that is not all white space, trimming the end of the whole trims the end of
what stands last. -/
theorem trimEnd_append_of_not_blank (s : Text) {t : Text} (ht : ¬Blank t) :
    trimEnd (s ++ t) = s ++ trimEnd t := by
  induction s with
  | nil => rfl
  | cons c s ih =>
    have hne : (s ++ trimEnd t).isEmpty = false := by
      have : trimEnd t ≠ [] := fun hc => ht (trimEnd_eq_nil_iff.mp hc)
      simp [this]
    rw [List.cons_append, trimEnd_cons, ih, hne]
    rfl

theorem blankEnd_append_of_not_blank (s : Text) {t : Text} (ht : ¬Blank t) :
    blankEnd (s ++ t) = blankEnd t := by
  have h := trimEnd_append_blankEnd (s ++ t)
  rw [trimEnd_append_of_not_blank s ht] at h
  have hs := trimEnd_append_blankEnd t
  refine (List.append_right_inj (s ++ trimEnd t)).mp ?_
  rw [h, List.append_assoc, hs]

/-- A text that ends in white space does so behind any other text. -/
theorem blankEnd_append_ne_nil (s : Text) {t : Text} (h : blankEnd t ≠ []) :
    blankEnd (s ++ t) ≠ [] := by
  by_cases ht : Blank t
  · rw [blankEnd_append_blank s ht]
    rw [blankEnd_of_blank ht] at h
    simp [h]
  · rwa [blankEnd_append_of_not_blank s ht]

theorem blankEnd_ne_nil_of_getLast? {s : Text} (h : ∃ c ∈ s.getLast?, isBlank c = true) :
    blankEnd s ≠ [] := by
  obtain ⟨c, hc, hblank⟩ := h
  obtain ⟨t, rfl⟩ := List.getLast?_eq_some_iff.mp hc
  exact blankEnd_append_ne_nil t (by simp [blankEnd_of_blank, hblank])

/-! ### The beginning of a text -/

@[simp] theorem trimStart_nil : trimStart [] = [] := rfl

/-- White space put at the beginning is trimmed away again. -/
theorem trimStart_blank_append {w : Text} (hw : Blank w) (s : Text) :
    trimStart (w ++ s) = trimStart s := by
  induction w with
  | nil => rfl
  | cons c w ih =>
    obtain ⟨hc, hw⟩ := blank_cons.mp hw
    rw [List.cons_append, trimStart, List.dropWhile_cons_of_pos hc]
    exact ih hw

theorem trimStart_cons_of_not_blank {c : Char} (hc : isBlank c = false) (s : Text) :
    trimStart (c :: s) = c :: s := by
  rw [trimStart, List.dropWhile_cons_of_neg (by simp [hc])]

/-- What trimming drops at the beginning is white space. -/
theorem exists_eq_blank_append_trimStart (s : Text) :
    ∃ w, Blank w ∧ s = w ++ trimStart s :=
  ⟨s.takeWhile isBlank, fun _ hc => List.mem_takeWhile_imp hc,
    (List.takeWhile_append_dropWhile).symm⟩

theorem trimStart_eq_nil_iff {s : Text} : trimStart s = [] ↔ Blank s := by
  rw [trimStart, List.dropWhile_eq_nil_iff]
  rfl

/-- Trimming the beginning ends at something that is no white space. -/
theorem isBlank_head_trimStart {c : Char} {s t : Text} (h : trimStart s = c :: t) :
    isBlank c = false := by
  have hne : s.dropWhile isBlank ≠ [] := by
    intro hc
    rw [trimStart, hc] at h
    cases h
  have hhead := List.head_dropWhile_not isBlank hne
  rw [trimStart] at h
  simpa only [h, List.head_cons] using hhead

/-- Trimming the beginning does not see what follows a text that is not all white space. -/
theorem trimStart_append_of_not_blank {s : Text} (hs : ¬Blank s) (t : Text) :
    trimStart (s ++ t) = trimStart s ++ t := by
  obtain ⟨w, hw, hsplit⟩ := exists_eq_blank_append_trimStart s
  obtain ⟨c, rest, hcase⟩ := List.exists_cons_of_ne_nil
    (fun hcon => hs (trimStart_eq_nil_iff.mp hcon))
  have hc : isBlank c = false := isBlank_head_trimStart hcase
  rw [hsplit, List.append_assoc, trimStart_blank_append hw, trimStart_blank_append hw, hcase,
    List.cons_append, trimStart_cons_of_not_blank hc, trimStart_cons_of_not_blank hc,
    List.cons_append]

/-- Trimming the beginning leaves the white space at the end alone, if there is anything else. -/
theorem blankEnd_trimStart {s : Text} (hs : ¬Blank s) : blankEnd (trimStart s) = blankEnd s := by
  obtain ⟨w, hw, hsplit⟩ := exists_eq_blank_append_trimStart s
  have hne : ¬Blank (trimStart s) := by
    intro hblank
    apply hs
    rw [hsplit]
    exact blank_append.mpr ⟨hw, hblank⟩
  rw [← blankEnd_append_of_not_blank w hne, ← hsplit]

/-! ### Both ends -/

theorem trim_eq_nil_iff {s : Text} : trim s = [] ↔ Blank s := by
  rw [trim, trimEnd_eq_nil_iff]
  constructor
  · intro h
    obtain ⟨w, hw, hs⟩ := exists_eq_blank_append_trimStart s
    rw [hs]
    exact blank_append.mpr ⟨hw, h⟩
  · intro h
    rw [trimStart_eq_nil_iff.mpr h]
    exact blank_nil

theorem trim_blank_append {w : Text} (hw : Blank w) (s : Text) : trim (w ++ s) = trim s := by
  rw [trim, trimStart_blank_append hw, trim]

theorem trim_append_blank (s : Text) {w : Text} (hw : Blank w) : trim (s ++ w) = trim s := by
  obtain ⟨v, hv, hs⟩ := exists_eq_blank_append_trimStart s
  cases hcase : trimStart s with
  | nil =>
    have hblank : Blank s := trimStart_eq_nil_iff.mp hcase
    rw [trim_eq_nil_iff.mpr hblank, trim_eq_nil_iff]
    exact blank_append.mpr ⟨hblank, hw⟩
  | cons c t =>
    have hc := isBlank_head_trimStart hcase
    rw [hs, hcase, List.append_assoc, trim_blank_append hv, trim_blank_append hv, trim, trim,
      List.cons_append, trimStart_cons_of_not_blank hc, trimStart_cons_of_not_blank hc,
      ← List.cons_append, trimEnd_append_blank _ hw]

theorem trim_trimEnd (s : Text) : trim (trimEnd s) = trim s := by
  calc trim (trimEnd s) = trim (trimEnd s ++ blankEnd s) :=
        (trim_append_blank _ (blank_blankEnd s)).symm
    _ = trim s := by rw [trimEnd_append_blankEnd]

@[simp] theorem trim_trim (s : Text) : trim (trim s) = trim s := by
  obtain ⟨v, hv, hs⟩ := exists_eq_blank_append_trimStart s
  calc trim (trim s) = trim (trimStart s) := trim_trimEnd (trimStart s)
    _ = trim (v ++ trimStart s) := (trim_blank_append hv _).symm
    _ = trim s := by rw [← hs]

/-- **A text is its trimmed form between two blanks.** -/
theorem exists_eq_blank_trim_blank (s : Text) :
    ∃ v w, Blank v ∧ Blank w ∧ s = v ++ trim s ++ w := by
  obtain ⟨v, hv, hs⟩ := exists_eq_blank_append_trimStart s
  refine ⟨v, blankEnd (trimStart s), hv, blank_blankEnd _, ?_⟩
  rw [trim, List.append_assoc, trimEnd_append_blankEnd, ← hs]

/-- From a text that does not end in white space nothing is trimmed at its end. -/
theorem exists_eq_blank_append_trim {s : Text} (h : blankEnd s = []) :
    ∃ v, Blank v ∧ s = v ++ trim s := by
  obtain ⟨v, w, hv, hw, hs⟩ := exists_eq_blank_trim_blank s
  obtain rfl : w = [] := by
    rw [hs, blankEnd_append_blank _ hw] at h
    exact (List.append_eq_nil_iff.mp h).2
  exact ⟨v, hv, by rwa [List.append_nil] at hs⟩

/-- A text that ends in something other than white space still ends in it when it is trimmed. -/
theorem getLast?_trim_concat (s : Text) {c : Char} (hc : isBlank c = false) :
    (trim (s ++ [c])).getLast? = some c := by
  have hne : trim (s ++ [c]) ≠ [] := by
    rw [ne_eq, trim_eq_nil_iff]
    simp [hc]
  have hend : blankEnd (s ++ [c]) = [] := by
    rw [blankEnd_append_of_not_blank s (by simp [hc]),
      blankEnd_cons_of_not_blank (by simp [hc]), blankEnd_nil]
  obtain ⟨v, -, hsplit⟩ := exists_eq_blank_append_trim hend
  rw [← List.getLast?_append_of_ne_nil v hne, ← hsplit, List.getLast?_concat]

/-! ### Solid texts -/

/-- **A solid text**: one that begins and ends with something other than white space. -/
structure Solid (s : Text) : Prop where
  /-- The text begins with something other than white space. -/
  head : ∃ c t, s = c :: t ∧ isBlank c = false
  /-- The text ends in something other than white space. -/
  last : ∃ t c, s = t ++ [c] ∧ isBlank c = false

theorem Solid.ne_nil {s : Text} (h : Solid s) : s ≠ [] := by
  obtain ⟨c, t, rfl, -⟩ := h.head
  simp

theorem Solid.not_blank {s : Text} (h : Solid s) : ¬Blank s := by
  obtain ⟨c, t, rfl, hc⟩ := h.head
  intro hblank
  exact absurd (blank_cons.mp hblank).1 (by simp [hc])

theorem Solid.trimStart {s : Text} (h : Solid s) : trimStart s = s := by
  obtain ⟨c, t, rfl, hc⟩ := h.head
  exact trimStart_cons_of_not_blank hc t

/-- A text that ends in something other than white space has nothing to trim there. -/
theorem trimEnd_of_last {t : Text} {c : Char} (hc : isBlank c = false) :
    trimEnd (t ++ [c]) = t ++ [c] := by
  rw [trimEnd_append_of_not_blank t (by simp [hc])]
  simp [trimEnd_cons, hc]

theorem blankEnd_of_last {t : Text} {c : Char} (hc : isBlank c = false) :
    blankEnd (t ++ [c]) = [] := by
  rw [blankEnd_append_of_not_blank t (by simp [hc]), blankEnd_cons_of_not_blank (by simp [hc])]
  rfl

theorem Solid.trimEnd {s : Text} (h : Solid s) : trimEnd s = s := by
  obtain ⟨t, c, rfl, hc⟩ := h.last
  exact trimEnd_of_last hc

theorem Solid.blankEnd {s : Text} (h : Solid s) : blankEnd s = [] := by
  obtain ⟨t, c, rfl, hc⟩ := h.last
  exact blankEnd_of_last hc

@[simp] theorem Solid.trim {s : Text} (h : Solid s) : trim s = s := by
  rw [Text.trim, h.trimStart, h.trimEnd]

/-- **A solid text between two blanks is what trimming finds.** -/
theorem trim_blank_solid_blank {v s w : Text} (hv : Blank v) (hs : Solid s) (hw : Blank w) :
    trim (v ++ s ++ w) = s := by
  rw [trim_append_blank _ hw, trim_blank_append hv, hs.trim]

/-- Whether a text is solid is seen at its two ends. -/
theorem solid_iff {s : Text} :
    Solid s ↔ (∃ c ∈ s.head?, isBlank c = false) ∧ ∃ c ∈ s.getLast?, isBlank c = false := by
  constructor
  · intro h
    obtain ⟨c, t, hs, hc⟩ := h.head
    obtain ⟨u, d, hs', hd⟩ := h.last
    exact ⟨⟨c, by simp [hs], hc⟩, ⟨d, by simp [hs'], hd⟩⟩
  · rintro ⟨⟨c, hs, hc⟩, d, hs', hd⟩
    obtain ⟨t, rfl⟩ := List.head?_eq_some_iff.mp hs
    obtain ⟨u, hu⟩ := List.getLast?_eq_some_iff.mp hs'
    exact ⟨⟨c, t, rfl, hc⟩, ⟨u, d, hu, hd⟩⟩

instance (s : Text) : Decidable (Solid s) := decidable_of_iff _ solid_iff.symm

/-- A text without white space is solid, unless it is empty. -/
theorem solid_of_no_blank {s : Text} (hne : s ≠ []) (h : ∀ c ∈ s, isBlank c = false) :
    Solid s where
  head := by
    cases s with
    | nil => exact absurd rfl hne
    | cons c t => exact ⟨c, t, rfl, h c List.mem_cons_self⟩
  last :=
    ⟨s.dropLast, s.getLast hne, (List.dropLast_concat_getLast hne).symm,
      h _ (List.getLast_mem hne)⟩

/-- Solid texts at both ends make a solid text, whatever stands between them. -/
theorem Solid.append {s t : Text} (hs : Solid s) (w : Text) (ht : Solid t) :
    Solid (s ++ (w ++ t)) where
  head := by
    obtain ⟨c, u, rfl, hc⟩ := hs.head
    exact ⟨c, u ++ (w ++ t), rfl, hc⟩
  last := by
    obtain ⟨u, c, rfl, hc⟩ := ht.last
    exact ⟨s ++ (w ++ u), c, by simp, hc⟩

/-- Trimming the end leaves something other than white space there. -/
theorem exists_getLast?_trimEnd {s : Text} (hs : ¬Blank s) :
    ∃ c ∈ (trimEnd s).getLast?, isBlank c = false := by
  induction s with
  | nil => exact absurd blank_nil hs
  | cons c s ih =>
    by_cases hblank : Blank s
    · have hc : isBlank c = false := by simpa [hblank] using hs
      have hend : trimEnd (c :: s) = [c] := by
        simp [trimEnd_cons, trimEnd_eq_nil_iff.mpr hblank, hc]
      exact ⟨c, by simp [hend], hc⟩
    · have hne : trimEnd s ≠ [] := fun hnil => hblank (trimEnd_eq_nil_iff.mp hnil)
      obtain ⟨d, hd, hlast⟩ := ih hblank
      refine ⟨d, ?_, hlast⟩
      rw [trimEnd_cons, if_neg (by simp [hne]), List.getLast?_cons_of_ne_nil hne]
      exact hd

/-- **Trimming leaves a solid text, or nothing.** -/
theorem solid_trim {s : Text} (hs : ¬Blank s) : Solid (trim s) := by
  obtain ⟨c, t, hcase⟩ := List.exists_cons_of_ne_nil fun hnil => hs (trimStart_eq_nil_iff.mp hnil)
  have hc : isBlank c = false := isBlank_head_trimStart hcase
  have hne : ¬Blank (c :: t) := by simp [hc]
  rw [trim, hcase, solid_iff]
  refine ⟨⟨c, ?_, hc⟩, exists_getLast?_trimEnd hne⟩
  simp [trimEnd_cons, hc]

end Text

end ChainQuery
