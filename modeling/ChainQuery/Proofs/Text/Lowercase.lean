import ChainQuery.Text.Lowercase
import ChainQuery.Proofs.Text.Trimming

/-!
# What a text is in lower case

Names are compared in lower case, so the lower-case form of a text has to be as good a name as the
text. Lowering loses nothing: every character has a form (`ChainQuery.Text.lower_ne_nil`), and one
of ASCII that is no capital is its own (`ChainQuery.Text.mem_lower_of_mem`). And it makes no
**separators**: a character is left as it is, or its form holds neither white space nor a comma
(`ChainQuery.Text.lowerChar_cases`). Beyond ASCII this is seen at the ends of the runs of the table,
since the forms of a run lie between that of its first letter and that of its last.

So in lower case a text without white space has none, a text without commas has no comma
(`ChainQuery.Text.forall_mem_lower`), and a text with no white space around it has none there either
(`ChainQuery.Text.Solid.lower`).
-/

namespace ChainQuery

namespace Text

/-! ### The form of a character -/

theorem lowerChar_ne_nil (c : Char) : lowerChar c ≠ [] := by
  rw [lowerChar]
  repeat' split
  all_goals simp

/-- The code points of the comma and of white space, as closed ranges. -/
def separatorRanges : List (Nat × Nat) := (0x2C, 0x2C) :: blankRanges

theorem inRanges_separatorRanges_eq_false_iff {c : Char} :
    inRanges separatorRanges c = false ↔ isBlank c = false ∧ c ≠ ',' := by
  have hcomma : (decide (0x2C ≤ c.toNat) && decide (c.toNat ≤ 0x2C)) = decide (c = ',') := by
    rw [← Bool.decide_and, decide_eq_decide]
    constructor
    · intro h
      rw [← Char.ofNat_toNat c, Nat.le_antisymm h.2 h.1]
    · rintro rfl
      decide
  rw [inRanges, separatorRanges, List.any_cons, hcomma, Bool.or_eq_false_iff,
    decide_eq_false_iff_not, and_comm]
  rfl

/-- No separator lies between the form of the first letter of a run and that of the last. -/
theorem image_not_separator : ∀ run ∈ lowerRuns, ∀ r ∈ separatorRanges,
    0 < r.1 ∧ (r.2 < run.image ∨ run.image + (run.last - run.first) < r.1) := by
  decide +kernel

/-- A number is the code point of the character it stands for, unless it stands for none. -/
theorem toNat_ofNat_cases (n : Nat) : (Char.ofNat n).toNat = n ∨ (Char.ofNat n).toNat = 0 := by
  by_cases h : n.isValidChar
  · rw [Char.ofNat, dif_pos h]
    exact Or.inl rfl
  · rw [Char.ofNat, dif_neg h]
    exact Or.inr rfl

/-- **The forms in the table are no separators.** -/
theorem CaseRun.not_separator {run : CaseRun} (hrun : run ∈ lowerRuns) {c d : Char}
    (h : run.lower? c = some d) : isBlank d = false ∧ d ≠ ',' := by
  rw [← inRanges_separatorRanges_eq_false_iff, inRanges, List.any_eq_false]
  intro r hr
  obtain ⟨hpos, hapart⟩ := image_not_separator run hrun r hr
  obtain ⟨⟨hfirst, hlast, -⟩, hd⟩ := Option.ite_none_right_eq_some.mp h
  rw [← Option.some.inj hd]
  have hcode := toNat_ofNat_cases (run.image + (c.toNat - run.first))
  simp only [Bool.and_eq_true, decide_eq_true_eq]
  omega

/-- In ASCII the form of a letter is a letter. -/
theorem toLower_cases {c : Char} (hc : c.toNat < 0x80) :
    c.toLower = c ∨ isBlank c.toLower = false ∧ c.toLower ≠ ',' := by
  have hall : ∀ n < 0x80, (Char.ofNat n).toLower = Char.ofNat n ∨
      isBlank (Char.ofNat n).toLower = false ∧ (Char.ofNat n).toLower ≠ ',' := by
    decide +kernel
  simpa using hall c.toNat hc

/-- **A character is left as it is, or its form holds no separator.** -/
theorem lowerChar_cases (c : Char) :
    lowerChar c = [c] ∨ ∀ d ∈ lowerChar c, isBlank d = false ∧ d ≠ ',' := by
  rw [lowerChar]
  split
  · next hascii =>
    rcases toLower_cases hascii with h | h
    · exact Or.inl (congrArg (fun d => [d]) h)
    · exact Or.inr (by simpa using h)
  · split
    · exact Or.inr (by decide)
    · cases hfind : lowerRuns.findSome? fun run => run.lower? c with
      | none => exact Or.inl rfl
      | some d =>
        obtain ⟨run, hrun, hd⟩ := List.exists_of_findSome?_eq_some hfind
        exact Or.inr (by simpa using CaseRun.not_separator hrun hd)

/-! ### The form of a text -/

/-- In lower case every character has a form. -/
theorem lower_ne_nil {s : Text} (h : s ≠ []) : lower s ≠ [] := by
  obtain ⟨c, t, rfl⟩ := List.exists_cons_of_ne_nil h
  rw [lower, lowerAfter]
  split
  · simp
  · simp [lowerChar_ne_nil]

/-- A character of ASCII that is no capital is left in lower case. -/
theorem mem_lower_of_mem {c : Char} (hc : c.toNat < 0x80) (hlower : c.toLower = c) {s : Text}
    (h : c ∈ s) : c ∈ lower s := by
  suffices hafter : ∀ before, c ∈ lowerAfter before s from hafter []
  induction s with
  | nil => cases h
  | cons d s ih =>
    intro before
    rw [lowerAfter, List.mem_append]
    rcases List.mem_cons.mp h with rfl | h
    · have hsigma : c ≠ 'Σ' := by
        rintro rfl
        exact absurd hc (by decide)
      rw [if_neg hsigma, lowerChar_of_ascii hc, hlower]
      exact Or.inl List.mem_cons_self
    · exact Or.inr (ih h _)

/-- The form of a character that stands in a text, whose neighbours are asked in one case. -/
theorem lowerAfter_cons (before : Text) (c : Char) (s : Text) :
    ∃ form, lowerAfter before (c :: s) = form ++ lowerAfter (c :: before) s ∧ form ≠ [] ∧
      (form = [c] ∨ ∀ d ∈ form, isBlank d = false ∧ d ≠ ',') := by
  rw [lowerAfter]
  refine ⟨_, rfl, ?_⟩
  split
  · refine ⟨by simp, Or.inr ?_⟩
    rw [lowerSigma]
    split <;> decide
  · exact ⟨lowerChar_ne_nil c, lowerChar_cases c⟩

/-- **What holds of the characters of a text holds of its lower-case form**, if it holds of every
character that is no separator. -/
theorem forall_mem_lower {p : Char → Prop} (hp : ∀ d, isBlank d = false → d ≠ ',' → p d) {s : Text}
    (h : ∀ c ∈ s, p c) : ∀ d ∈ lower s, p d := by
  suffices hafter : ∀ before, ∀ d ∈ lowerAfter before s, p d from hafter []
  induction s with
  | nil => simp [lowerAfter]
  | cons c s ih =>
    intro before d hd
    obtain ⟨form, hform, -, hcases⟩ := lowerAfter_cons before c s
    rw [hform, List.mem_append] at hd
    rcases hd with hd | hd
    · rcases hcases with rfl | hcases
      · rw [List.mem_singleton.mp hd]
        exact h c List.mem_cons_self
      · exact hp d (hcases d hd).1 (hcases d hd).2
    · exact ih (fun e he => h e (List.mem_cons_of_mem c he)) _ d hd

/-- A character that is no white space has no white space in its form. -/
theorem forall_mem_form {c : Char} {form : Text} (hc : isBlank c = false)
    (h : form = [c] ∨ ∀ d ∈ form, isBlank d = false ∧ d ≠ ',') : ∀ d ∈ form, isBlank d = false := by
  rcases h with rfl | h
  · simpa using hc
  · exact fun d hd => (h d hd).1

/-- **Without white space around it, a text has none around it in lower case.** -/
theorem Solid.lower {s : Text} (h : Solid s) : Solid (lower s) := by
  rw [solid_iff] at h ⊢
  obtain ⟨⟨c, hc, hblank⟩, hlast⟩ := h
  constructor
  · obtain ⟨t, rfl⟩ := List.head?_eq_some_iff.mp hc
    obtain ⟨form, hform, hne, hcases⟩ := lowerAfter_cons [] c t
    obtain ⟨d, rest, rfl⟩ := List.exists_cons_of_ne_nil hne
    refine ⟨d, by rw [Text.lower, hform]; rfl, ?_⟩
    exact forall_mem_form hblank hcases d List.mem_cons_self
  · suffices hafter : ∀ before, ∃ d ∈ (lowerAfter before s).getLast?, isBlank d = false from
      hafter []
    clear hc hblank
    induction s with
    | nil => simp at hlast
    | cons c s ih =>
      intro before
      obtain ⟨form, hform, hne, hcases⟩ := lowerAfter_cons before c s
      by_cases hs : s = []
      · subst hs
        have hblank : isBlank c = false := by simpa using hlast
        rw [hform, lowerAfter, List.append_nil]
        refine ⟨form.getLast hne, List.getLast?_eq_some_getLast hne, ?_⟩
        exact forall_mem_form hblank hcases _ (List.getLast_mem hne)
      · rw [List.getLast?_cons_of_ne_nil hs] at hlast
        obtain ⟨d, hd, hblank⟩ := ih hlast (c :: before)
        refine ⟨d, ?_, hblank⟩
        rw [hform, List.getLast?_append, Option.mem_def.mp hd]
        rfl

end Text

end ChainQuery
