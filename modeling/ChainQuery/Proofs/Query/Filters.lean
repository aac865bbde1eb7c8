import ChainQuery.Query.Reading
import ChainQuery.Proofs.Token.Marking

/-!
# Lists of filters

A list of filters is cut at the commas that stand outside all parentheses, so that the value of
a filter may hold a list itself. Where a comma stands is a matter of **depth**, the number of
parentheses that are open (`ChainQuery.Text.depth`); a parenthesis that closes nothing is passed
over. A comma at depth zero divides a list into two
(`ChainQuery.Text.filters_append_comma`), and a text in which every comma is **sheltered** by a
parenthesis is one filter (`ChainQuery.Text.filters_of_sheltered`). What is put behind a list goes
to the filter that is last (`ChainQuery.Text.IsLastFilter.exists_filters_append`).

A filter that is a comparison is read as one, whatever white space stands around its operator
(`ChainQuery.Filter.ofTokens_comparison`).
-/

namespace ChainQuery

/-! ### Depth -/

namespace Text

/-- How many parentheses are open after a character. -/
def depthStep (depth : Nat) (c : Char) : Nat :=
  if c = '(' then depth + 1 else if c = ')' then depth - 1 else depth

/-- How many parentheses are open after a text, when `depth` of them are open before it. -/
def depthFrom (depth : Nat) (s : Text) : Nat := s.foldl depthStep depth

/-- **How many parentheses are open after a text.** -/
def depth (s : Text) : Nat := depthFrom 0 s

/-- **Every comma of the text stands inside a parenthesis.** -/
def Sheltered (s : Text) : Prop := ∀ u v, s = u ++ ',' :: v → 0 < depth u

@[simp] theorem depthFrom_nil (depth : Nat) : depthFrom depth [] = depth := rfl

theorem depthFrom_append (depth : Nat) (s t : Text) :
    depthFrom depth (s ++ t) = depthFrom (depthFrom depth s) t :=
  List.foldl_append

theorem depthFrom_of_no_paren {s : Text} (h : ∀ c ∈ s, c ≠ '(' ∧ c ≠ ')') (depth : Nat) :
    depthFrom depth s = depth := by
  induction s with
  | nil => rfl
  | cons c s ih =>
    obtain ⟨hopen, hclose⟩ := h c List.mem_cons_self
    rw [depthFrom, List.foldl_cons, depthStep, if_neg hopen, if_neg hclose]
    exact ih fun d hd => h d (List.mem_cons_of_mem c hd)

theorem depthFrom_of_blank {s : Text} (h : Blank s) (depth : Nat) : depthFrom depth s = depth := by
  refine depthFrom_of_no_paren (fun c hc => ⟨?_, ?_⟩) depth
  · rintro rfl
    exact absurd (h _ hc) (by decide)
  · rintro rfl
    exact absurd (h _ hc) (by decide)

/-- The commas of a text can be looked up one after the other. -/
theorem sheltered_iff {s : Text} :
    Sheltered s ↔ ∀ i < s.length, s[i]? = some ',' → 0 < depth (s.take i) := by
  constructor
  · intro h i hi hcomma
    refine h (s.take i) (s.drop (i + 1)) ?_
    rw [List.getElem?_eq_some_iff] at hcomma
    obtain ⟨hlt, hget⟩ := hcomma
    rw [← hget, List.getElem_cons_drop, List.take_append_drop]
  · rintro h u v rfl
    have := h u.length (by simp) (by simp)
    rwa [List.take_left] at this

instance (s : Text) : Decidable (Sheltered s) := decidable_of_iff _ sheltered_iff.symm

theorem sheltered_of_not_mem {s : Text} (h : ',' ∉ s) : Sheltered s := by
  rintro u v rfl
  exact absurd (by simp) h

/-- A text that is put behind another is sheltered by its own parentheses and by those that the other
leaves open. -/
theorem sheltered_append_iff {s t : Text} : Sheltered (s ++ t) ↔
    Sheltered s ∧ ∀ u v, t = u ++ ',' :: v → 0 < depthFrom (depth s) u := by
  constructor
  · refine fun h => ⟨?_, ?_⟩
    · rintro u v rfl
      exact h u (v ++ t) (by simp)
    · rintro u v rfl
      have hall := h (s ++ u) v (by simp)
      rwa [depth, depthFrom_append] at hall
  · rintro ⟨hs, ht⟩ u v huv
    rcases List.append_eq_append_iff.mp huv with ⟨a, rfl, ha⟩ | ⟨a, ha, ha'⟩
    · rw [depth, depthFrom_append]
      exact ht a v ha
    · cases a with
      | nil =>
        rw [List.append_nil] at ha
        rw [← ha]
        exact ht [] v ha'.symm
      | cons c a =>
        rw [List.cons_append] at ha'
        obtain ⟨rfl, -⟩ := List.cons.inj ha'
        exact hs u a ha

/-- A text that goes on as a sheltered one is sheltered. -/
theorem Sheltered.of_append {s t : Text} (h : Sheltered (s ++ t)) : Sheltered s :=
  (sheltered_append_iff.mp h).1

/-- Behind a sheltered text there may stand anything without commas. -/
theorem Sheltered.append_of_not_mem {s t : Text} (hs : Sheltered s) (ht : ',' ∉ t) :
    Sheltered (s ++ t) := by
  refine sheltered_append_iff.mpr ⟨hs, ?_⟩
  rintro u v rfl
  exact absurd (by simp) ht

/-- Before a sheltered text there may stand anything without commas and parentheses. -/
theorem Sheltered.append {s t : Text} (hs : ∀ c ∈ s, c ≠ ',' ∧ c ≠ '(' ∧ c ≠ ')')
    (ht : Sheltered t) : Sheltered (s ++ t) := by
  have hcomma : ',' ∉ s := fun hmem => (hs _ hmem).1 rfl
  have hdepth : depth s = 0 := depthFrom_of_no_paren (fun c hc => (hs c hc).2) 0
  refine sheltered_append_iff.mpr ⟨sheltered_of_not_mem hcomma, fun u v huv => ?_⟩
  rw [hdepth]
  exact ht u v huv

end Text

open Text

namespace Token

/-- How many parentheses are open after some tokens. -/
def depthFrom (depth : Nat) (tokens : List Token) : Nat :=
  tokens.foldl (fun depth t => t.depthAfter depth) depth

/-- A token opens and closes what its characters do. -/
theorem IsCut.depthFrom {t : Token} (ht : t.IsCut) (depth : Nat) :
    Text.depthFrom depth (t.gap ++ t.text) = t.depthAfter depth := by
  rw [depthFrom_append, depthFrom_of_blank ht.gap]
  have hopen : Kind.ofChar? '(' = some .openParen := by decide
  have hclose : Kind.ofChar? ')' = some .closeParen := by decide
  -- a parenthesis is a token by itself, and in the other tokens there is none
  by_cases h1 : t.kind = .openParen
  · obtain ⟨c, hc, hkind⟩ := ht.text_eq (by rw [h1]; rfl)
    rw [h1] at hkind
    rw [hc, Kind.eq_of_openParen hkind, depthAfter, h1]
    rfl
  by_cases h2 : t.kind = .closeParen
  · obtain ⟨c, hc, hkind⟩ := ht.text_eq (by rw [h2]; rfl)
    rw [h2] at hkind
    rw [hc, Kind.eq_of_closeParen hkind, depthAfter, h2]
    rfl
  · have hnone : t.depthAfter depth = depth := by
      unfold depthAfter
      split <;> simp_all
    rw [hnone]
    refine depthFrom_of_no_paren (fun c hc => ⟨?_, ?_⟩) depth
    · rintro rfl
      exact h1 (Option.some.inj ((ht.kind _ hc).symm.trans hopen))
    · rintro rfl
      exact h2 (Option.some.inj ((ht.kind _ hc).symm.trans hclose))

theorem depthFrom_spelling {tokens : List Token} (h : ∀ t ∈ tokens, t.IsCut) (depth : Nat) :
    Text.depthFrom depth (spelling tokens) = depthFrom depth tokens := by
  induction tokens generalizing depth with
  | nil => rfl
  | cons t later ih =>
    rw [spelling_cons, ← List.append_assoc, depthFrom_append,
      (h t List.mem_cons_self).depthFrom, ih fun u hu => h u (List.mem_cons_of_mem t hu)]
    rfl

/-- The tokens of a text open and close what the text does. -/
theorem depthFrom_lexemes (depth : Nat) (s : Text) :
    depthFrom depth (lexemes s) = Text.depthFrom depth s := by
  rw [← depthFrom_spelling isCut_of_mem_lexemes, spelling_lexemes]
  have h : Text.depthFrom depth (trimEnd s ++ blankEnd s) = Text.depthFrom depth (trimEnd s) := by
    rw [depthFrom_append, depthFrom_of_blank (blank_blankEnd s)]
  rw [← h, trimEnd_append_blankEnd]

/-! ### Groups -/

theorem depthAfter_of_comma {t : Token} (ht : t.kind = .comma) (depth : Nat) :
    t.depthAfter depth = depth := by
  rw [depthAfter, ht]

/-- A comma outside all parentheses ends the group before it. -/
theorem groupsFrom_append_comma {t : Token} (ht : t.kind = .comma) {depth : Nat}
    {tokens : List Token} (hd : depthFrom depth tokens = 0) (more : List Token) :
    groupsFrom depth (tokens ++ t :: more) =
      ((groupsFrom depth tokens).1,
        (groupsFrom depth tokens).2 ++ (groupsFrom 0 more).1 :: (groupsFrom 0 more).2) := by
  induction tokens generalizing depth with
  | nil =>
    have hzero : depth = 0 := hd
    subst hzero
    simp [groupsFrom, ht, depthAfter_of_comma ht]
  | cons u tokens ih =>
    rw [List.cons_append, groupsFrom, groupsFrom, ih hd]
    split <;> rfl

/-- **A comma outside all parentheses divides the groups.** -/
theorem groups_append_comma {t : Token} (ht : t.kind = .comma) {tokens : List Token}
    (hd : depthFrom 0 tokens = 0) (more : List Token) :
    groups (tokens ++ t :: more) = groups tokens ++ groups more := by
  simp only [groups, groupsFrom_append_comma ht hd, ← List.cons_append, List.filter_append]

/-- **Every comma among the tokens stands inside a parenthesis**, when `depth` of them are open
before the first token. -/
def ShelteredFrom (depth : Nat) (tokens : List Token) : Prop :=
  ∀ u t v, tokens = u ++ t :: v → t.kind = .comma → depthFrom depth u ≠ 0

theorem shelteredFrom_nil (depth : Nat) : ShelteredFrom depth [] := by
  intro u t v huv
  simp at huv

theorem shelteredFrom_cons_iff {depth : Nat} {t : Token} {later : List Token} :
    ShelteredFrom depth (t :: later) ↔
      ¬(t.kind = .comma ∧ depth = 0) ∧ ShelteredFrom (t.depthAfter depth) later := by
  constructor
  · refine fun h => ⟨fun ⟨ht, hdepth⟩ => h [] t later rfl ht hdepth, ?_⟩
    rintro u s v rfl hs
    exact h (t :: u) s v rfl hs
  · rintro ⟨ht, hlater⟩ u s v huv hs
    cases u with
    | nil =>
      obtain ⟨rfl, -⟩ := List.cons.inj huv
      exact fun hdepth => ht ⟨hs, hdepth⟩
    | cons r u =>
      obtain ⟨rfl, hall⟩ := List.cons.inj huv
      exact hlater u s v hall hs

/-- Tokens whose commas are all inside parentheses are one group. -/
theorem groupsFrom_of_sheltered {depth : Nat} {tokens : List Token}
    (h : ShelteredFrom depth tokens) : groupsFrom depth tokens = (tokens, []) := by
  induction tokens generalizing depth with
  | nil => rfl
  | cons t later ih =>
    obtain ⟨hfirst, hlater⟩ := shelteredFrom_cons_iff.mp h
    rw [groupsFrom, ih hlater, if_neg hfirst]

/-- White space before the first token moves no comma. -/
theorem map_ofTokens_groups_pad (w : Text) (tokens : List Token) :
    (groups (pad w tokens)).map Filter.ofTokens = (groups tokens).map Filter.ofTokens := by
  cases tokens with
  | nil => rfl
  | cons t later =>
    have hdepth : depthAfter 0 { t with gap := w ++ t.gap } = t.depthAfter 0 := rfl
    simp only [groups, pad_cons, groupsFrom, hdepth]
    by_cases hcomma : t.kind = .comma
    · simp [hcomma]
    · simp only [hcomma, false_and, if_false]
      cases (groupsFrom (t.depthAfter 0) later).1 with
      | nil => simp [Filter.ofTokens, stretch]
      | cons u rest => simp [Filter.ofTokens, stretch, isIdentifier]

end Token

open Token

namespace Filter

/-! ### One filter -/

/-- An identifier and an operator make a comparison, whatever stands behind them. -/
theorem ofTokens_of_operator {t u : Token} {op : Operator} (ht : t.isIdentifier = true)
    (hu : u.operator? = some op) (value : List Token) :
    ofTokens (t :: u :: value) = ⟨t.text, some op, nonempty? (stretch value)⟩ := by
  simp [ofTokens, ht, hu]

/-- **A group of tokens is a comparison, or it is kept as it was typed.** -/
theorem ofTokens_cases (group : List Token) :
    (∃ t u value op, group = t :: u :: value ∧ t.isIdentifier = true ∧ u.operator? = some op) ∨
      ofTokens group = { field := stretch group } := by
  rw [ofTokens.eq_def]
  split
  · next t u value =>
    split
    · next op hop =>
      obtain ⟨ht, hu⟩ := Option.ite_none_right_eq_some.mp hop
      exact Or.inl ⟨t, u, value, op, rfl, ht, hu⟩
    · exact Or.inr rfl
  · exact Or.inr rfl

end Filter

namespace Text

/-! ### The filters of a text -/

/-- **The filters of a list**, as they stand between the commas outside parentheses. -/
def filters (s : Text) : List Filter := (groups (lexemes s)).map Filter.ofTokens

@[simp] theorem filters_nil : filters [] = [] := rfl

theorem readFilters_lexemes (s : Text) :
    Query.readFilters (lexemes s) = if (filters s).isEmpty then none else some (filters s) := by
  unfold Query.readFilters filters
  cases (groups (lexemes s)).map Filter.ofTokens <;> rfl

/-- **A comma outside all parentheses divides a list of filters.** -/
theorem filters_append_comma {s : Text} (hs : depth s = 0) (t : Text) :
    filters (s ++ ',' :: t) = filters s ++ filters t := by
  rw [filters, lexemes_append_comma, groups_append_comma rfl (by rwa [depthFrom_lexemes]),
    List.map_append, filters, filters]

theorem filters_blank_append {w : Text} (hw : Blank w) (s : Text) :
    filters (w ++ s) = filters s := by
  rw [filters, lexemes_blank_append hw, map_ofTokens_groups_pad, filters]

theorem filters_append_blank (s : Text) {w : Text} (hw : Blank w) :
    filters (s ++ w) = filters s := by
  rw [filters, lexemes_append_blank s hw, filters]

/-- **A text in which every comma is sheltered is one filter.** -/
theorem filters_of_sheltered {s : Text} (h : Sheltered s) (hne : ¬Blank s) :
    filters s = [Filter.ofTokens (lexemes s)] := by
  have hgroups : groupsFrom 0 (lexemes s) = (lexemes s, []) := by
    -- a comma among the tokens is a comma of the text, at the same depth
    refine groupsFrom_of_sheltered fun u t v huv ht => ?_
    have hcut : ∀ x ∈ u ++ t :: v, x.IsCut := huv ▸ isCut_of_mem_lexemes
    have htcut := hcut t (by simp)
    obtain ⟨c, hc, hkind⟩ := htcut.text_eq (by rw [ht]; rfl)
    rw [ht] at hkind
    obtain rfl : c = ',' := Kind.eq_of_comma hkind
    have hspell : s = (spelling u ++ t.gap) ++ ',' :: (spelling v ++ blankEnd s) :=
      calc s = spelling (lexemes s) ++ blankEnd s := by
            rw [spelling_lexemes, trimEnd_append_blankEnd]
        _ = (spelling u ++ t.gap) ++ ',' :: (spelling v ++ blankEnd s) := by
            rw [huv]
            simp [spelling, hc]
    have hpos := h _ _ hspell
    rw [depth, depthFrom_append, depthFrom_of_blank htcut.gap,
      depthFrom_spelling fun x hx => hcut x (List.mem_append_left _ hx)] at hpos
    omega
  have hlex : lexemes s ≠ [] := fun hcon => hne (lexemes_eq_nil_iff.mp hcon)
  simp [filters, groups, hgroups, hlex]

/-! ### The last filter -/

/-- **What stands behind the last comma that divides a list of filters**, which is the whole list
if no comma does. -/
def IsLastFilter (v s : Text) : Prop :=
  Sheltered v ∧ (s = v ∨ ∃ u, depth u = 0 ∧ s = u ++ ',' :: v)

theorem depth_append_comma {u : Text} (hu : depth u = 0) (v : Text) :
    depth (u ++ ',' :: v) = depth v := by
  have hstep : depthFrom 0 (',' :: v) = depth v := rfl
  rw [depth, depthFrom_append, ← depth, hu, hstep]

theorem exists_isLastFilter (s : Text) : ∃ v, IsLastFilter v s := by
  induction hn : s.length using Nat.strong_induction_on generalizing s with
  | h n ih =>
    by_cases hs : Sheltered s
    · exact ⟨s, hs, Or.inl rfl⟩
    obtain ⟨a, b, rfl, ha⟩ : ∃ a b, s = a ++ ',' :: b ∧ depth a = 0 := by
      simpa [Sheltered, not_forall] using hs
    have hlength : b.length < n := by
      rw [← hn, List.length_append, List.length_cons]
      omega
    -- a comma that divides what stands behind it divides the whole
    obtain ⟨v, hv, hb⟩ := ih b.length hlength b rfl
    refine ⟨v, hv, Or.inr ?_⟩
    rcases hb with rfl | ⟨u, hu, rfl⟩
    · exact ⟨a, ha, rfl⟩
    · exact ⟨a ++ ',' :: u, by rw [depth_append_comma ha, hu], by simp⟩

theorem IsLastFilter.isSuffix {v s : Text} (h : IsLastFilter v s) : v <:+ s := by
  obtain ⟨-, rfl | ⟨u, -, rfl⟩⟩ := h
  · exact List.suffix_refl s
  · exact (List.suffix_cons ',' v).trans (List.suffix_append u _)

/-- **What is put behind a list of filters goes to the last of them.** -/
theorem IsLastFilter.exists_filters_append {v s : Text} (h : IsLastFilter v s) :
    ∃ earlier, ∀ t, filters (s ++ t) = earlier ++ filters (v ++ t) := by
  obtain ⟨-, rfl | ⟨u, hu, rfl⟩⟩ := h
  · exact ⟨[], fun t => rfl⟩
  · refine ⟨filters u, fun t => ?_⟩
    rw [List.append_assoc, List.cons_append, filters_append_comma hu]

end Text

/-! ### Comparisons -/

namespace Token

theorem toNat_of_isIdentifierChar {c : Char} (h : isIdentifierChar c = true) :
    (48 ≤ c.toNat ∧ c.toNat ≤ 57) ∨ (65 ≤ c.toNat ∧ c.toNat ≤ 90) ∨ c.toNat = 95 ∨
      (97 ≤ c.toNat ∧ c.toNat ≤ 122) := by
  delta isIdentifierChar Char.isAlphanum Char.isAlpha Char.isUpper Char.isLower Char.isDigit at h
  simp only [Bool.or_eq_true, Bool.and_eq_true, decide_eq_true_eq, beq_iff_eq,
    UInt32.le_iff_toNat_le, ge_iff_le] at h
  simp only [Char.toNat]
  rcases h with ((h | h) | h) | rfl
  · exact Or.inr (Or.inl h)
  · exact Or.inr (Or.inr (Or.inr h))
  · exact Or.inl h
  · decide

theorem isSign_of_isIdentifierChar {c : Char} (h : isIdentifierChar c = true) :
    Operator.isSign c = false := by
  rw [← Bool.not_eq_true]
  intro hsign
  simp only [Operator.isSign, Bool.or_eq_true, beq_iff_eq] at hsign
  rcases hsign with ((rfl | rfl) | rfl) | rfl <;> exact absurd h (by decide)

/-- The characters of identifiers are characters of words. -/
theorem ofChar?_of_isIdentifierChar {c : Char} (h : isIdentifierChar c = true) :
    Kind.ofChar? c = some .word := by
  have hn := toNat_of_isIdentifierChar h
  have hblank : isBlank c = false := by
    simp only [isBlank, inRanges, blankRanges, List.any_cons, List.any_nil, Bool.or_false,
      Bool.or_eq_false_iff, Bool.and_eq_false_iff, decide_eq_false_iff_not]
    omega
  have hne : ∀ d : Char, d.toNat < 48 ∨ (57 < d.toNat ∧ d.toNat < 65) → c ≠ d := by
    rintro d hd rfl
    omega
  simp [Kind.ofChar?, hblank, hne ',' (by decide), hne '(' (by decide), hne ')' (by decide),
    isSign_of_isIdentifierChar h]

theorem lexemes_operator (op : Operator) : lexemes op.text = [⟨.operator, [], op.text⟩] := by
  cases op <;> decide

theorem ofChar?_of_mem_operator {op : Operator} {c : Char} (hc : c ∈ op.text) :
    Kind.ofChar? c = some .operator := by
  revert c
  cases op <;> decide

/-- Behind an operator there is a seam, unless another sign follows it directly. -/
theorem apart_operator (op : Operator) {s : Text}
    (h : ∀ c ∈ s.head?, Operator.isSign c = false) : Apart op.text s := by
  intro c hc d hd
  have hop := ofChar?_of_mem_operator (List.mem_of_getLast? hc)
  cases hk : Kind.ofChar? d with
  | none => exact runsOn_of_blank_right (Kind.ofChar?_eq_none_iff.mp hk) c
  | some l =>
    refine runsOn_of_ne hop hk ?_
    rintro rfl
    have hsign := h d hd
    unfold Kind.ofChar? at hk
    simp only [hsign] at hk
    repeat' split at hk
    all_goals simp_all

/-- A field and what makes a comparison of it stand in two tokens. -/
theorem apart_field_operator {field : Text}
    (hfield : ∀ c ∈ field, isIdentifierChar c = true) {gap : Text} (hgap : Blank gap)
    (op : Operator) (s : Text) : Apart field (gap ++ (op.text ++ s)) := by
  intro c hc d hd
  cases gap with
  | cons b w =>
    cases hd
    exact runsOn_of_blank_right (blank_cons.mp hgap).1 c
  | nil =>
    have hword := ofChar?_of_isIdentifierChar (hfield c (List.mem_of_getLast? hc))
    rw [List.nil_append, List.head?_append_of_ne_nil _ (Operator.text_ne_nil op)] at hd
    exact runsOn_of_ne hword (ofChar?_of_mem_operator (List.mem_of_mem_head? hd)) (by simp)

end Token

/-- A comparison as it is written: a field, an operator and a value, with gaps around the
operator. -/
def comparisonText (field gap : Text) (op : Operator) (gap' value : Text) : Text :=
  field ++ (gap ++ (op.text ++ (gap' ++ value)))

section Comparison

variable {field gap gap' value : Text} {op : Operator}

/-- The tokens of a comparison. -/
theorem lexemes_comparisonText (hne : field ≠ [])
    (hfield : ∀ c ∈ field, isIdentifierChar c = true) (hgap : Blank gap) (hgap' : Blank gap')
    (hseam : Apart op.text (gap' ++ value)) :
    lexemes (comparisonText field gap op gap' value) =
      ⟨.word, [], field⟩ :: ⟨.operator, gap, op.text⟩ :: pad gap' (lexemes value) := by
  have hend : blankEnd field = [] := by
    refine (solid_of_no_blank hne fun c hc => ?_).blankEnd
    cases hb : isBlank c with
    | false => rfl
    | true =>
      have := ofChar?_of_isIdentifierChar (hfield c hc)
      rw [Kind.ofChar?_of_blank hb] at this
      cases this
  have hopend : blankEnd op.text = [] := by cases op <;> decide
  rw [comparisonText, lexemes_append (apart_field_operator hfield hgap op _),
    lexemes_blank_append hgap, lexemes_append hseam, lexemes_blank_append hgap',
    lexemes_operator, lexemes_of_run rfl hne fun c hc => ofChar?_of_isIdentifierChar (hfield c hc),
    hend, hopend]
  simp

/-- **A comparison is read as one.** -/
theorem Filter.ofTokens_comparison (hne : field ≠ [])
    (hfield : ∀ c ∈ field, isIdentifierChar c = true) (hgap : Blank gap) (hgap' : Blank gap')
    (hseam : Apart op.text (gap' ++ value)) :
    Filter.ofTokens (lexemes (comparisonText field gap op gap' value)) =
      ⟨field, some op, nonempty? (trim value)⟩ := by
  have hid : isIdentifier ⟨.word, [], field⟩ = true := by
    simpa [isIdentifier] using hfield
  rw [lexemes_comparisonText hne hfield hgap hgap' hseam]
  simp [Filter.ofTokens, hid, operator?]

/-- An identifier behind white space is one token. -/
theorem lexemes_of_identifier {v : Text} (hne : trim v ≠ [])
    (hid : ∀ c ∈ trim v, isIdentifierChar c = true) (hend : blankEnd v = []) :
    ∃ w, lexemes v = [⟨.word, w, trim v⟩] := by
  obtain ⟨w, hw, hv⟩ := exists_eq_blank_append_trim hend
  refine ⟨w, ?_⟩
  rw [hv, lexemes_blank_append hw,
    lexemes_of_run rfl hne fun c hc => ofChar?_of_isIdentifierChar (hid c hc), pad_cons,
    List.append_nil, trim_blank_append hw, trim_trim]

/-- **Behind an identifier and white space an operator makes a comparison**, of which the value is
missing. -/
theorem Filter.ofTokens_identifier_append (op : Operator) {v : Text} (hne : trim v ≠ [])
    (hid : ∀ c ∈ trim v, isIdentifierChar c = true) (hend : blankEnd v = []) (hgap : Blank gap)
    (hgapne : gap ≠ []) :
    Filter.ofTokens (lexemes (v ++ (gap ++ op.text))) = ⟨trim v, some op, none⟩ := by
  obtain ⟨w, hlex⟩ := lexemes_of_identifier hne hid hend
  have hword : isIdentifier ⟨.word, w, trim v⟩ = true := by simpa [isIdentifier] using hid
  have hop : operator? ⟨.operator, gap, op.text⟩ = some op := by simp [operator?]
  rw [lexemes_append (apart_blank_right v hgap hgapne _), hend, pad_nil_gap,
    lexemes_blank_append hgap, lexemes_operator, hlex, pad_cons, List.append_nil,
    List.singleton_append, Filter.ofTokens_of_operator hword hop]
  rfl

/-- A comparison has its commas and parentheses in its value. -/
theorem no_bracket_of_isIdentifierChar {c : Char} (h : isIdentifierChar c = true) :
    c ≠ ',' ∧ c ≠ '(' ∧ c ≠ ')' := by
  refine ⟨?_, ?_, ?_⟩ <;> rintro rfl <;> exact absurd h (by decide)

theorem no_bracket_of_blank {s : Text} (h : Blank s) : ∀ c ∈ s, c ≠ ',' ∧ c ≠ '(' ∧ c ≠ ')' := by
  intro c hc
  refine ⟨?_, ?_, ?_⟩ <;> rintro rfl <;> exact absurd (h _ hc) (by decide)

theorem no_bracket_operator (op : Operator) : ∀ c ∈ op.text, c ≠ ',' ∧ c ≠ '(' ∧ c ≠ ')' := by
  cases op <;> decide

theorem no_bracket_before_value (hfield : ∀ c ∈ field, isIdentifierChar c = true)
    (hgap : Blank gap) (hgap' : Blank gap') :
    ∀ c ∈ field ++ (gap ++ (op.text ++ gap')), c ≠ ',' ∧ c ≠ '(' ∧ c ≠ ')' := by
  intro c hc
  simp only [List.mem_append] at hc
  rcases hc with hc | hc | hc | hc
  · exact no_bracket_of_isIdentifierChar (hfield c hc)
  · exact no_bracket_of_blank hgap c hc
  · exact no_bracket_operator op c hc
  · exact no_bracket_of_blank hgap' c hc

theorem comparisonText_eq : comparisonText field gap op gap' value =
    (field ++ (gap ++ (op.text ++ gap'))) ++ value := by
  simp [comparisonText]

theorem depth_comparisonText (hfield : ∀ c ∈ field, isIdentifierChar c = true)
    (hgap : Blank gap) (hgap' : Blank gap') :
    depth (comparisonText field gap op gap' value) = depth value := by
  rw [comparisonText_eq, depth, depthFrom_append, depthFrom_of_no_paren fun c hc =>
    (no_bracket_before_value hfield hgap hgap' c hc).2]
  rfl

theorem sheltered_comparisonText (hfield : ∀ c ∈ field, isIdentifierChar c = true)
    (hgap : Blank gap) (hgap' : Blank gap') (hvalue : Sheltered value) :
    Sheltered (comparisonText field gap op gap' value) := by
  rw [comparisonText_eq]
  exact Sheltered.append (no_bracket_before_value hfield hgap hgap') hvalue

/-- **A comparison is quiet** if its value is and its field is not spelled like a keyword. -/
theorem quiet_comparisonText (hfield : ∀ c ∈ field, isIdentifierChar c = true)
    (hquiet : Text.Quiet field) (hgap : Blank gap) (hgap' : Blank gap')
    (hseam : Apart op.text (gap' ++ value)) (hvalue : Text.Quiet value) :
    Text.Quiet (comparisonText field gap op gap' value) := by
  have hop : Text.Quiet op.text := by
    refine quiet_of_no_blank ?_ ?_
    · cases op <;> decide
    · intro k hk
      cases op <;> cases k <;> first | exact absurd rfl hk | decide
  exact hquiet.append
    (Text.Quiet.blank_append hgap (hop.append (Text.Quiet.blank_append hgap' hvalue) hseam))
    (apart_field_operator hfield hgap op _)

end Comparison

end ChainQuery
