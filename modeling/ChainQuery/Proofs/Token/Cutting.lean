import ChainQuery.Token
import ChainQuery.Proofs.Text.Trimming
import Mathlib.Data.List.Basic

/-!
# Where a text can be cut

Whatever is said about a query is said about the tokens of a text that was put together from
smaller texts. **Cutting is local**: as long as the two characters at the seam do not stand in
one token, the tokens of a text in two parts are those of the first part and those of the
second, and only the gap at the seam – white space at the end of the first part – moves over
(`ChainQuery.Token.lexemes_append`). A seam of this kind is `ChainQuery.Token.Apart`: white
space on either side makes one, and so does a comma or a parenthesis.

Nothing can be said so simply when the seam goes through a token, which is what happens while
a text is being typed. Then all tokens but the last are there already, and the last one has
its kind and its gap (`ChainQuery.Token.exists_lexemes_append_eq`).
-/

namespace ChainQuery

namespace Token

open Text

/-! ### What cutting guarantees -/

/-- **A token as it is cut**: its characters are all of its kind, and what stands before it is
white space. -/
structure IsCut (t : Token) : Prop where
  /-- Every character is of the kind of the token. -/
  kind : ∀ c ∈ t.text, Kind.ofChar? c = some t.kind
  /-- A token that is no run is a single character. -/
  single : t.kind.runs = false → t.text.length = 1
  /-- Some character is there. -/
  ne_nil : t.text ≠ []
  /-- The gap is white space. -/
  gap : Blank t.gap

theorem Kind.ofChar?_ne_keyword (c : Char) (k : Keyword) :
    Kind.ofChar? c ≠ some (.keyword k) := by
  unfold Kind.ofChar?
  repeat' split
  all_goals simp

theorem Kind.ofChar?_of_blank {c : Char} (hc : isBlank c = true) : Kind.ofChar? c = none :=
  Kind.ofChar?_eq_none_iff.mpr hc

theorem Kind.exists_ofChar? {c : Char} (hc : isBlank c = false) :
    ∃ k, Kind.ofChar? c = some k := by
  cases h : Kind.ofChar? c with
  | none => exact absurd (Kind.ofChar?_eq_none_iff.mp h) (by simp [hc])
  | some k => exact ⟨k, rfl⟩

/-- Cutting alone makes no keywords. -/
theorem IsCut.keyword? {t : Token} (ht : t.IsCut) : t.keyword? = none := by
  obtain ⟨c, s, hs⟩ := List.exists_cons_of_ne_nil ht.ne_nil
  have hc := ht.kind c (by simp [hs])
  unfold Token.keyword?
  split
  · next k hk => exact absurd (hk ▸ hc) (Kind.ofChar?_ne_keyword c k)
  · rfl

theorem Kind.eq_of_openParen {c : Char} (h : Kind.ofChar? c = some .openParen) : c = '(' := by
  unfold Kind.ofChar? at h
  repeat' split at h
  all_goals simp_all

theorem Kind.eq_of_closeParen {c : Char} (h : Kind.ofChar? c = some .closeParen) : c = ')' := by
  unfold Kind.ofChar? at h
  repeat' split at h
  all_goals simp_all

theorem Kind.eq_of_comma {c : Char} (h : Kind.ofChar? c = some .comma) : c = ',' := by
  unfold Kind.ofChar? at h
  repeat' split at h
  all_goals simp_all

/-- A token that is no run is spelled by its one character. -/
theorem IsCut.text_eq {t : Token} (ht : t.IsCut) (hruns : t.kind.runs = false) :
    ∃ c, t.text = [c] ∧ Kind.ofChar? c = some t.kind := by
  obtain ⟨c, hc⟩ := List.length_eq_one_iff.mp (ht.single hruns)
  exact ⟨c, hc, ht.kind c (by simp [hc])⟩

/-- One more character before tokens that are cut leaves them cut. -/
theorem isCut_addChar (c : Char) {later : List Token} (h : ∀ t ∈ later, t.IsCut) :
    ∀ t ∈ addChar c later, t.IsCut := by
  intro u hu
  cases hc : Kind.ofChar? c with
  | none =>
    have hb : isBlank c = true := Kind.ofChar?_eq_none_iff.mp hc
    cases later with
    | nil => simp [addChar, hc] at hu
    | cons t rest =>
      simp only [addChar, hc, List.mem_cons] at hu
      rcases hu with rfl | hu
      · have ht := h t List.mem_cons_self
        exact ⟨ht.kind, ht.single, ht.ne_nil, blank_cons.mpr ⟨hb, ht.gap⟩⟩
      · exact h u (List.mem_cons_of_mem t hu)
  | some k =>
    -- the character begins a token, or goes to one of its kind that runs
    have hfresh : (⟨k, [], [c]⟩ : Token).IsCut :=
      ⟨by simpa using hc, fun _ => rfl, by simp, by simp⟩
    cases later with
    | nil =>
      simp only [addChar, hc, List.mem_singleton] at hu
      exact hu ▸ hfresh
    | cons t rest =>
      simp only [addChar, hc] at hu
      split at hu
      · next hrun =>
        simp only [Bool.and_eq_true, beq_iff_eq] at hrun
        rcases List.mem_cons.mp hu with rfl | hu
        · have ht := h t List.mem_cons_self
          refine ⟨?_, ?_, by simp, ht.gap⟩
          · intro d hd
            rcases List.mem_cons.mp hd with rfl | hd
            · rw [hc, hrun.1.2]
            · exact ht.kind d hd
          · intro hruns
            rw [hrun.1.2, hrun.1.1] at hruns
            cases hruns
        · exact h u (List.mem_cons_of_mem t hu)
      · rcases List.mem_cons.mp hu with rfl | hu
        · exact hfresh
        · exact h u hu

/-- **The tokens of a text are cut.** -/
theorem isCut_of_mem_lexemes {s : Text} : ∀ t ∈ lexemes s, t.IsCut := by
  induction s with
  | nil => simp
  | cons c s ih => exact isCut_addChar c ih

theorem lexemes_eq_nil_iff {s : Text} : lexemes s = [] ↔ Blank s := by
  rw [← spelling_eq_nil_iff_of_lexemes, spelling_lexemes, trimEnd_eq_nil_iff]

/-! ### White space before tokens -/

/-- White space put before the first of some tokens. -/
def pad (w : Text) : List Token → List Token
  | [] => []
  | t :: rest => { t with gap := w ++ t.gap } :: rest

@[simp] theorem pad_nil (w : Text) : pad w [] = [] := rfl

@[simp] theorem pad_cons (w : Text) (t : Token) (rest : List Token) :
    pad w (t :: rest) = { t with gap := w ++ t.gap } :: rest := rfl

@[simp] theorem pad_nil_gap (tokens : List Token) : pad [] tokens = tokens := by
  cases tokens <;> simp

theorem pad_pad (v w : Text) (tokens : List Token) : pad v (pad w tokens) = pad (v ++ w) tokens := by
  cases tokens <;> simp

@[simp] theorem pad_eq_nil_iff {w : Text} {tokens : List Token} :
    pad w tokens = [] ↔ tokens = [] := by
  cases tokens <;> simp

theorem pad_append_of_ne_nil (w : Text) {tokens : List Token} (h : tokens ≠ [])
    (more : List Token) : pad w (tokens ++ more) = pad w tokens ++ more := by
  cases tokens with
  | nil => exact absurd rfl h
  | cons t rest => rfl

/-- Behind some white space a token is spaced. -/
theorem spaced_head_pad {w : Text} (hw : w ≠ []) (tokens : List Token) :
    ∀ u ∈ (pad w tokens).head?, u.spaced = true := by
  intro u hu
  cases tokens with
  | nil => cases hu
  | cons t rest =>
    rw [pad_cons, List.head?_cons, Option.mem_some_iff] at hu
    simp [← hu, spaced, hw]

/-- The gap before the first token does not belong to the stretch of the tokens. -/
@[simp] theorem stretch_pad (w : Text) (tokens : List Token) :
    stretch (pad w tokens) = stretch tokens := by
  cases tokens <;> rfl

theorem addChar_of_blank {c : Char} (hc : isBlank c = true) (later : List Token) :
    addChar c later = pad [c] later := by
  cases later <;> simp [addChar, Kind.ofChar?_of_blank hc]

theorem lexemes_blank_append {w : Text} (hw : Blank w) (s : Text) :
    lexemes (w ++ s) = pad w (lexemes s) := by
  induction w with
  | nil => simp
  | cons c w ih =>
    obtain ⟨hc, hw⟩ := blank_cons.mp hw
    rw [List.cons_append, lexemes_cons, ih hw, addChar_of_blank hc, pad_pad]
    rfl

/-! ### The seam between two texts -/

/-- Two characters that would stand in one token. -/
def runsOn (c d : Char) : Bool :=
  match Kind.ofChar? c, Kind.ofChar? d with
  | some k, some l => k.runs && l == k
  | _, _ => false

/-- **Two texts that can be put together without joining tokens**: the last character of the
first and the first of the second do not stand in one token. -/
def Apart (s t : Text) : Prop := ∀ c ∈ s.getLast?, ∀ d ∈ t.head?, runsOn c d = false

theorem apart_nil_left (t : Text) : Apart [] t := by simp [Apart]

theorem apart_nil_right (s : Text) : Apart s [] := by simp [Apart]

theorem apart_of_head {s t : Text} {d : Char} (hd : ∀ c, runsOn c d = false) :
    Apart s (d :: t) := by
  intro c _ e he
  cases he
  exact hd c

theorem apart_of_last {s t : Text} {c : Char} (hc : ∀ d, runsOn c d = false) :
    Apart (s ++ [c]) t := by
  intro b hb d _
  rw [List.getLast?_concat] at hb
  cases hb
  exact hc d

theorem runsOn_of_blank_right {d : Char} (hd : isBlank d = true) (c : Char) :
    runsOn c d = false := by
  rw [runsOn, Kind.ofChar?_of_blank hd]
  split
  · next h => cases h
  · rfl

theorem runsOn_of_blank_left {c : Char} (hc : isBlank c = true) (d : Char) :
    runsOn c d = false := by
  rw [runsOn, Kind.ofChar?_of_blank hc]

/-- A character that no token runs through is apart from everything before it. -/
theorem runsOn_of_not_runs_right {d : Char} {l : Kind} (hd : Kind.ofChar? d = some l)
    (hl : l.runs = false) (c : Char) : runsOn c d = false := by
  rw [runsOn, hd]
  split
  · next k m _ hm =>
    cases hm
    by_cases hkl : l = k
    · rw [← hkl, hl, Bool.false_and]
    · simp [hkl]
  · rfl

/-- A character that no token runs through is apart from everything behind it. -/
theorem runsOn_of_not_runs_left {c : Char} {k : Kind} (hc : Kind.ofChar? c = some k)
    (hk : k.runs = false) (d : Char) : runsOn c d = false := by
  rw [runsOn, hc]
  split
  · next l m hl _ =>
    cases hl
    rw [hk, Bool.false_and]
  · rfl

/-- Characters of two kinds do not stand in one token. -/
theorem runsOn_of_ne {c d : Char} {k l : Kind} (hc : Kind.ofChar? c = some k)
    (hd : Kind.ofChar? d = some l) (hkl : l ≠ k) : runsOn c d = false := by
  simp [runsOn, hc, hd, hkl]

theorem apart_blank_right (s : Text) {w : Text} (hw : Blank w) (hne : w ≠ []) (t : Text) :
    Apart s (w ++ t) := by
  obtain ⟨d, v, rfl⟩ := List.exists_cons_of_ne_nil hne
  exact apart_of_head (runsOn_of_blank_right (blank_cons.mp hw).1)

theorem apart_blank_left (s : Text) {w : Text} (hw : Blank w) (hne : w ≠ []) (t : Text) :
    Apart (s ++ w) t := by
  rw [← List.dropLast_concat_getLast hne, ← List.append_assoc]
  exact apart_of_last (runsOn_of_blank_left (hw _ (List.getLast_mem hne)))

theorem apart_of_blankEnd_ne_nil {s : Text} (h : blankEnd s ≠ []) (t : Text) : Apart s t := by
  rw [← trimEnd_append_blankEnd s]
  exact apart_blank_left _ (blank_blankEnd s) h t

/-- What follows a character as its first token: a token with white space before it, or one of
the kind of the character. -/
theorem exists_lexemes_cons {d : Char} {k : Kind} (hd : Kind.ofChar? d = some k) (t : Text) :
    ∃ x later, lexemes (d :: t) = ⟨k, [], d :: x⟩ :: later := by
  rw [lexemes_cons]
  cases lexemes t with
  | nil => exact ⟨[], [], by simp [addChar, hd]⟩
  | cons u rest =>
    by_cases hrun : k.runs && u.kind == k && !u.spaced
    · refine ⟨u.text, rest, ?_⟩
      simp only [addChar, hd, hrun, if_true]
      simp only [Bool.and_eq_true, beq_iff_eq, Bool.not_eq_true', spaced,
        Bool.not_eq_false', List.isEmpty_iff] at hrun
      rw [← hrun.1.2, ← hrun.2]
    · exact ⟨[], u :: rest, by simp [addChar, hd, hrun]⟩

/-- A character begins a token of its own before tokens that it does not run into. -/
theorem addChar_of_not_run {c : Char} {k : Kind} (hc : Kind.ofChar? c = some k)
    {later : List Token}
    (h : ∀ u ∈ later.head?, (k.runs && u.kind == k && !u.spaced) = false) :
    addChar c later = ⟨k, [], [c]⟩ :: later := by
  cases later with
  | nil => simp [addChar, hc]
  | cons u rest =>
    have hu := h u rfl
    simp only [addChar, hc, hu]
    rfl

/-- At a seam the character before it begins a token of its own. -/
theorem addChar_of_apart {c : Char} {k : Kind} (hc : Kind.ofChar? c = some k) {t : Text}
    (h : Apart [c] t) : addChar c (lexemes t) = ⟨k, [], [c]⟩ :: lexemes t := by
  refine addChar_of_not_run hc fun u hu => ?_
  cases t with
  | nil => simp at hu
  | cons d t =>
    have hcd : runsOn c d = false := h c rfl d rfl
    cases hd : Kind.ofChar? d with
    | none =>
      rw [lexemes_cons, addChar_of_blank (Kind.ofChar?_eq_none_iff.mp hd)] at hu
      cases hlex : lexemes t with
      | nil => simp [hlex] at hu
      | cons v rest =>
        simp only [hlex, pad_cons, List.head?_cons, Option.mem_def, Option.some.injEq] at hu
        simp [← hu, spaced]
    | some l =>
      obtain ⟨x, later, hlex⟩ := exists_lexemes_cons hd t
      simp only [hlex, List.head?_cons, Option.mem_def, Option.some.injEq] at hu
      simp only [runsOn, hc, hd] at hcd
      simp [← hu, hcd]

/-- A character before several tokens changes the first of them only. -/
theorem addChar_append {c : Char} {later : List Token} (h : later ≠ []) (more : List Token) :
    addChar c (later ++ more) = addChar c later ++ more := by
  cases later with
  | nil => exact absurd rfl h
  | cons t rest =>
    cases hc : Kind.ofChar? c with
    | none => simp [addChar, hc]
    | some k => by_cases hrun : k.runs && t.kind == k && !t.spaced <;> simp [addChar, hc, hrun]

/-- A character before white space begins a token of its own. -/
theorem addChar_pad {c : Char} {k : Kind} (hc : Kind.ofChar? c = some k) {w : Text} (hw : w ≠ [])
    (tokens : List Token) : addChar c (pad w tokens) = ⟨k, [], [c]⟩ :: pad w tokens := by
  refine addChar_of_not_run hc fun u hu => ?_
  simp [spaced_head_pad hw tokens u hu]

/-- **Cutting is local**: at a seam, the tokens of a text are those of its two parts, and the
white space at the end of the first part is the gap between them. -/
theorem lexemes_append {s t : Text} (h : Apart s t) :
    lexemes (s ++ t) = lexemes s ++ pad (blankEnd s) (lexemes t) := by
  induction s with
  | nil => simp
  | cons c s ih =>
    by_cases hbc : Blank (c :: s)
    · rw [lexemes_blank_append hbc, blankEnd_of_blank hbc, lexemes_eq_nil_iff.mpr hbc,
        List.nil_append]
    rw [List.cons_append, lexemes_cons, lexemes_cons, blankEnd_cons_of_not_blank hbc]
    by_cases hb : Blank s
    · -- only white space stands between the character and the seam
      have hc : isBlank c = false := by
        by_contra hcon
        exact hbc (blank_cons.mpr ⟨by simpa using hcon, hb⟩)
      obtain ⟨k, hk⟩ := Kind.exists_ofChar? hc
      have hone : addChar c [] = [⟨k, [], [c]⟩] := by simp [addChar, hk]
      rw [lexemes_eq_nil_iff.mpr hb, hone, lexemes_blank_append hb, blankEnd_of_blank hb]
      by_cases hs : s = []
      · subst hs
        rw [pad_nil_gap, addChar_of_apart hk h]
        rfl
      · rw [addChar_pad hk hs]
        rfl
    · -- the seam is further on, and the character does not reach it
      have hne : lexemes s ≠ [] := fun hcon => hb (lexemes_eq_nil_iff.mp hcon)
      have hs : s ≠ [] := fun hcon => hb (hcon ▸ blank_nil)
      have hst : Apart s t := by
        intro b hmem
        refine h b ?_
        rw [List.getLast?_cons_of_ne_nil hs]
        exact hmem
      rw [ih hst, addChar_append hne]

/-- White space at the end of a text is in no token and no gap. -/
theorem lexemes_append_blank (s : Text) {w : Text} (hw : Blank w) :
    lexemes (s ++ w) = lexemes s := by
  have hapart : Apart s w := by
    cases w with
    | nil => exact apart_nil_right s
    | cons c w => exact apart_of_head (runsOn_of_blank_right (blank_cons.mp hw).1)
  rw [lexemes_append hapart, lexemes_eq_nil_iff.mpr hw, pad_nil, List.append_nil]

theorem ofChar?_comma : Kind.ofChar? ',' = some .comma := by decide

/-- **A comma divides the tokens of a text.** -/
theorem lexemes_append_comma (s t : Text) :
    lexemes (s ++ ',' :: t) = lexemes s ++ ⟨.comma, blankEnd s, [',']⟩ :: lexemes t := by
  have hleft : Apart s (',' :: t) :=
    apart_of_head (runsOn_of_not_runs_right ofChar?_comma rfl)
  have hright : Apart [','] t :=
    apart_of_last (s := []) (runsOn_of_not_runs_left ofChar?_comma rfl)
  rw [lexemes_append hleft, lexemes_cons, addChar_of_apart ofChar?_comma hright, pad_cons,
    List.append_nil]

/-- A run of characters of one kind is one token. -/
theorem lexemes_of_run {k : Kind} (hk : k.runs = true) {s : Text} (hne : s ≠ [])
    (h : ∀ c ∈ s, Kind.ofChar? c = some k) : lexemes s = [⟨k, [], s⟩] := by
  induction s with
  | nil => exact absurd rfl hne
  | cons c s ih =>
    have hc := h c List.mem_cons_self
    by_cases hs : s = []
    · subst hs
      simp [addChar, hc]
    · rw [lexemes_cons, ih hs fun d hd => h d (List.mem_cons_of_mem c hd)]
      simp [addChar, hc, hk, spaced]

/-! ### Gaps and stretches -/

theorem stretch_cons_of_no_gap {t : Token} (ht : t.gap = []) (rest : List Token) :
    stretch (t :: rest) = spelling (t :: rest) := by
  rw [spelling_cons, ht, List.nil_append]
  rfl

/-- **From the first token to the last a text is what trimming leaves of it.** -/
@[simp] theorem stretch_lexemes (s : Text) : stretch (lexemes s) = trim s := by
  obtain ⟨v, hv, hs⟩ := exists_eq_blank_append_trimStart s
  have hlex : stretch (lexemes s) = stretch (lexemes (trimStart s)) := by
    rw [hs, lexemes_blank_append hv, stretch_pad, ← hs]
  rw [hlex, trim]
  cases hcase : trimStart s with
  | nil => rfl
  | cons c t =>
    obtain ⟨k, hk⟩ := Kind.exists_ofChar? (isBlank_head_trimStart hcase)
    obtain ⟨x, later, hl⟩ := exists_lexemes_cons hk t
    rw [hl, stretch_cons_of_no_gap rfl, ← hl, spelling_lexemes]

/-- In a text without white space there are no gaps. -/
theorem gap_eq_nil_of_no_blank {s : Text} (h : ∀ c ∈ s, isBlank c = false) :
    ∀ t ∈ lexemes s, t.gap = [] := by
  intro t ht
  have hmem : ∀ c ∈ t.gap, c ∈ s := by
    intro c hc
    have hspell : c ∈ spelling (lexemes s) :=
      List.mem_flatMap.mpr ⟨t, ht, List.mem_append_left _ hc⟩
    rw [spelling_lexemes] at hspell
    rw [← trimEnd_append_blankEnd s]
    exact List.mem_append_left _ hspell
  cases hgap : t.gap with
  | nil => rfl
  | cons c w =>
    have hc : c ∈ t.gap := by simp [hgap]
    exact absurd ((isCut_of_mem_lexemes t ht).gap c hc) (by simp [h c (hmem c hc)])

/-! ### A seam that goes through a token -/

theorem eq_nil_and_eq_of_singleton {t u : Token} {tokens : List Token} (h : [t] = tokens ++ [u]) :
    tokens = [] ∧ t = u := by
  have hsplit : [] ++ [t] = tokens ++ [u] := h
  obtain ⟨hnil, hone⟩ := List.append_inj' hsplit rfl
  exact ⟨hnil.symm, List.cons.inj hone |>.1⟩

/-- A character does to a token what it does to a beginning of it. -/
theorem addChar_append_text {c : Char} {v u : Token} {tokens : List Token}
    (h : addChar c [v] = tokens ++ [u]) (x : Text) (more : List Token) :
    addChar c ({ v with text := v.text ++ x } :: more) =
      tokens ++ { u with text := u.text ++ x } :: more := by
  cases hc : Kind.ofChar? c with
  | none =>
    obtain ⟨rfl, rfl⟩ := eq_nil_and_eq_of_singleton (by simpa [addChar, hc] using h)
    simp [addChar, hc]
  | some k =>
    by_cases hrun : k.runs && v.kind == k && !v.spaced
    · -- the token goes on to the left
      have hrun' : k.runs && v.kind == k && !(spaced { v with text := v.text ++ x }) := hrun
      obtain ⟨rfl, rfl⟩ := eq_nil_and_eq_of_singleton (by simpa [addChar, hc, hrun] using h)
      simp [addChar, hc, hrun']
    · -- the character is a token of its own
      have hrun' : ¬(k.runs && v.kind == k && !(spaced { v with text := v.text ++ x })) = true :=
        hrun
      have htwo : [⟨k, [], [c]⟩] ++ [v] = tokens ++ [u] := by simpa [addChar, hc, hrun] using h
      obtain ⟨rfl, hone⟩ := List.append_inj' htwo rfl
      cases hone
      simp [addChar, hc, hrun']

/-- **All tokens but the last are there already** when a text is only begun; and the last one
has its kind, its gap, and the characters that it begins with. -/
theorem exists_lexemes_append_eq {s : Text} {tokens : List Token} {u : Token}
    (h : lexemes s = tokens ++ [u]) (r : Text) :
    ∃ x more, lexemes (s ++ r) = tokens ++ { u with text := u.text ++ x } :: more := by
  induction s generalizing tokens u with
  | nil => simp at h
  | cons c s ih =>
    rw [lexemes_cons] at h
    rcases List.eq_nil_or_concat' (lexemes s) with hs | ⟨before, v, hs⟩
    · -- the character begins the last token
      rw [hs] at h
      cases hc : Kind.ofChar? c with
      | none => simp [addChar, hc] at h
      | some k =>
        obtain ⟨rfl, rfl⟩ := eq_nil_and_eq_of_singleton (by simpa [addChar, hc] using h)
        obtain ⟨x, more, hmore⟩ := exists_lexemes_cons hc (s ++ r)
        exact ⟨x, more, by rw [List.cons_append, hmore]; rfl⟩
    · rw [hs] at h
      obtain ⟨x, more, hmore⟩ := ih hs
      rw [List.cons_append, lexemes_cons, hmore]
      cases before with
      | cons t rest =>
        -- the character goes to a token that is finished
        rw [addChar_append (by simp)] at h ⊢
        obtain ⟨htokens, hu⟩ := List.append_inj' h rfl
        cases hu
        exact ⟨x, more, by rw [htokens]⟩
      | nil => exact ⟨x, more, addChar_append_text h x more⟩

end Token

end ChainQuery
