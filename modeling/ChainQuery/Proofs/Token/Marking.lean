import ChainQuery.Proofs.Token.Cutting

/-!
# Which tokens are keywords

Whether a token is a keyword depends on its two neighbours in the text and on nothing else, so
marking is as local as cutting is. What makes it less simple is that the *end* of a text counts
as white space: a word that is no keyword in the middle of a text may be one where the text
stops.

The texts that matter are the **quiet** ones, in which no keyword occurs even when white space
is put before them (`ChainQuery.Text.Quiet`). They can be put together as they please, as long
as no tokens are joined (`ChainQuery.Text.Quiet.append`), and everything that a query is made of
besides its keywords is such a text. A part of a quiet text that is still being typed need not
be quiet, but then it is a quiet text followed by a keyword, with which it ends
(`ChainQuery.Text.quietSoFar_of_append`) – the beginning of a word that is not yet finished.
-/

namespace ChainQuery

namespace Token

open Text

/-! ### Marking one token -/

/-- The keyword as which a token is marked when other tokens follow. -/
def opener? (t : Token) (later : List Token) : Option Keyword :=
  if t.isDelimited later then t.delimiter? else none

theorem delimiter?_eq_some_iff {t : Token} {k : Keyword} :
    t.delimiter? = some k ↔ t.text = k.text ∧ k ≠ .fields := by
  rw [delimiter?, Option.filter_eq_some_iff, bne_iff_ne]
  constructor
  · rintro ⟨h, hk⟩
    exact ⟨(Keyword.text_of_ofText? h).symm, hk⟩
  · rintro ⟨h, hk⟩
    exact ⟨h ▸ Keyword.ofText?_text k, hk⟩

theorem opener?_eq_some_iff {t : Token} {later : List Token} {k : Keyword} :
    t.opener? later = some k ↔ t.isDelimited later = true ∧ t.text = k.text ∧ k ≠ .fields := by
  rw [← delimiter?_eq_some_iff, opener?]
  split
  · next h => simp [h]
  · next h => simp [h]

theorem opener?_of_not_spaced {t : Token} (ht : t.spaced = false) (later : List Token) :
    t.opener? later = none := by
  rw [opener?, isDelimited, ht]
  rfl

@[simp] theorem markKeywords_nil : markKeywords [] = [] := rfl

theorem markKeywords_cons_of_none {t : Token} {later : List Token} (h : t.opener? later = none) :
    markKeywords (t :: later) = t :: markKeywords later := by
  rw [markKeywords]
  cases hd : t.delimiter? with
  | none => rfl
  | some k =>
    have hnot : t.isDelimited later = false := by
      by_contra hcon
      rw [opener?, if_pos (by simpa using hcon), hd] at h
      cases h
    simp [hnot]

theorem markKeywords_cons_of_some {t : Token} {later : List Token} {k : Keyword}
    (h : t.opener? later = some k) :
    markKeywords (t :: later) = { t with kind := .keyword k } :: markKeywords later := by
  obtain ⟨hdel, hk⟩ := opener?_eq_some_iff.mp h
  rw [markKeywords, delimiter?_eq_some_iff.mpr hk]
  simp [hdel]

/-- **Marking makes keywords**, and leaves every token its gap and its text. -/
theorem mem_of_mem_markKeywords {tokens : List Token} {t : Token} (h : t ∈ markKeywords tokens) :
    ∃ u ∈ tokens, t = u ∨ ∃ k, t = { u with kind := .keyword k } := by
  induction tokens with
  | nil => cases h
  | cons u rest ih =>
    cases hopen : u.opener? rest with
    | none =>
      rw [markKeywords_cons_of_none hopen, List.mem_cons] at h
      rcases h with rfl | h
      · exact ⟨t, List.mem_cons_self, Or.inl rfl⟩
      · obtain ⟨v, hv, hmarked⟩ := ih h
        exact ⟨v, List.mem_cons_of_mem u hv, hmarked⟩
    | some k =>
      rw [markKeywords_cons_of_some hopen, List.mem_cons] at h
      rcases h with rfl | h
      · exact ⟨u, List.mem_cons_self, Or.inr ⟨k, rfl⟩⟩
      · obtain ⟨v, hv, hmarked⟩ := ih h
        exact ⟨v, List.mem_cons_of_mem u hv, hmarked⟩

/-- A token that is followed by another does not see what follows that one. -/
theorem opener?_append {t : Token} {later : List Token} (h : later ≠ []) (more : List Token) :
    t.opener? (later ++ more) = t.opener? later := by
  cases later with
  | nil => exact absurd rfl h
  | cons u rest => rfl

/-- A token at the end is marked if it is marked before other tokens. -/
theorem opener?_of_nil {t : Token} (h : t.opener? [] = none) (later : List Token) :
    t.opener? later = none := by
  cases hk : t.opener? later with
  | none => rfl
  | some k =>
    obtain ⟨hdel, hk⟩ := opener?_eq_some_iff.mp hk
    rw [isDelimited, Bool.and_eq_true] at hdel
    have hend : t.isDelimited [] = true := by simp [isDelimited, hdel.1]
    rw [opener?_eq_some_iff.mpr ⟨hend, hk⟩] at h
    cases h

/-! ### Tokens without keywords -/

/-- No keyword is found among some tokens. -/
def Quiet (tokens : List Token) : Prop := ∀ t ∈ markKeywords tokens, t.keyword? = none

@[simp] theorem quiet_nil : Quiet [] := by simp [Quiet]

theorem quiet_cons_iff {t : Token} {later : List Token} :
    Quiet (t :: later) ↔ t.keyword? = none ∧ t.opener? later = none ∧ Quiet later := by
  cases h : t.opener? later with
  | none => simp [Quiet, markKeywords_cons_of_none h]
  | some k => simp [Quiet, markKeywords_cons_of_some h, Token.keyword?]

theorem markKeywords_of_quiet {tokens : List Token} (h : Quiet tokens) :
    markKeywords tokens = tokens := by
  induction tokens with
  | nil => rfl
  | cons t later ih =>
    obtain ⟨-, ht, hlater⟩ := quiet_cons_iff.mp h
    rw [markKeywords_cons_of_none ht, ih hlater]

theorem keyword?_of_quiet {tokens : List Token} (h : Quiet tokens) :
    ∀ t ∈ tokens, t.keyword? = none := by
  have hquiet := h
  rw [Quiet, markKeywords_of_quiet h] at hquiet
  exact hquiet

/-- **Before anything at all, tokens without keywords stay what they are.** -/
theorem markKeywords_append_of_quiet {tokens : List Token} (h : Quiet tokens)
    (more : List Token) : markKeywords (tokens ++ more) = tokens ++ markKeywords more := by
  induction tokens with
  | nil => rfl
  | cons t later ih =>
    obtain ⟨-, ht, hlater⟩ := quiet_cons_iff.mp h
    have ht' : t.opener? (later ++ more) = none := by
      by_cases hl : later = []
      · subst hl
        exact opener?_of_nil ht _
      · rwa [opener?_append hl]
    rw [List.cons_append, markKeywords_cons_of_none ht', ih hlater, List.cons_append]

theorem quiet_append {tokens more : List Token} (h : Quiet tokens) (hmore : Quiet more) :
    Quiet (tokens ++ more) := by
  intro t ht
  rw [markKeywords_append_of_quiet h] at ht
  rcases List.mem_append.mp ht with ht | ht
  · exact keyword?_of_quiet h t ht
  · exact hmore t ht

/-- White space before a token marks the end of a text for the tokens before it. -/
theorem opener?_append_of_spaced {t : Token} {later more : List Token}
    (hmore : ∀ u ∈ more.head?, u.spaced = true) :
    t.opener? (later ++ more) = t.opener? later := by
  by_cases hl : later = []
  · subst hl
    cases more with
    | nil => rfl
    | cons u rest =>
      have hu : u.spaced = true := hmore u rfl
      simp [opener?, isDelimited, hu]
  · exact opener?_append hl more

/-- **Marking is local**: at white space the tokens on the two sides are marked each by
themselves. -/
theorem markKeywords_append_of_spaced (tokens : List Token) {more : List Token}
    (hmore : ∀ u ∈ more.head?, u.spaced = true) :
    markKeywords (tokens ++ more) = markKeywords tokens ++ markKeywords more := by
  induction tokens with
  | nil => rfl
  | cons t later ih =>
    have ht : t.opener? (later ++ more) = t.opener? later := opener?_append_of_spaced hmore
    cases h : t.opener? later with
    | none =>
      rw [List.cons_append, markKeywords_cons_of_none (ht.trans h), ih,
        markKeywords_cons_of_none h, List.cons_append]
    | some k =>
      rw [List.cons_append, markKeywords_cons_of_some (ht.trans h), ih,
        markKeywords_cons_of_some h, List.cons_append]

theorem quiet_of_append_left {tokens more : List Token} (h : Quiet (tokens ++ more))
    (hmore : ∀ u ∈ more.head?, u.spaced = true) : Quiet tokens := by
  intro t ht
  rw [Quiet, markKeywords_append_of_spaced _ hmore] at h
  exact h t (List.mem_append_left _ ht)

/-- Tokens whose last one goes on with more text are without keywords if they are so with that
text, and if the last one is no keyword where it stops. -/
theorem quiet_concat {tokens more : List Token} {u v : Token}
    (h : Quiet (tokens ++ v :: more)) (hv : v.spaced = u.spaced) (hkey : u.keyword? = none)
    (hu : u.opener? [] = none) : Quiet (tokens ++ [u]) := by
  induction tokens with
  | nil => exact quiet_cons_iff.mpr ⟨hkey, hu, quiet_nil⟩
  | cons t tokens ih =>
    rw [List.cons_append] at h
    obtain ⟨h1, h2, h3⟩ := quiet_cons_iff.mp h
    refine quiet_cons_iff.mpr ⟨h1, ?_, ih h3⟩
    cases tokens with
    | nil =>
      rw [← h2]
      simp [opener?, isDelimited, hv]
    | cons y ys => exact h2

/-- Tokens that stand close together are no keywords. -/
theorem quiet_of_not_spaced {tokens : List Token}
    (h : ∀ t ∈ tokens, t.keyword? = none ∧ t.spaced = false) : Quiet tokens := by
  induction tokens with
  | nil => exact quiet_nil
  | cons t later ih =>
    obtain ⟨hkey, hgap⟩ := h t List.mem_cons_self
    exact quiet_cons_iff.mpr ⟨hkey, opener?_of_not_spaced hgap later,
      ih fun u hu => h u (List.mem_cons_of_mem t hu)⟩

/-- Nothing makes more keywords than white space put before the tokens. -/
theorem quiet_pad {v : Text} (hv : v ≠ []) {tokens : List Token} (h : Quiet (pad v tokens))
    (w : Text) : Quiet (pad w tokens) := by
  cases tokens with
  | nil => exact quiet_nil
  | cons t later =>
    obtain ⟨hkey, ht, hlater⟩ := quiet_cons_iff.mp h
    refine quiet_cons_iff.mpr ⟨hkey, ?_, hlater⟩
    cases hk : opener? { t with gap := w ++ t.gap } later with
    | none => rfl
    | some k =>
      obtain ⟨hdel, hk⟩ := opener?_eq_some_iff.mp hk
      rw [isDelimited, Bool.and_eq_true] at hdel
      have hdel' : isDelimited { t with gap := v ++ t.gap } later = true := by
        rw [isDelimited, Bool.and_eq_true]
        exact ⟨by simp [spaced, hv], hdel.2⟩
      rw [opener?_eq_some_iff.mpr ⟨hdel', hk⟩] at ht
      cases ht

end Token

namespace Text

open Token

/-! ### Quiet texts -/

/-- **A quiet text**: put behind a space, it holds no keyword. -/
def Quiet (s : Text) : Prop := ∀ t ∈ tokenize (' ' :: s), t.keyword? = none

instance (s : Text) : Decidable (Quiet s) :=
  inferInstanceAs (Decidable (∀ t ∈ tokenize (' ' :: s), t.keyword? = none))

theorem quiet_iff {s : Text} : Quiet s ↔ Token.Quiet (pad [' '] (lexemes s)) := by
  rw [Quiet, tokenize, lexemes_cons, addChar_of_blank isBlank_space]
  rfl

theorem Quiet.pad {s : Text} (h : Quiet s) (w : Text) : Token.Quiet (pad w (lexemes s)) :=
  quiet_pad (by simp) (quiet_iff.mp h) w

theorem Quiet.lexemes {s : Text} (h : Quiet s) : Token.Quiet (lexemes s) := by
  simpa using h.pad []

theorem quiet_of_blank {s : Text} (h : Blank s) : Quiet s := by
  rw [quiet_iff, lexemes_eq_nil_iff.mpr h]
  exact quiet_nil

/-- **Quiet texts make quiet texts**, unless tokens are joined at the seam. -/
theorem Quiet.append {s t : Text} (hs : Quiet s) (ht : Quiet t) (hst : Apart s t) :
    Quiet (s ++ t) := by
  rw [quiet_iff, lexemes_append hst]
  by_cases hblank : Blank s
  · rw [lexemes_eq_nil_iff.mpr hblank, List.nil_append, pad_pad]
    exact ht.pad _
  · have hne : Token.lexemes s ≠ [] := fun hcon => hblank (lexemes_eq_nil_iff.mp hcon)
    rw [pad_append_of_ne_nil _ hne]
    exact quiet_append (hs.pad _) (ht.pad _)

theorem Quiet.append_blank {s w : Text} (hs : Quiet s) (hw : Blank w) : Quiet (s ++ w) := by
  rw [quiet_iff, lexemes_append_blank s hw]
  exact quiet_iff.mp hs

theorem Quiet.blank_append {w s : Text} (hw : Blank w) (hs : Quiet s) : Quiet (w ++ s) := by
  rw [quiet_iff, lexemes_blank_append hw, pad_pad]
  exact hs.pad _

theorem Quiet.append_comma {s t : Text} (hs : Quiet s) (ht : Quiet t) :
    Quiet (s ++ ',' :: t) := by
  have hcomma : Quiet [','] := by
    unfold Quiet
    decide
  have hleft : Apart s (',' :: t) :=
    apart_of_head (runsOn_of_not_runs_right ofChar?_comma rfl)
  have hright : Apart [','] t :=
    apart_of_last (s := []) (runsOn_of_not_runs_left ofChar?_comma rfl)
  exact hs.append (hcomma.append ht hright) hleft

/-- **A word is quiet**, unless it is spelled like a keyword. -/
theorem quiet_of_no_blank {s : Text} (h : ∀ c ∈ s, isBlank c = false)
    (hk : ∀ k : Keyword, k ≠ .fields → s ≠ k.text) : Quiet s := by
  rw [quiet_iff]
  have hgap := gap_eq_nil_of_no_blank h
  have hcut := isCut_of_mem_lexemes (s := s)
  cases hlex : Token.lexemes s with
  | nil => exact quiet_nil
  | cons t later =>
    rw [hlex] at hgap hcut
    have hclose : ∀ u ∈ later, u.keyword? = none ∧ u.spaced = false := by
      intro u hu
      refine ⟨(hcut u (List.mem_cons_of_mem t hu)).keyword?, ?_⟩
      simp [spaced, hgap u (List.mem_cons_of_mem t hu)]
    refine quiet_cons_iff.mpr
      ⟨(hcut t List.mem_cons_self).keyword?, ?_, quiet_of_not_spaced hclose⟩
    cases hop : opener? { t with gap := [' '] ++ t.gap } later with
    | none => rfl
    | some k =>
      obtain ⟨hdel, htext, hkey⟩ := opener?_eq_some_iff.mp hop
      rw [isDelimited, Bool.and_eq_true] at hdel
      -- a word that is one token is the text of that token
      have hone : later = [] := by
        cases later with
        | nil => rfl
        | cons u rest =>
          have hu := hdel.2
          simp [(hclose u List.mem_cons_self).2] at hu
      subst hone
      have hspell := spelling_lexemes s
      rw [hlex, spelling_cons, hgap t List.mem_cons_self, spelling_nil, List.append_nil,
        List.nil_append] at hspell
      have hs : s ≠ [] := by
        rintro rfl
        simp at hlex
      rw [(solid_of_no_blank hs h).trimEnd] at hspell
      exact absurd (hspell.symm.trans htext) (hk k hkey)

/-! ### A quiet text that is being typed -/

/-- A keyword is a single token. -/
theorem exists_lexemes_keyword (k : Keyword) :
    ∃ kind, Token.lexemes k.text = [⟨kind, [], k.text⟩] := by
  cases k
  case dump => exact ⟨.operator, by decide⟩
  all_goals exact ⟨.word, by decide⟩

/-- No white space stands at the ends of a keyword. -/
theorem solid_keyword (k : Keyword) : Solid k.text := by cases k <;> decide

/-- A text that stops at white space is quiet if it goes on quietly. -/
theorem quiet_of_append_of_blankEnd {s r : Text} (h : Quiet (s ++ r))
    (hend : blankEnd (' ' :: s) ≠ []) : Quiet s := by
  have hall : Token.Quiet (Token.lexemes ((' ' :: s) ++ r)) := h
  rw [lexemes_append (apart_of_blankEnd_ne_nil hend r)] at hall
  exact quiet_of_append_left hall (spaced_head_pad hend _)

/-- **A text that is quiet so far**: it is quiet but for a keyword with which it may end. The
keyword stands behind white space, or at the very beginning. -/
def QuietSoFar (s : Text) : Prop :=
  Quiet s ∨ ∃ q k, s = q ++ Keyword.text k ∧ k ≠ .fields ∧ Quiet q ∧ blankEnd (' ' :: q) ≠ []

/-- **The beginning of a quiet text is quiet so far**: the keyword in which it may end is a word
that would go on. -/
theorem quietSoFar_of_append {s r : Text} (h : Quiet (s ++ r)) : QuietSoFar s := by
  by_cases hend : blankEnd (' ' :: s) = []
  case neg => exact Or.inl (quiet_of_append_of_blankEnd h hend)
  rcases List.eq_nil_or_concat' (Token.lexemes (' ' :: s)) with hs | ⟨tokens, u, hs⟩
  · exact Or.inl (quiet_of_blank (blank_cons.mp (lexemes_eq_nil_iff.mp hs)).2)
  obtain ⟨x, more, hmore⟩ := exists_lexemes_append_eq hs r
  have hquiet : Token.Quiet (Token.lexemes ((' ' :: s) ++ r)) := h
  rw [hmore] at hquiet
  have hcut : u.IsCut := isCut_of_mem_lexemes (s := ' ' :: s) u (by rw [hs]; simp)
  cases hop : u.opener? [] with
  | none =>
    refine Or.inl ?_
    change Token.Quiet (Token.lexemes (' ' :: s))
    rw [hs]
    exact quiet_concat hquiet rfl hcut.keyword? hop
  | some k =>
    obtain ⟨hdel, htext, hk⟩ := opener?_eq_some_iff.mp hop
    have hgap : u.gap ≠ [] := by simpa [isDelimited, spaced] using hdel
    -- what stands before the keyword begins with the space and ends in the gap
    have hspell : ' ' :: s = (spelling tokens ++ u.gap) ++ k.text := by
      have hall := trimEnd_append_blankEnd (' ' :: s)
      rw [hend, List.append_nil, ← spelling_lexemes, hs] at hall
      simpa [spelling, htext] using hall.symm
    have hblank : blankEnd (spelling tokens ++ u.gap) ≠ [] := by
      rw [blankEnd_append_blank _ hcut.gap]
      simp [hgap]
    obtain ⟨q, hq⟩ : ∃ q, spelling tokens ++ u.gap = ' ' :: q := by
      cases hcase : spelling tokens ++ u.gap with
      | nil => simp [hgap] at hcase
      | cons c q =>
        rw [hcase, List.cons_append] at hspell
        exact ⟨q, by rw [(List.cons.inj hspell).1]⟩
    rw [hq] at hspell hblank
    obtain ⟨kind, hkind⟩ := exists_lexemes_keyword k
    have htokens : Token.lexemes (' ' :: q) = tokens := by
      rw [hspell, lexemes_append (apart_of_blankEnd_ne_nil hblank _), hkind] at hs
      exact (List.append_inj' hs rfl).1
    refine Or.inr ⟨q, k, (List.cons.inj hspell).2, hk, ?_, hblank⟩
    change Token.Quiet (Token.lexemes (' ' :: q))
    rw [htokens]
    refine quiet_of_append_left hquiet fun v hv => ?_
    simp only [List.head?_cons, Option.mem_def, Option.some.injEq] at hv
    simp [← hv, spaced, hgap]

/-- Whatever word is put behind a quiet text and white space, the whole is quiet so far. -/
theorem Quiet.append_word {s w : Text} (hs : Quiet s) (hend : blankEnd s ≠ [])
    (hw : ∀ c ∈ w, isBlank c = false) : QuietSoFar (s ++ w) := by
  by_cases hk : ∃ k : Keyword, k ≠ .fields ∧ w = k.text
  · obtain ⟨k, hk, rfl⟩ := hk
    exact Or.inr ⟨s, k, rfl, hk, hs, blankEnd_append_ne_nil [' '] hend⟩
  · refine Or.inl (hs.append (quiet_of_no_blank hw fun k hne hcon => hk ⟨k, hne, hcon⟩) ?_)
    exact apart_of_blankEnd_ne_nil hend w

/-- A text that is quiet so far may be put behind a quiet one and white space. -/
theorem QuietSoFar.quiet_append {s t : Text} (ht : QuietSoFar t) (hs : Quiet s)
    (hend : blankEnd s ≠ []) : QuietSoFar (s ++ t) := by
  rcases ht with ht | ⟨q, k, rfl, hk, hq, hgap⟩
  · exact Or.inl (hs.append ht (apart_of_blankEnd_ne_nil hend t))
  · refine Or.inr ⟨s ++ q, k, by simp, hk, hs.append hq (apart_of_blankEnd_ne_nil hend q), ?_⟩
    by_cases hblank : Blank q
    · have hends : blankEnd ((' ' :: s) ++ q) ≠ [] := by
        rw [blankEnd_append_blank _ hblank]
        intro hcon
        exact blankEnd_append_ne_nil [' '] hend (List.append_eq_nil_iff.mp hcon).1
      exact hends
    · rw [← List.singleton_append, blankEnd_append_of_not_blank _ hblank] at hgap
      exact blankEnd_append_ne_nil [' '] (blankEnd_append_ne_nil s hgap)

end Text

namespace Token

open Text

/-! ### A keyword between two texts -/

/-- A text that begins with white space, or not at all, does not hide the keyword before it. -/
theorem spaced_head_lexemes {body : Text} (h : ∀ c ∈ body.head?, isBlank c = true) :
    ∀ u ∈ (lexemes body).head?, u.spaced = true := by
  cases body with
  | nil => simp
  | cons c b =>
    rw [lexemes_cons, addChar_of_blank (h c rfl)]
    exact spaced_head_pad (List.cons_ne_nil c []) (lexemes b)

/-- **A keyword between white space divides the tokens of a text**, which on its two sides are
those of the parts. -/
theorem tokenize_append_keyword {before after : Text} {k : Keyword} (hend : blankEnd before ≠ [])
    (hk : k ≠ .fields) (hstart : ∀ c ∈ after.head?, isBlank c = true) :
    tokenize (before ++ (k.text ++ after)) =
      tokenize before ++ ⟨.keyword k, blankEnd before, k.text⟩ :: tokenize after := by
  -- the keyword is a token of its own, with white space on both sides
  obtain ⟨kind, hkind⟩ := exists_lexemes_keyword k
  have hseam : Apart k.text after := by
    cases after with
    | nil => exact apart_nil_right _
    | cons c b => exact apart_of_head (runsOn_of_blank_right (hstart c rfl))
  have hlex : lexemes (before ++ (k.text ++ after)) =
      lexemes before ++ ⟨kind, blankEnd before, k.text⟩ :: lexemes after := by
    rw [lexemes_append (apart_of_blankEnd_ne_nil hend _), lexemes_append hseam, hkind,
      (solid_keyword k).blankEnd, pad_nil_gap]
    simp
  have hopen : opener? ⟨kind, blankEnd before, k.text⟩ (lexemes after) = some k := by
    refine opener?_eq_some_iff.mpr ⟨?_, rfl, hk⟩
    have hlater : (lexemes after).head?.all spaced = true := by
      cases hhead : (lexemes after).head? with
      | none => rfl
      | some u => exact spaced_head_lexemes hstart u hhead
    simp [isDelimited, spaced, hend, hlater]
  have hspaced : ∀ u ∈ (⟨kind, blankEnd before, k.text⟩ :: lexemes after : List Token).head?,
      u.spaced = true := by
    intro u hu
    cases hu
    simp [spaced, hend]
  rw [tokenize, hlex, markKeywords_append_of_spaced _ hspaced, markKeywords_cons_of_some hopen]
  rfl

end Token

end ChainQuery
