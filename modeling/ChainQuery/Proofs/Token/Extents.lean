import ChainQuery.Proofs.Token.Marking
import Mathlib.Data.List.Chain

/-!
# Where tokens stand

Tokens do not store where they stand, but `ChainQuery.Token.extents` counts it, in bytes, and what
it counts is right: from left to right the text is white space, a token, white space, a token, and
so on up to the white space at its end, and each token stands where the count says
(`ChainQuery.Token.Tiles`). Nothing of this depends on how a text is cut, so it fixes the tokens
together with the second half of the statement, that each of them is as long as it can be: a
comma or a parenthesis is one character, and everything else is a **run** that the characters next
to it do not continue (`ChainQuery.Token.IsRun`).

Cutting goes from the end of the text to its beginning, and a tiling is read from the beginning to
the end. What carries over from one to the other is a property of neighbours: two tokens with no
white space between them are never of one kind that runs (`ChainQuery.Token.Parted`).

A token is found at its place by what precedes it (`ChainQuery.Token.mem_places_iff`): the tokens
before it and its own gap take as many bytes as its span starts at.
-/

namespace ChainQuery

open Text

namespace Token

/-! ### Runs -/

/-- The characters of words: no white space, no punctuation and no signs. -/
def isWordChar (c : Char) : Bool :=
  !isBlank c && c != ',' && c != '(' && c != ')' && !Operator.isSign c

/-- **A run that cannot be extended**: characters that pass a test, between others that do not. -/
structure IsRun (p : Char → Bool) (before word after : Text) : Prop where
  /-- All characters of the run pass. -/
  all : ∀ c ∈ word, p c = true
  /-- The character directly before the run does not. -/
  behind : ∀ c ∈ before.getLast?, p c = false
  /-- The character directly after the run does not. -/
  ahead : ∀ c ∈ after.head?, p c = false

/-- **What a token of a kind takes of a text**: a single character, or a run that cannot be
extended. -/
def Kind.Takes (before word after : Text) : Kind → Prop
  | .comma => word = [',']
  | .openParen => word = ['(']
  | .closeParen => word = [')']
  | .operator | .keyword .dump => IsRun Operator.isSign before word after
  | .word | .keyword _ => IsRun isWordChar before word after

theorem Kind.ofChar?_eq_operator_iff {c : Char} :
    Kind.ofChar? c = some .operator ↔ Operator.isSign c = true := by
  constructor
  · intro h
    unfold Kind.ofChar? at h
    repeat' split at h
    all_goals simp_all
  · intro h
    have hc : c = '=' ∨ c = '!' ∨ c = '<' ∨ c = '>' := by
      simpa [Operator.isSign, or_assoc] using h
    obtain rfl | rfl | rfl | rfl := hc <;> decide

theorem Kind.ofChar?_eq_word_iff {c : Char} :
    Kind.ofChar? c = some .word ↔ isWordChar c = true := by
  unfold Kind.ofChar? isWordChar
  repeat' split
  all_goals simp_all

/-- White space begins no token. -/
theorem Kind.ofChar?_ne_of_blank {c : Char} (hc : isBlank c = true) (k : Kind) :
    Kind.ofChar? c ≠ some k := by
  rw [Kind.ofChar?_of_blank hc]
  exact (Option.some_ne_none k).symm

/-- A token stands where it does as a run of the characters of its kind. -/
theorem IsCut.takes {t : Token} (ht : t.IsCut) {before after : Text}
    (hbehind : ∀ c ∈ before.getLast?, t.kind.runs = true → Kind.ofChar? c ≠ some t.kind)
    (hahead : ∀ c ∈ after.head?, t.kind.runs = true → Kind.ofChar? c ≠ some t.kind) :
    t.kind.Takes before t.text after := by
  have hkind := ht.kind
  have hsingle := ht.text_eq
  cases hk : t.kind with
  | comma =>
    obtain ⟨c, hc, hof⟩ := hsingle (by rw [hk]; rfl)
    rw [hk] at hof
    rw [Kind.Takes, hc, Kind.eq_of_comma hof]
  | openParen =>
    obtain ⟨c, hc, hof⟩ := hsingle (by rw [hk]; rfl)
    rw [hk] at hof
    rw [Kind.Takes, hc, Kind.eq_of_openParen hof]
  | closeParen =>
    obtain ⟨c, hc, hof⟩ := hsingle (by rw [hk]; rfl)
    rw [hk] at hof
    rw [Kind.Takes, hc, Kind.eq_of_closeParen hof]
  | keyword k =>
    obtain ⟨c, word, hc⟩ := List.exists_cons_of_ne_nil ht.ne_nil
    exact absurd (hk ▸ hkind c (by simp [hc])) (Kind.ofChar?_ne_keyword c k)
  | operator =>
    rw [hk] at hkind hbehind hahead
    simp only [Kind.ofChar?_eq_operator_iff, ne_eq, Bool.not_eq_true] at hkind hbehind hahead
    exact ⟨hkind, fun c hc => hbehind c hc rfl, fun c hc => hahead c hc rfl⟩
  | word =>
    rw [hk] at hkind hbehind hahead
    simp only [Kind.ofChar?_eq_word_iff, ne_eq, Bool.not_eq_true] at hkind hbehind hahead
    exact ⟨hkind, fun c hc => hbehind c hc rfl, fun c hc => hahead c hc rfl⟩

/-- What a token takes of a text it takes as a keyword, if that is what it spells. -/
theorem IsCut.takes_keyword {t : Token} (ht : t.IsCut) {k : Keyword} (htext : t.text = k.text)
    {before after : Text} (h : t.kind.Takes before t.text after) :
    (Kind.keyword k).Takes before t.text after := by
  -- one letter of the keyword tells the kind of the token
  have hletter (c : Char) (hc : c ∈ k.text) : Kind.ofChar? c = some t.kind :=
    ht.kind c (htext ▸ hc)
  cases k with
  | dump => rwa [← Option.some.inj (hletter '>' (by decide))] at h
  | fields => rwa [← Option.some.inj (hletter 'G' (by decide))] at h
  | entity => rwa [← Option.some.inj (hletter 'F' (by decide))] at h
  | filters => rwa [← Option.some.inj (hletter 'W' (by decide))] at h
  | chains => rwa [← Option.some.inj (hletter 'O' (by decide))] at h

/-! ### Tilings -/

/-- **A token at its place**: between `before` and `after`, behind a gap, as far as its span
says. -/
structure IsTile (t : Token) (span : Span) (before gap after : Text) : Prop where
  /-- The gap is white space. -/
  blank : Blank gap
  /-- The token knows whether there is a gap. -/
  spaced_iff : t.spaced = true ↔ gap ≠ []
  /-- Some character is in the token. -/
  ne_nil : t.text ≠ []
  /-- No white space is in it. -/
  no_blank : ∀ c ∈ t.text, isBlank c = false
  /-- The span starts where the gap ends. -/
  start_eq : span.start = utf8Size (before ++ gap)
  /-- The span stops where the token ends. -/
  stop_eq : span.stop = utf8Size (before ++ (gap ++ t.text))
  /-- The token takes all that belongs to it. -/
  takes : t.kind.Takes (before ++ gap) t.text after

/-- **Some tokens tile a text** that stands behind `before`: it is a gap and a token and what the
others tile, and behind the last one there is white space. -/
inductive Tiles : Text → List Token → List Span → Text → Prop
  /-- White space needs no tokens. -/
  | nil {before rest : Text} (h : Blank rest) : Tiles before [] [] rest
  /-- One more token, and what stands behind it. -/
  | cons {before gap after : Text} {t : Token} {span : Span} {later : List Token}
      {spans : List Span} (h : IsTile t span before gap after)
      (hlater : Tiles (before ++ (gap ++ t.text)) later spans after) :
      Tiles before (t :: later) (span :: spans) (gap ++ (t.text ++ after))

/-- A text that is not empty takes some bytes. -/
theorem utf8Size_pos {s : Text} (h : s ≠ []) : 0 < utf8Size s := by
  cases s with
  | nil => exact absurd rfl h
  | cons c s => exact Nat.add_pos_left c.utf8Size_pos _

namespace IsTile

variable {t : Token} {span : Span} {before gap after : Text}

/-- The place of a token is not empty. -/
theorem start_lt_stop (h : IsTile t span before gap after) : span.start < span.stop := by
  have hpos := utf8Size_pos h.ne_nil
  rw [h.start_eq, h.stop_eq]
  simp only [utf8Size_append]
  omega

/-- The place of a token lies behind what stands before it. -/
theorem le_start (h : IsTile t span before gap after) : utf8Size before ≤ span.start := by
  rw [h.start_eq, utf8Size_append]
  exact Nat.le_add_right _ _

end IsTile

namespace Tiles

variable {before rest : Text} {tokens : List Token} {spans : List Span}

/-- The places of some tokens lie in the text that they tile, and none of them is empty. -/
theorem bounds (h : Tiles before tokens spans rest) :
    ∀ span ∈ spans, utf8Size before ≤ span.start ∧ span.start < span.stop ∧
      span.stop ≤ utf8Size (before ++ rest) := by
  induction h with
  | nil _ => simp
  | @cons before gap after t span later spans h _ ih =>
    intro other hmem
    rcases List.mem_cons.mp hmem with rfl | hmem
    · refine ⟨h.le_start, h.start_lt_stop, ?_⟩
      rw [h.stop_eq]
      simp only [utf8Size_append]
      omega
    · obtain ⟨hstart, hlt, hstop⟩ := ih other hmem
      simp only [utf8Size_append] at hstart hstop ⊢
      exact ⟨by omega, hlt, by omega⟩

/-- The places of some tokens follow each other as the tokens do. -/
theorem pairwise (h : Tiles before tokens spans rest) :
    spans.Pairwise fun first second => first.stop ≤ second.start := by
  induction h with
  | nil _ => exact List.Pairwise.nil
  | cons h hlater ih =>
    refine List.pairwise_cons.mpr ⟨fun other hmem => ?_, ih⟩
    rw [h.stop_eq]
    exact (hlater.bounds other hmem).1

end Tiles

/-! ### The tokens of a text tile it -/

/-- **Two neighbours that are not one token**: white space stands between them, or they are not of
one kind that runs. -/
def Parted (t u : Token) : Prop :=
  u.spaced = true ∨ (t.kind.runs = true → u.kind ≠ t.kind)

/-- What a token is parted from depends on its kind alone. -/
theorem isChain_cons_of_kind_eq {t u : Token} {later : List Token}
    (h : (t :: later).IsChain Parted) (hkind : u.kind = t.kind) : (u :: later).IsChain Parted := by
  rw [List.isChain_cons] at h ⊢
  simpa only [Parted, hkind] using h

/-- One more character parts from the tokens after it, or it joins the first of them. -/
theorem isChain_addChar (c : Char) {later : List Token} (h : later.IsChain Parted) :
    (addChar c later).IsChain Parted := by
  cases hc : Kind.ofChar? c with
  | none =>
    cases later with
    | nil => simp [addChar, hc]
    | cons t rest =>
      simp only [addChar, hc]
      exact isChain_cons_of_kind_eq h rfl
  | some k =>
    cases later with
    | nil => simp [addChar, hc]
    | cons t rest =>
      by_cases hrun : k.runs && t.kind == k && !t.spaced
      · simp only [addChar, hc, hrun, if_true]
        exact isChain_cons_of_kind_eq h rfl
      · simp only [addChar, hc, hrun, if_false, Bool.false_eq_true]
        refine List.isChain_cons_cons.mpr ⟨?_, h⟩
        rw [Parted, or_iff_not_imp_left]
        intro hspaced hruns hkind
        exact hrun (by simp [hruns, hkind, hspaced])

/-- **No two neighbours among the tokens of a text could be one.** -/
theorem isChain_lexemes (s : Text) : (lexemes s).IsChain Parted := by
  induction s with
  | nil => exact List.IsChain.nil
  | cons c s ih => exact isChain_addChar c ih

/-- The character before a gap, or at its end, is not of the kind of a token behind the gap from
which what stands before is parted. -/
theorem ofChar?_ne_of_getLast? {t : Token} (ht : t.IsCut) {before : Text}
    (h : t.spaced = true ∨
      ∀ c ∈ before.getLast?, t.kind.runs = true → Kind.ofChar? c ≠ some t.kind) :
    ∀ c ∈ (before ++ t.gap).getLast?, t.kind.runs = true → Kind.ofChar? c ≠ some t.kind := by
  intro c hc hruns
  by_cases hgap : t.gap = []
  · rw [hgap, List.append_nil] at hc
    refine h.resolve_left ?_ c hc hruns
    simp [spaced, hgap]
  · rw [List.getLast?_append_of_ne_nil _ hgap] at hc
    exact Kind.ofChar?_ne_of_blank (ht.gap c (List.mem_of_getLast? hc)) t.kind

/-- The character behind a token is not of its kind, if the token runs and is parted from the next
one. -/
theorem ofChar?_ne_of_head? {t : Token} {later : List Token} (hcut : ∀ u ∈ later, u.IsCut)
    (h : ∀ u ∈ later.head?, Parted t u) {w : Text} (hw : Blank w) :
    ∀ c ∈ (spelling later ++ w).head?, t.kind.runs = true → Kind.ofChar? c ≠ some t.kind := by
  intro c hc hruns
  cases later with
  | nil =>
    exact Kind.ofChar?_ne_of_blank (hw c (List.mem_of_mem_head? hc)) t.kind
  | cons u rest =>
    have hu := hcut u List.mem_cons_self
    by_cases hgap : u.gap = []
    · have hkind : u.kind ≠ t.kind := (h u rfl).resolve_left (by simp [spaced, hgap]) hruns
      rw [spelling_cons, hgap, List.nil_append, List.append_assoc,
        List.head?_append_of_ne_nil _ hu.ne_nil] at hc
      rw [hu.kind c (List.mem_of_mem_head? hc)]
      exact fun hcon => hkind (Option.some.inj hcon)
    · rw [spelling_cons, List.append_assoc, List.head?_append_of_ne_nil _ hgap] at hc
      exact Kind.ofChar?_ne_of_blank (hu.gap c (List.mem_of_mem_head? hc)) t.kind

/-- **Tokens that are cut, and parted from each other, tile what they spell**, whatever white space
there is behind them. -/
theorem tiles_spelling {tokens : List Token} (hcut : ∀ t ∈ tokens, t.IsCut)
    (hchain : tokens.IsChain Parted) {w : Text} (hw : Blank w) {before : Text}
    (hbefore : ∀ t ∈ tokens.head?, t.spaced = true ∨
      ∀ c ∈ before.getLast?, t.kind.runs = true → Kind.ofChar? c ≠ some t.kind) :
    Tiles before tokens (extents (utf8Size before) tokens) (spelling tokens ++ w) := by
  induction tokens generalizing before with
  | nil => exact Tiles.nil hw
  | cons t later ih =>
    have ht := hcut t List.mem_cons_self
    have hlater : ∀ u ∈ later, u.IsCut := fun u hu => hcut u (List.mem_cons_of_mem t hu)
    have hparted : ∀ u ∈ later.head?, Parted t u := (List.isChain_cons.mp hchain).1
    have htile : IsTile t ⟨utf8Size before + utf8Size t.gap,
        utf8Size before + utf8Size t.gap + utf8Size t.text⟩ before t.gap (spelling later ++ w) :=
      { blank := ht.gap
        spaced_iff := by simp [spaced]
        ne_nil := ht.ne_nil
        no_blank := fun c hc => by
          by_contra hblank
          exact Kind.ofChar?_ne_of_blank (by simpa using hblank) t.kind (ht.kind c hc)
        start_eq := by rw [utf8Size_append]
        stop_eq := by rw [utf8Size_append, utf8Size_append, Nat.add_assoc]
        takes := ht.takes (ofChar?_ne_of_getLast? ht (hbefore t rfl))
          (ofChar?_ne_of_head? hlater hparted hw) }
    -- the last character before what follows is one of the token
    have hnext : ∀ u ∈ later.head?, u.spaced = true ∨
        ∀ c ∈ (before ++ (t.gap ++ t.text)).getLast?, u.kind.runs = true →
          Kind.ofChar? c ≠ some u.kind := by
      intro u hu
      refine (hparted u hu).imp_right fun hne c hc hruns hkind => ?_
      rw [← List.append_assoc, List.getLast?_append_of_ne_nil _ ht.ne_nil] at hc
      rw [ht.kind c (List.mem_of_getLast? hc)] at hkind
      have hsame := Option.some.inj hkind
      exact hne (hsame ▸ hruns) hsame.symm
    have hrest := ih hlater (List.isChain_cons.mp hchain).2 hnext
    rw [spelling_cons, List.append_assoc, List.append_assoc, extents]
    refine Tiles.cons htile ?_
    simpa only [utf8Size_append, Nat.add_assoc] using hrest

/-- Marking a token as a keyword does not move it. -/
theorem extents_markKeywords (offset : Nat) (tokens : List Token) :
    extents offset (markKeywords tokens) = extents offset tokens := by
  induction tokens generalizing offset with
  | nil => rfl
  | cons t later ih =>
    cases h : t.opener? later with
    | none => rw [markKeywords_cons_of_none h, extents, extents, ih]
    | some k => rw [markKeywords_cons_of_some h, extents, extents, ih]

/-- Tokens that tile a text still do so when keywords are marked among them. -/
theorem Tiles.markKeywords {before rest : Text} {tokens : List Token} {spans : List Span}
    (h : Tiles before tokens spans rest) (hcut : ∀ t ∈ tokens, t.IsCut) :
    Tiles before (markKeywords tokens) spans rest := by
  induction h with
  | nil hrest => exact Tiles.nil hrest
  | @cons before gap after t span later spans h _ ih =>
    have hlater := ih fun u hu => hcut u (List.mem_cons_of_mem t hu)
    cases hopen : t.opener? later with
    | none =>
      rw [markKeywords_cons_of_none hopen]
      exact Tiles.cons h hlater
    | some k =>
      obtain ⟨-, htext, -⟩ := opener?_eq_some_iff.mp hopen
      have hmarked : IsTile { t with kind := .keyword k } span before gap after :=
        { h with takes := (hcut t List.mem_cons_self).takes_keyword htext h.takes }
      rw [markKeywords_cons_of_some hopen]
      exact Tiles.cons hmarked hlater

/-- **The tokens of a text tile it, each of them as long as it can be**: their spans are not empty,
lie in the text, and follow each other without overlap. -/
theorem tiles_tokenize (s : Text) :
    Tiles [] (tokenize s) (extents 0 (tokenize s)) s ∧
      (∀ span ∈ extents 0 (tokenize s), span.start < span.stop ∧ span.stop ≤ utf8Size s) ∧
      (extents 0 (tokenize s)).Pairwise fun first second => first.stop ≤ second.start := by
  have hcut := isCut_of_mem_lexemes (s := s)
  have htiles : Tiles [] (tokenize s) (extents 0 (tokenize s)) s := by
    have hplain : Tiles [] (lexemes s) (extents 0 (lexemes s))
        (spelling (lexemes s) ++ blankEnd s) :=
      tiles_spelling hcut (isChain_lexemes s) (blank_blankEnd s) fun _ _ => Or.inr (by simp)
    rw [spelling_lexemes, trimEnd_append_blankEnd] at hplain
    rw [tokenize, extents_markKeywords]
    exact hplain.markKeywords hcut
  exact ⟨htiles, fun span hspan => (htiles.bounds span hspan).2, htiles.pairwise⟩

/-- Bytes are counted, not characters. -/
example : extents 0 (tokenize "é ON".toList) = [⟨0, 2⟩, ⟨3, 5⟩] := by decide

/-! ### The place of a token -/

/-- **The tokens of a text and their places.** -/
def places (s : Text) : List (Token × Span) := (tokenize s).zip (extents 0 (tokenize s))

@[simp] theorem length_extents (offset : Nat) (tokens : List Token) :
    (extents offset tokens).length = tokens.length := by
  induction tokens generalizing offset with
  | nil => rfl
  | cons t later ih => rw [extents, List.length_cons, List.length_cons, ih]

/-- Tokens are counted behind all that precedes them. -/
theorem extents_append (offset : Nat) (tokens more : List Token) :
    extents offset (tokens ++ more) =
      extents offset tokens ++ extents (offset + utf8Size (spelling tokens)) more := by
  induction tokens generalizing offset with
  | nil => rfl
  | cons t later ih =>
    rw [List.cons_append, extents, extents, ih, spelling_cons, List.cons_append, utf8Size_append,
      utf8Size_append, Nat.add_assoc, Nat.add_assoc, Nat.add_assoc]

/-- A token is counted behind all that precedes it. -/
theorem mem_zip_extents_iff {offset : Nat} {tokens : List Token} {t : Token} {span : Span} :
    (t, span) ∈ tokens.zip (extents offset tokens) ↔
      ∃ earlier later, tokens = earlier ++ t :: later ∧
        span.start = offset + utf8Size (spelling earlier ++ t.gap) ∧
        span.stop = span.start + utf8Size t.text := by
  induction tokens generalizing offset with
  | nil => simp [extents]
  | cons u rest ih =>
    rw [extents, List.zip_cons_cons, List.mem_cons, ih]
    constructor
    · rintro (heq | ⟨earlier, later, hsplit, hstart, hstop⟩)
      · cases heq
        exact ⟨[], rest, rfl, rfl, rfl⟩
      · refine ⟨u :: earlier, later, by rw [hsplit, List.cons_append], ?_, hstop⟩
        rw [hstart]
        simp only [spelling_cons, utf8Size_append]
        omega
    · rintro ⟨earlier, later, hsplit, hstart, hstop⟩
      cases earlier with
      | nil =>
        obtain ⟨rfl, -⟩ := List.cons.inj hsplit
        refine Or.inl (Prod.ext rfl ?_)
        rw [hstart] at hstop
        cases span
        cases hstart
        cases hstop
        rfl
      | cons v earlier =>
        obtain ⟨rfl, htail⟩ := List.cons.inj hsplit
        refine Or.inr ⟨earlier, later, htail, ?_, hstop⟩
        rw [hstart]
        simp only [spelling_cons, utf8Size_append]
        omega

/-- **A token stands behind all that precedes it** and takes its own bytes. -/
theorem mem_places_iff {s : Text} {t : Token} {span : Span} :
    (t, span) ∈ places s ↔ ∃ earlier later, tokenize s = earlier ++ t :: later ∧
      span.start = utf8Size (spelling earlier ++ t.gap) ∧
      span.stop = span.start + utf8Size t.text := by
  rw [places, mem_zip_extents_iff]
  simp only [Nat.zero_add]

end Token

end ChainQuery
