import ChainQuery.Proofs.Token.Extents

/-!
# Tokens on the two sides of white space

White space parts a text for good: the tokens behind it are the same whatever stands before it, and
the tokens before it are the same whatever stands behind it. What a token knows of the other side is
the length of its gap, and where it is counted from. So here a token is looked at as it **shows**
(`ChainQuery.Sighting`): with its kind, its text and its place, and with the answer to the question
whether white space stands before it, but not how much. Seen like this, the tokens of a text that is
continued behind white space are those of its beginning, and those of the rest as many bytes further
on as the beginning has (`ChainQuery.Token.sightings_append_blank_append`).

Two things could spoil this. A word at the end of a text is a keyword where the same word before a
comma is none; but white space counts like the end, so the last token of the beginning does not see
the difference. And the first token of the rest takes the white space at the end of the beginning
into its gap; but some was there already, so it is spaced in both texts.
-/

namespace ChainQuery

open Text

/-- The same stretch behind `offset` more bytes. -/
def Span.shift (offset : Nat) (span : Span) : Span := ⟨offset + span.start, offset + span.stop⟩

/-- **A token as it shows in a text.** -/
structure Sighting where
  /-- What the token is. -/
  kind : Token.Kind
  /-- The characters of the token. -/
  text : Text
  /-- Where the token stands, in bytes. -/
  span : Span
  /-- White space stands before the token. -/
  spaced : Bool
  deriving DecidableEq, Repr

/-- The same token behind `offset` more bytes. -/
def Sighting.shift (offset : Nat) (seen : Sighting) : Sighting :=
  { seen with span := seen.span.shift offset }

namespace Token

/-- What shows of a token at its place. -/
def sightingAt (t : Token) (span : Span) : Sighting := ⟨t.kind, t.text, span, t.spaced⟩

/-- What shows of some tokens when their text begins at byte `offset`. -/
def sightingsFrom (offset : Nat) (tokens : List Token) : List Sighting :=
  List.zipWith sightingAt tokens (extents offset tokens)

/-- **What shows of the tokens of a text.** -/
def sightings (s : Text) : List Sighting := sightingsFrom 0 (tokenize s)

/-! ### Counting from another place -/

@[simp] theorem sightingsFrom_nil (offset : Nat) : sightingsFrom offset [] = [] := rfl

theorem sightingsFrom_cons (offset : Nat) (t : Token) (later : List Token) :
    sightingsFrom offset (t :: later) =
      ⟨t.kind, t.text,
        ⟨offset + utf8Size t.gap, offset + utf8Size t.gap + utf8Size t.text⟩, t.spaced⟩ ::
        sightingsFrom (offset + utf8Size t.gap + utf8Size t.text) later := rfl

/-- What shows of tokens is counted behind all that precedes them. -/
theorem sightingsFrom_append (offset : Nat) (tokens more : List Token) :
    sightingsFrom offset (tokens ++ more) =
      sightingsFrom offset tokens ++ sightingsFrom (offset + utf8Size (spelling tokens)) more := by
  rw [sightingsFrom, extents_append, List.zipWith_append (length_extents offset tokens).symm]
  rfl

/-- Tokens that are counted from further on are the same tokens further on. -/
theorem sightingsFrom_add (more offset : Nat) (tokens : List Token) :
    sightingsFrom (more + offset) tokens =
      (sightingsFrom offset tokens).map (Sighting.shift more) := by
  induction tokens generalizing offset with
  | nil => rfl
  | cons t later ih =>
    rw [sightingsFrom_cons, sightingsFrom_cons, List.map_cons, ← ih]
    simp only [Sighting.shift, Span.shift, Nat.add_assoc]

/-- More white space before a token that is spaced does not show. -/
theorem spaced_append_gap {t : Token} (ht : t.spaced = true) (w : Text) :
    spaced { t with gap := w ++ t.gap } = t.spaced := by
  have hgap : t.gap ≠ [] := by simpa [spaced] using ht
  rw [ht]
  simp [spaced, hgap]

/-- Whether white space is counted with the text before the tokens or with their first gap makes no
difference if the first of them is spaced. -/
theorem sightingsFrom_pad {tokens : List Token} (h : ∀ t ∈ tokens.head?, t.spaced = true)
    (offset : Nat) (w : Text) :
    sightingsFrom offset (pad w tokens) = sightingsFrom (offset + utf8Size w) tokens := by
  cases tokens with
  | nil => rfl
  | cons t later =>
    rw [pad_cons, sightingsFrom_cons, sightingsFrom_cons, spaced_append_gap (h t rfl),
      utf8Size_append, ← Nat.add_assoc]

/-! ### Marking behind white space -/

/-- More white space before a token that is spaced makes no keyword of it. -/
theorem markKeywords_pad_of_spaced {tokens : List Token} (h : ∀ t ∈ tokens.head?, t.spaced = true)
    (w : Text) : markKeywords (pad w tokens) = pad w (markKeywords tokens) := by
  cases tokens with
  | nil => rfl
  | cons t later =>
    have hopener : opener? { t with gap := w ++ t.gap } later = t.opener? later := by
      rw [opener?, opener?, isDelimited, isDelimited, spaced_append_gap (h t rfl)]
      rfl
    cases hk : t.opener? later with
    | none =>
      rw [pad_cons, markKeywords_cons_of_none (hopener.trans hk), markKeywords_cons_of_none hk,
        pad_cons]
    | some k =>
      rw [pad_cons, markKeywords_cons_of_some (hopener.trans hk), markKeywords_cons_of_some hk,
        pad_cons]

/-- Marking leaves the first token its gap. -/
theorem spaced_head_markKeywords {tokens : List Token} (h : ∀ t ∈ tokens.head?, t.spaced = true) :
    ∀ t ∈ (markKeywords tokens).head?, t.spaced = true := by
  cases tokens with
  | nil => exact h
  | cons t later =>
    intro u hu
    cases hk : t.opener? later with
    | none =>
      rw [markKeywords_cons_of_none hk] at hu
      exact h u hu
    | some k =>
      rw [markKeywords_cons_of_some hk] at hu
      cases hu
      exact h t rfl

/-! ### Both sides of white space -/

variable {w : Text}

/-- The first token behind white space is spaced. -/
theorem spaced_head_tokenize (hw : Blank w) (hne : w ≠ []) (t : Text) :
    ∀ u ∈ (tokenize (w ++ t)).head?, u.spaced = true := by
  rw [tokenize, lexemes_blank_append hw]
  exact spaced_head_markKeywords (spaced_head_pad hne (lexemes t))

/-- **Behind white space the tokens of a text are those of its rest**, and white space at the end of
the beginning goes to the gap of the first. -/
theorem tokenize_append_blank_append (s : Text) (hw : Blank w) (hne : w ≠ []) (t : Text) :
    tokenize (s ++ (w ++ t)) = tokenize s ++ pad (blankEnd s) (tokenize (w ++ t)) := by
  have hspaced : ∀ u ∈ (lexemes (w ++ t)).head?, u.spaced = true := by
    rw [lexemes_blank_append hw]
    exact spaced_head_pad hne (lexemes t)
  have hpad : ∀ u ∈ (pad (blankEnd s) (lexemes (w ++ t))).head?, u.spaced = true := by
    rw [lexemes_blank_append hw, pad_pad]
    exact spaced_head_pad (by simp [hne]) (lexemes t)
  rw [tokenize, lexemes_append (apart_blank_right s hw hne t),
    markKeywords_append_of_spaced _ hpad, markKeywords_pad_of_spaced hspaced]
  rfl

/-- **Cutting a text is local across white space.** Behind white space the tokens of the whole are
those of the rest, with their kinds, keywords included, and with their places behind all bytes of
the beginning; and those of the beginning are what they are without the rest. -/
theorem sightings_append_blank_append (s : Text) (hw : Blank w) (hne : w ≠ []) (t : Text) :
    sightings (s ++ (w ++ t)) =
      sightings s ++ (sightings (w ++ t)).map (Sighting.shift (utf8Size s)) := by
  have hsize : utf8Size (spelling (tokenize s)) + utf8Size (blankEnd s) = utf8Size s := by
    rw [spelling_tokenize, ← utf8Size_append, trimEnd_append_blankEnd]
  calc sightings (s ++ (w ++ t))
      = sightingsFrom 0 (tokenize s ++ pad (blankEnd s) (tokenize (w ++ t))) := by
        rw [sightings, tokenize_append_blank_append s hw hne]
    _ = sightings s ++ sightingsFrom (utf8Size s) (tokenize (w ++ t)) := by
        rw [sightingsFrom_append, sightingsFrom_pad (spaced_head_tokenize hw hne t), Nat.zero_add,
          hsize, sightings]
    _ = sightings s ++ (sightings (w ++ t)).map (Sighting.shift (utf8Size s)) := by
        rw [sightings, sightings, ← sightingsFrom_add, Nat.add_zero]

/-- A keyword stands on each side: the one at the end of the beginning is followed by white space
when the text goes on, and the one in the rest lies behind bytes and not behind characters. -/
theorem sightings_keywords_apart :
    sightings "é ON ".toList = [⟨.word, "é".toList, ⟨0, 2⟩, false⟩,
        ⟨.keyword .chains, "ON".toList, ⟨3, 5⟩, true⟩] ∧
      sightings "é ON \t>> x".toList = sightings "é ON ".toList ++
        [⟨.keyword .dump, ">>".toList, ⟨7, 9⟩, true⟩, ⟨.word, "x".toList, ⟨10, 11⟩, true⟩] := by
  have hw : Blank "\t".toList := by decide
  have hlocal := sightings_append_blank_append "é ON ".toList hw (by decide) ">> x".toList
  have hrest : (sightings ("\t".toList ++ ">> x".toList)).map
      (Sighting.shift (utf8Size "é ON ".toList)) =
        [⟨.keyword .dump, ">>".toList, ⟨7, 9⟩, true⟩, ⟨.word, "x".toList, ⟨10, 11⟩, true⟩] := by
    decide
  rw [hrest] at hlocal
  exact ⟨by decide, hlocal⟩

end Token

end ChainQuery
