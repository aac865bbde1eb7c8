import ChainQuery.Keyword
import ChainQuery.Operator

/-!
# Tokens

A query is cut into **tokens**: commas, parentheses, runs of operator signs, and words –
everything else that is not white space. A token carries its text *and* the white space that
stands directly before it, its **gap**, so that no part of a text is forgotten: gaps and
texts, one after the other, give back the text up to the white space at its end
(`ChainQuery.Token.spelling_tokenize`). Offsets are not stored; `ChainQuery.Token.extents`
counts them from the gaps.

Cutting works from the end of the text: a character joins the token that follows it, or the
gap of that token, or begins a token of its own (`ChainQuery.Token.addChar`). What follows a
character has already been cut when the character is read, so the longest runs come out
without looking ahead.

A keyword is an ordinary word, or an ordinary run of signs, until it is seen to be
**delimited**: white space before it, and white space or nothing after it. This makes
`FROMAGE` and `a>>b` what they look like, and a `FROM` at the very beginning a word.
-/

namespace ChainQuery

/-- What a token is. -/
inductive Token.Kind
  /-- A run of characters of no other kind. -/
  | word
  /-- A keyword that opens a clause. -/
  | keyword (k : Keyword)
  /-- A run of operator signs, whether or not it spells an operator. -/
  | operator
  /-- A comma. -/
  | comma
  /-- An opening parenthesis. -/
  | openParen
  /-- A closing parenthesis. -/
  | closeParen
  deriving DecidableEq, Repr

/-- A token, and the white space between it and what precedes it. -/
structure Token where
  /-- What the token is. -/
  kind : Token.Kind
  /-- The white space directly before the token. -/
  gap : Text
  /-- The characters of the token. -/
  text : Text
  deriving DecidableEq, Repr

namespace Token

/-! ### Characters and kinds -/

/-- The kind of token that a character begins; white space begins none. -/
def Kind.ofChar? (c : Char) : Option Kind :=
  if Text.isBlank c then none
  else if c = ',' then some .comma
  else if c = '(' then some .openParen
  else if c = ')' then some .closeParen
  else if Operator.isSign c then some .operator
  else some .word

/-- The kinds whose tokens are runs of any length, as opposed to single characters. -/
def Kind.runs (k : Kind) : Bool := k == .word || k == .operator

/-- White space stands before the token. -/
def spaced (t : Token) : Bool := !t.gap.isEmpty

/-- The keyword that a token is. -/
def keyword? (t : Token) : Option Keyword :=
  match t.kind with
  | .keyword k => some k
  | _ => none

/-- The characters of an identifier: ASCII letters, digits and the underscore. -/
def isIdentifierChar (c : Char) : Bool := c.isAlphanum || c == '_'

/-- The token is a word made of identifier characters. -/
def isIdentifier (t : Token) : Bool := t.kind == .word && t.text.all isIdentifierChar

/-- The operator that a token spells. -/
def operator? (t : Token) : Option Operator :=
  if t.kind = .operator then Operator.ofText? t.text else none

/-! ### Cutting a text -/

/-- The tokens of a text that begins with `c` and goes on with text cut into `later`. -/
def addChar (c : Char) (later : List Token) : List Token :=
  match Kind.ofChar? c, later with
  | none, [] => []
  | none, t :: rest => { t with gap := c :: t.gap } :: rest
  | some kind, [] => [⟨kind, [], [c]⟩]
  | some kind, t :: rest =>
    -- the character and the token after it are one run
    if kind.runs && t.kind == kind && !t.spaced then
      { t with text := c :: t.text } :: rest
    else
      ⟨kind, [], [c]⟩ :: t :: rest

/-- The tokens of a text before keywords are told from words. -/
def lexemes (s : Text) : List Token := s.foldr addChar []

/-- The keyword that a token spells, if it can stand between clauses: `GET` cannot. -/
def delimiter? (t : Token) : Option Keyword :=
  (Keyword.ofText? t.text).filter (· != .fields)

/-- Whether a token with `later` after it is set apart by white space on both sides, or by
the end of the text on the right. -/
def isDelimited (t : Token) (later : List Token) : Bool :=
  t.spaced && later.head?.all spaced

/-- Tells the delimited keywords from the words and signs they are spelled with. -/
def markKeywords : List Token → List Token
  | [] => []
  | t :: rest =>
    (match t.delimiter? with
      | some k => if t.isDelimited rest then { t with kind := .keyword k } else t
      | none => t) :: markKeywords rest

/-- **The tokens of a text.** -/
def tokenize (s : Text) : List Token := markKeywords (lexemes s)

/-! ### Tokens and the text they were cut from -/

/-- The stretch of text from the first of some neighbouring tokens to the last: everything
but the gap before the first. -/
def stretch : List Token → Text
  | [] => []
  | t :: rest => t.text ++ rest.flatMap fun u => u.gap ++ u.text

/-- What some tokens were cut from: their gaps and texts, one after the other. -/
def spelling (tokens : List Token) : Text := tokens.flatMap fun t => t.gap ++ t.text

/-- Where tokens lie, in bytes, when their text begins at byte `offset`. -/
def extents (offset : Nat) : List Token → List Span
  | [] => []
  | t :: rest =>
    let start := offset + Text.utf8Size t.gap
    let stop := start + Text.utf8Size t.text
    ⟨start, stop⟩ :: extents stop rest

/-! ### Nothing is lost -/

@[simp] theorem lexemes_nil : lexemes [] = [] := rfl

@[simp] theorem lexemes_cons (c : Char) (s : Text) :
    lexemes (c :: s) = addChar c (lexemes s) := rfl

@[simp] theorem spelling_nil : spelling [] = [] := rfl

@[simp] theorem spelling_cons (t : Token) (later : List Token) :
    spelling (t :: later) = t.gap ++ (t.text ++ spelling later) := by
  simp [spelling]

theorem Kind.ofChar?_eq_none_iff {c : Char} : Kind.ofChar? c = none ↔ Text.isBlank c := by
  unfold Kind.ofChar?
  split
  · simp [*]
  · repeat' split
    all_goals simp_all

/-- A character is put before all that has been cut, unless it is white space at the end. -/
theorem spelling_addChar (c : Char) (later : List Token) :
    spelling (addChar c later) =
      if later.isEmpty && Text.isBlank c then [] else c :: spelling later := by
  cases hc : Kind.ofChar? c with
  | none =>
    have hb : Text.isBlank c := Kind.ofChar?_eq_none_iff.1 hc
    cases later <;> simp [addChar, hc, hb]
  | some kind =>
    have hb : Text.isBlank c = false := by
      simpa using fun hb => (Kind.ofChar?_eq_none_iff.2 hb ▸ hc : none = some kind)
    cases later with
    | nil => simp [addChar, hc, hb]
    | cons t rest =>
      by_cases h : kind.runs && t.kind == kind && !t.spaced
      · have hgap : t.gap = [] := by simp_all [spaced]
        simp [addChar, hc, h, hgap]
      · simp [addChar, hc, h]

/-- No token is empty. -/
theorem text_ne_nil_of_mem_lexemes {s : Text} : ∀ t ∈ lexemes s, t.text ≠ [] := by
  induction s with
  | nil => simp
  | cons c s ih =>
    rw [lexemes_cons, addChar.eq_def]
    split
    · simp
    · simp_all
    · simp
    · split <;> simp_all

theorem spelling_eq_nil_iff_of_lexemes (s : Text) :
    spelling (lexemes s) = [] ↔ lexemes s = [] := by
  have := text_ne_nil_of_mem_lexemes (s := s)
  cases h : lexemes s <;> simp_all

/-- Marking keywords changes what tokens are, not where they stand. -/
@[simp] theorem spelling_markKeywords (tokens : List Token) :
    spelling (markKeywords tokens) = spelling tokens := by
  induction tokens with
  | nil => rfl
  | cons t rest ih =>
    simp only [markKeywords, spelling_cons, ih]
    repeat' split
    all_goals rfl

/-- The gaps and texts of the tokens, one after the other, are the text up to the white space
at its end. -/
theorem spelling_lexemes (s : Text) : spelling (lexemes s) = Text.trimEnd s := by
  induction s with
  | nil => rfl
  | cons c s ih =>
    have hend : Text.trimEnd (c :: s) =
        if (Text.trimEnd s).isEmpty && Text.isBlank c then [] else c :: Text.trimEnd s := rfl
    have hempty : (lexemes s).isEmpty = (Text.trimEnd s).isEmpty := by
      have := spelling_eq_nil_iff_of_lexemes s
      rw [Bool.eq_iff_iff, List.isEmpty_iff, List.isEmpty_iff, ← this, ih]
    rw [lexemes_cons, spelling_addChar, hend, hempty, ih]

/-- The gaps and texts of the tokens, one after the other, are the text up to the white space
at its end. -/
theorem spelling_tokenize (s : Text) : spelling (tokenize s) = Text.trimEnd s := by
  rw [tokenize, spelling_markKeywords, spelling_lexemes]

end Token

end ChainQuery
