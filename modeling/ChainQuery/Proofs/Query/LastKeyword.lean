import ChainQuery.Proofs.Token.Extents
import ChainQuery.Proofs.Query.Passages
import Mathlib.Data.Nat.Find

/-!
# The last keyword of a text

Where a user is typing is told by the last keyword of the query, and which keyword that is can be
seen without cutting the text into tokens. A keyword **divides** a text where its letters stand
between white space on the left and white space, or the end of the text, on the right
(`ChainQuery.Keyword.Divides`); what is next to it in any other way – a comma, a parenthesis, a
letter more – makes it a part of something else. Of the places at which a keyword divides the
text the last one counts, and if there is none the text may still begin with the letters of `GET`
(`ChainQuery.Query.EndsUnder`).

The two descriptions meet in the token that a keyword is. A token that is marked as a keyword has
its letters in the text with white space on both sides
(`ChainQuery.Token.divides_of_keyword?`), and wherever letters stand like this there is such a
token (`ChainQuery.Token.keyword_places_iff`), so a text that no keyword divides is quiet.
Behind the last place at which one does, nothing divides the text any more, and what stands there
is the last clause (`ChainQuery.LastClause`): it is read for itself, unless there is one of its kind
already, and whatever is put behind the text goes to it.
-/

namespace ChainQuery

open Text Token

/-! ### Keywords in a text -/

/-- **A keyword divides a text**: its letters stand between `before` and `after`, directly behind
white space, and directly before white space or at the end. -/
structure Keyword.Divides (k : Keyword) (before after s : Text) : Prop where
  /-- The letters stand there. -/
  eq_append : s = before ++ (k.text ++ after)
  /-- `GET` divides nothing. -/
  ne_fields : k ≠ .fields
  /-- White space stands directly before the letters. -/
  behind_blank : ∃ c ∈ before.getLast?, isBlank c = true
  /-- White space stands directly behind the letters, if anything does. -/
  before_blank : ∀ c ∈ after.head?, isBlank c = true

namespace Text

/-- **A place at which some keyword divides a text**: the number of characters before it. -/
def DividedAt (s : Text) (n : Nat) : Prop :=
  ∃ (k : Keyword) (before after : Text), k.Divides before after s ∧ before.length = n

theorem exists_blank_getLast? {w : Text} (hw : Blank w) (hne : w ≠ []) (s : Text) :
    ∃ c ∈ (s ++ w).getLast?, isBlank c = true := by
  refine ⟨w.getLast hne, ?_, hw _ (List.getLast_mem hne)⟩
  rw [List.getLast?_append_of_ne_nil s hne, List.getLast?_eq_some_getLast hne]
  rfl

/-- A trimmed text does not begin with white space. -/
theorem eq_nil_of_blank_append_eq_trim {raw w s : Text} (hw : Blank w) (h : trim raw = w ++ s) :
    w = [] := by
  have htrim : trim s = w ++ s := by
    rw [← h, ← trim_trim raw, h, trim_blank_append hw]
  have hlength := (isInfix_trim s).length_le
  rw [htrim, List.length_append] at hlength
  exact List.eq_nil_of_length_eq_zero (by omega)

end Text

namespace Keyword.Divides

variable {k : Keyword} {before after s : Text}

theorem blankEnd_ne_nil (h : k.Divides before after s) : blankEnd before ≠ [] :=
  blankEnd_ne_nil_of_getLast? h.behind_blank

/-- The text ends in what stands behind the keyword. -/
theorem isSuffix (h : k.Divides before after s) : after <:+ s := by
  rw [h.eq_append]
  exact (List.suffix_append k.text after).trans (List.suffix_append before _)

theorem dividedAt (h : k.Divides before after s) : DividedAt s before.length :=
  ⟨k, before, after, h, rfl⟩

/-- What stands before a keyword in a trimmed text is not white space alone. -/
theorem not_blank_before {raw : Text} (h : k.Divides before after (trim raw)) : ¬Blank before := by
  intro hblank
  obtain rfl : before = [] := eq_nil_of_blank_append_eq_trim hblank h.eq_append
  obtain ⟨c, hc, -⟩ := h.behind_blank
  cases hc

end Keyword.Divides

theorem Text.DividedAt.le_length {s : Text} {n : Nat} (h : DividedAt s n) : n ≤ s.length := by
  obtain ⟨k, before, after, h, rfl⟩ := h
  rw [h.eq_append, List.length_append]
  exact Nat.le_add_right _ _

namespace Token

/-! ### The letters of a token that is a keyword -/

/-- Whether a token is delimited does not depend on what is marked behind it. -/
theorem isDelimited_markKeywords (t : Token) (later : List Token) :
    t.isDelimited (markKeywords later) = t.isDelimited later := by
  cases later with
  | nil => rfl
  | cons u rest =>
    cases h : u.opener? rest with
    | none => rw [markKeywords_cons_of_none h]; rfl
    | some k => rw [markKeywords_cons_of_some h]; rfl

/-- **A token that is a keyword spells it, and is delimited** where it stands. -/
theorem isDelimited_of_keyword? {tokens : List Token} (hplain : ∀ t ∈ tokens, t.keyword? = none)
    {earlier later : List Token} {u : Token} {k : Keyword}
    (h : markKeywords tokens = earlier ++ u :: later) (hk : u.keyword? = some k) :
    u.isDelimited later = true ∧ u.text = k.text ∧ k ≠ .fields := by
  induction tokens generalizing earlier with
  | nil => simp at h
  | cons t rest ih =>
    have hrest : ∀ v ∈ rest, v.keyword? = none := fun v hv => hplain v (List.mem_cons_of_mem t hv)
    cases hopen : t.opener? rest with
    | none =>
      rw [markKeywords_cons_of_none hopen] at h
      cases earlier with
      | nil =>
        obtain ⟨rfl, -⟩ := List.cons.inj h
        rw [hplain t List.mem_cons_self] at hk
        cases hk
      | cons v earlier => exact ih hrest (List.cons.inj h).2
    | some l =>
      rw [markKeywords_cons_of_some hopen] at h
      cases earlier with
      | nil =>
        obtain ⟨rfl, rfl⟩ := List.cons.inj h
        obtain rfl : l = k := Option.some.inj hk
        rw [isDelimited_markKeywords]
        exact opener?_eq_some_iff.mp hopen
      | cons v earlier => exact ih hrest (List.cons.inj h).2

/-- White space follows a token before which the next one has a gap, or the text ends. -/
theorem isBlank_head_spelling {later : List Token} (hgaps : ∀ t ∈ later, Blank t.gap)
    (h : later.head?.all spaced = true) {w : Text} (hw : Blank w) :
    ∀ c ∈ (spelling later ++ w).head?, isBlank c = true := by
  intro c hc
  cases later with
  | nil => exact hw c (List.mem_of_mem_head? hc)
  | cons u rest =>
    have hgap : u.gap ≠ [] := by simpa [spaced] using h
    rw [spelling_cons, List.append_assoc, List.head?_append_of_ne_nil _ hgap] at hc
    exact hgaps u List.mem_cons_self c (List.mem_of_mem_head? hc)

/-- **A token that is a keyword divides its text** where it stands. -/
theorem divides_of_keyword? {s : Text} {earlier later : List Token} {u : Token} {k : Keyword}
    (h : tokenize s = earlier ++ u :: later) (hk : u.keyword? = some k) :
    k.Divides (spelling earlier ++ u.gap) (spelling later ++ blankEnd s) s := by
  obtain ⟨hdelimited, htext, hne⟩ :=
    isDelimited_of_keyword? (fun t ht => (isCut_of_mem_lexemes (s := s) t ht).keyword?) h hk
  rw [isDelimited, Bool.and_eq_true] at hdelimited
  have hgap : u.gap ≠ [] := by simpa [spaced] using hdelimited.1
  have hgaps : ∀ t ∈ earlier ++ u :: later, Blank t.gap := by
    intro t ht
    exact blank_gap_of_mem_tokenize (h ▸ ht)
  refine ⟨?_, hne, exists_blank_getLast? (hgaps u (by simp)) hgap _, ?_⟩
  · calc s = spelling (tokenize s) ++ blankEnd s := by
          rw [spelling_tokenize, trimEnd_append_blankEnd]
      _ = spelling earlier ++ u.gap ++ (k.text ++ (spelling later ++ blankEnd s)) := by
          rw [h, ← htext]
          simp [spelling]
  · exact isBlank_head_spelling (fun t ht => hgaps t (by simp [ht])) hdelimited.2
      (blank_blankEnd s)

theorem keyword?_eq_some_iff {t : Token} {k : Keyword} :
    t.keyword? = some k ↔ t.kind = .keyword k := by
  unfold keyword?
  split <;> simp_all

/-- **Keywords stand exactly where their letters divide the text**, and are no longer than these;
`GET` is none of them. -/
theorem keyword_places_iff (s : Text) :
    (∀ (k : Keyword) (i : Nat),
      (∃ t span, (t, span) ∈ places s ∧ t.kind = .keyword k ∧ span.start = i) ↔
        ∃ before after, k.Divides before after s ∧ utf8Size before = i) ∧
    ∀ t ∈ tokenize s, ∀ k, t.kind = .keyword k → t.text = k.text ∧ k ≠ .fields := by
  refine ⟨fun k i => ⟨?_, ?_⟩, fun t ht k hk => ?_⟩
  · rintro ⟨t, span, hmem, hk, rfl⟩
    obtain ⟨earlier, later, hsplit, hstart, -⟩ := mem_places_iff.mp hmem
    refine ⟨_, _, divides_of_keyword? hsplit (keyword?_eq_some_iff.mpr hk), ?_⟩
    exact hstart.symm
  · rintro ⟨before, after, h, rfl⟩
    have htokens := tokenize_append_keyword h.blankEnd_ne_nil h.ne_fields h.before_blank
    rw [← h.eq_append] at htokens
    refine ⟨⟨.keyword k, blankEnd before, k.text⟩,
      ⟨utf8Size before, utf8Size before + utf8Size k.text⟩,
      mem_places_iff.mpr ⟨_, _, htokens, ?_, rfl⟩, rfl, rfl⟩
    rw [spelling_tokenize, trimEnd_append_blankEnd]
  · obtain ⟨earlier, later, hsplit⟩ := List.append_of_mem ht
    exact (isDelimited_of_keyword? (fun u hu => (isCut_of_mem_lexemes (s := s) u hu).keyword?)
      hsplit (keyword?_eq_some_iff.mpr hk)).2

end Token

namespace Text

/-- **In a text that no keyword divides there are no keywords.** -/
theorem keyword?_of_not_dividedAt {s : Text} (h : ∀ n, ¬DividedAt s n) :
    ∀ t ∈ tokenize s, t.keyword? = none := by
  intro t ht
  cases hk : t.keyword? with
  | none => rfl
  | some k =>
    obtain ⟨earlier, later, hsplit⟩ := List.append_of_mem ht
    exact absurd (divides_of_keyword? hsplit hk).dividedAt (h _)

end Text

/-! ### The last place at which a text is divided -/

/-- **A keyword divides a text for the last time**: no keyword does so further on. -/
structure Keyword.DividesLast (k : Keyword) (before after s : Text) : Prop extends
    k.Divides before after s where
  /-- No other place lies behind this one. -/
  last : ∀ n, DividedAt s n → n ≤ before.length

namespace Keyword

variable {k : Keyword} {before after s : Text}

/-- **Behind the last keyword the text is quiet**: a keyword found there would be further on. -/
theorem DividesLast.quiet (h : k.DividesLast before after s) : Text.Quiet after := by
  refine keyword?_of_not_dividedAt fun n hn => ?_
  obtain ⟨l, before', after', hdivides, -⟩ := hn
  obtain ⟨c, hc, hblank⟩ := hdivides.behind_blank
  -- the space that is put before the text belongs to what stands before the other keyword
  obtain ⟨d, rest, rfl⟩ : ∃ d rest, before' = d :: rest := by
    cases before' with
    | nil => cases hc
    | cons d rest => exact ⟨d, rest, rfl⟩
  have hsplit : after = rest ++ (l.text ++ after') := by
    have heq := hdivides.eq_append
    rw [List.cons_append] at heq
    exact (List.cons.inj heq).2
  have hrest : rest ≠ [] := by
    rintro rfl
    obtain ⟨e, t, hl, he⟩ := (solid_keyword l).head
    have := h.before_blank e (by rw [hsplit, hl]; rfl)
    rw [he] at this
    cases this
  have hfurther : l.Divides (before ++ (k.text ++ rest)) after' s := by
    refine ⟨?_, hdivides.ne_fields, ⟨c, ?_, hblank⟩, hdivides.before_blank⟩
    · rw [h.eq_append, hsplit]
      simp only [List.append_assoc]
    · rw [List.getLast?_cons_of_ne_nil hrest] at hc
      rw [← List.append_assoc, List.getLast?_append_of_ne_nil _ hrest]
      exact hc
  have hlength := h.last _ hfurther.dividedAt
  have hpos : k.text.length ≠ 0 := by cases k <;> decide
  simp only [List.length_append] at hlength
  omega

/-- A text that is divided at all is divided for a last time. -/
theorem exists_dividesLast {n : Nat} (h : DividedAt s n) :
    ∃ (l : Keyword) (before after : Text), l.DividesLast before after s := by
  classical
  obtain ⟨l, before, after, hdivides, hlength⟩ :=
    Nat.findGreatest_spec (P := DividedAt s) h.le_length h
  refine ⟨l, before, after, hdivides, fun m hm => ?_⟩
  rw [hlength]
  exact Nat.le_findGreatest hm.le_length hm

end Keyword

/-! ### The last clause of a text -/

/-- **A text in front of its last clause**, and that clause. -/
structure LastClause (k : Keyword) (before after q : Text) : Prop where
  /-- The keyword stands between what is before the clause and what is in it. -/
  eq_append : q = before ++ (k.text ++ after)
  /-- `GET` opens no clause behind another. -/
  ne_fields : k ≠ .fields
  /-- Something stands before the clause. -/
  not_blank : ¬Blank before
  /-- White space stands before the keyword. -/
  behind_blank : blankEnd before ≠ []
  /-- White space stands behind the keyword, if anything does. -/
  before_blank : ∀ c ∈ after.head?, isBlank c = true
  /-- No keyword stands in the clause. -/
  quiet : Text.Quiet after

namespace LastClause

variable {k : Keyword} {before after q w : Text}

/-- The text ends in what the clause holds. -/
theorem isSuffix (h : LastClause k before after q) : after <:+ q := by
  rw [h.eq_append]
  exact (List.suffix_append k.text after).trans (List.suffix_append before _)

theorem clauses_eq (h : LastClause k before after q) :
    Clauses.ofText q =
      ⟨(Clauses.ofText before).head, (Clauses.ofText before).rest ++
        [⟨k, ⟨.keyword k, blankEnd before, k.text⟩, lexemes after⟩]⟩ := by
  rw [h.eq_append]
  exact Clauses.ofText_append_clause h.not_blank h.behind_blank h.ne_fields h.before_blank h.quiet

/-- The tokens of a text are those before its last clause, the keyword, and those in the clause. -/
theorem tokenize_eq (h : LastClause k before after q) :
    tokenize (trim q) =
      tokenize (trim before) ++ ⟨.keyword k, blankEnd before, k.text⟩ :: lexemes after := by
  have hclauses := congrArg Clauses.toTokens h.clauses_eq
  have hbefore : (Clauses.ofText before).toTokens = tokenize (trim before) :=
    Clauses.toTokens_ofTokens _
  rw [Clauses.ofText, Clauses.toTokens_ofTokens] at hclauses
  rw [hclauses, ← hbefore]
  simp [Clauses.toTokens]

/-- **The last clause is the first of its kind** if its keyword occurs once. -/
theorem first?_eq_none (h : LastClause k before after q)
    (hcount : (tokenize (trim q)).countP (fun t => t.keyword? = some k) = 1) :
    (Clauses.ofText before).first? k = none := by
  refine Clauses.first?_eq_none fun t ht hk => ?_
  have hopener : (⟨.keyword k, blankEnd before, k.text⟩ : Token).keyword? = some k := rfl
  have hpos : 0 < (tokenize (trim before)).countP (fun t => t.keyword? = some k) :=
    List.countP_pos_iff.mpr ⟨t, ht, by simpa using hk⟩
  rw [h.tokenize_eq, List.countP_append, List.countP_cons, hopener] at hcount
  simp only [decide_true, if_true] at hcount
  omega

/-- **What is put behind a text goes to its last clause.** -/
theorem append (h : LastClause k before after q) (hw : Text.Quiet w)
    (hstart : ∀ c ∈ w.head?, isBlank c = true) : LastClause k before (after ++ w) (q ++ w) where
  eq_append := by rw [h.eq_append, List.append_assoc, List.append_assoc]
  ne_fields := h.ne_fields
  not_blank := h.not_blank
  behind_blank := h.behind_blank
  before_blank := by
    cases after with
    | nil => exact hstart
    | cons c after => exact h.before_blank
  quiet := by
    refine h.quiet.append hw ?_
    cases w with
    | nil => exact apart_nil_right after
    | cons c w => exact apart_of_head (runsOn_of_blank_right (hstart c rfl))

/-- A clause that is the first of its kind is read for itself. -/
theorem ofText_eq (h : LastClause k before after q)
    (hnew : (Clauses.ofText before).first? k = none) :
    Query.ofText q =
      { (Query.ofText before).withClause k (lexemes after) with lastKeyword := some k } := by
  rw [h.eq_append]
  exact Query.ofText_append_clause h.not_blank h.behind_blank h.ne_fields h.before_blank h.quiet
    hnew

/-- A clause of which there is one already is not read. -/
theorem ofText_eq_of_repeated (h : LastClause k before after q)
    (hold : (Clauses.ofText before).first? k ≠ none) :
    Query.ofText q = { Query.ofText before with lastKeyword := some k } := by
  rw [h.eq_append]
  exact Query.ofText_append_repeated h.not_blank h.behind_blank h.ne_fields h.before_blank h.quiet
    hold

end LastClause

/-- **The last keyword of a trimmed text opens its last clause.** -/
theorem Keyword.DividesLast.lastClause {k : Keyword} {before after s : Text}
    (h : k.DividesLast before after s) (hs : trim s = s) : LastClause k before after s where
  eq_append := h.eq_append
  ne_fields := h.ne_fields
  not_blank := by
    rw [← hs] at h
    exact h.not_blank_before
  behind_blank := h.blankEnd_ne_nil
  before_blank := h.before_blank
  quiet := h.quiet

namespace Clauses

variable {raw : Text}

/-- A text that no keyword divides is a head and no more. -/
theorem ofText_of_not_dividedAt (h : ∀ n, ¬DividedAt (trim raw) n) :
    ofText raw = ⟨lexemes (trim raw), []⟩ := by
  have hquiet : Token.Quiet (lexemes (trim raw)) := keyword?_of_not_dividedAt h
  rw [ofText, tokenize, markKeywords_of_quiet hquiet, ofTokens_of_quiet (keyword?_of_quiet hquiet)]

/-- **The last keyword opens the last clause**, which holds all that stands behind it. -/
theorem ofText_of_dividesLast {k : Keyword} {before after : Text}
    (h : k.DividesLast before after (trim raw)) :
    ofText raw =
      ⟨(ofText before).head,
        (ofText before).rest ++ [⟨k, ⟨.keyword k, blankEnd before, k.text⟩, lexemes after⟩]⟩ := by
  have hread : ofText raw = ofText (trim raw) := by rw [ofText, ofText, trim_trim]
  rw [hread]
  exact (h.lastClause (trim_trim raw)).clauses_eq

end Clauses

namespace Query

/-- **The keyword under which a text ends**: the one that divides it for the last time, or `GET`
if none does and the text begins with its letters. -/
inductive EndsUnder (s : Text) : Option Keyword → Prop
  /-- A keyword divides the text, and none does so further on. -/
  | keyword {k : Keyword} {before after : Text} (h : k.DividesLast before after s) :
      EndsUnder s (some k)
  /-- No keyword divides the text, and it begins with the letters of `GET`. -/
  | head (hnone : ∀ n, ¬DividedAt s n)
      (h : Keyword.fields.text <+: s) : EndsUnder s (some .fields)
  /-- No keyword divides the text, and it begins in some other way. -/
  | nothing (hnone : ∀ n, ¬DividedAt s n)
      (h : ¬Keyword.fields.text <+: s) : EndsUnder s none

theorem exists_endsUnder (s : Text) : ∃ o, EndsUnder s o := by
  by_cases hsome : ∃ n, DividedAt s n
  · obtain ⟨n, hn⟩ := hsome
    obtain ⟨k, before, after, h⟩ := Keyword.exists_dividesLast hn
    exact ⟨some k, .keyword h⟩
  · have hnone : ∀ n, ¬DividedAt s n := not_exists.mp hsome
    by_cases hget : Keyword.fields.text <+: s
    · exact ⟨some .fields, .head hnone hget⟩
    · exact ⟨none, .nothing hnone hget⟩

variable {raw : Text}

theorem lastKeyword_of_not_dividedAt (h : ∀ n, ¬DividedAt (trim raw) n) :
    (ofText raw).lastKeyword = headKeyword? (trim raw) := by
  rw [ofText_eq, Clauses.ofText_of_not_dividedAt h]
  simp [ofClauses, Clauses.lastKeyword?]

theorem lastKeyword_of_endsUnder {o : Option Keyword} (h : EndsUnder (trim raw) o) :
    (ofText raw).lastKeyword = o := by
  cases h with
  | keyword h =>
    rw [ofText_eq, Clauses.ofText_of_dividesLast h]
    simp [ofClauses, Clauses.lastKeyword?]
  | head hnone h =>
    rw [lastKeyword_of_not_dividedAt hnone, headKeyword?, beginsWith_iff.mpr h]
    rfl
  | nothing hnone h =>
    have hnot : beginsWith Keyword.fields.text (trim raw) = false := by
      rw [← Bool.not_eq_true, beginsWith_iff]
      exact h
    rw [lastKeyword_of_not_dividedAt hnone, headKeyword?, hnot]
    rfl

/-- **The last keyword of a query is the rightmost one of its text**: of all the places at which
the letters of a keyword stand between white space the last one tells, and without any the
beginning of the text does. -/
theorem lastKeyword_eq_iff (raw : Text) (o : Option Keyword) :
    (ofText raw).lastKeyword = o ↔ EndsUnder (trim raw) o := by
  constructor
  · rintro rfl
    obtain ⟨o, ho⟩ := exists_endsUnder (trim raw)
    rwa [lastKeyword_of_endsUnder ho]
  · exact lastKeyword_of_endsUnder

/-- A comma next to the letters makes them a word like others, a parenthesis further off does
not. -/
example : (ofText "GET FROM ( ON ) WHERE, a".toList).lastKeyword = some .chains := by decide +kernel

end Query

end ChainQuery
