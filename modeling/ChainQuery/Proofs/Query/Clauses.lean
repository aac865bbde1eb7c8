import ChainQuery.Query.Reading
import ChainQuery.Proofs.Token.Marking

/-!
# A text with one more clause

A query is written clause by clause, and it can be read that way. When a keyword and a quiet
text are put behind a text that ends in white space, the clauses of the whole are those there
were and one more (`ChainQuery.Clauses.ofText_append_clause`); what the query was told before
is left alone, and the new clause is read for itself
(`ChainQuery.Query.ofText_append_clause`). Nothing has to be known of the text before, which
need not be quiet and need not make any sense.

A keyword with nothing behind it says only where a user is typing
(`ChainQuery.Query.ofText_append_keyword`), and so does a second clause of a kind, whatever it
holds (`ChainQuery.Query.ofText_append_repeated`). This is how a word that is the beginning of a
longer one, and happens to be a keyword, is harmless.
-/

namespace ChainQuery

open Text

namespace Token

/-- White space at the end of a text is not seen by the tokens. -/
theorem tokenize_trim (raw : Text) :
    tokenize (trim raw) = markKeywords (lexemes (trimStart raw)) := by
  have hlex : lexemes (trimStart raw) = lexemes (trimEnd (trimStart raw)) := by
    rw [← lexemes_append_blank (trimEnd (trimStart raw)) (blank_blankEnd (trimStart raw)),
      trimEnd_append_blankEnd]
  rw [tokenize, trim, hlex]

end Token

open Token

namespace Clauses

/-- **The clauses of a text**, without the white space around it. -/
def ofText (raw : Text) : Clauses := ofTokens (tokenize (trim raw))

theorem ofTokens_of_quiet {tokens : List Token} (h : ∀ t ∈ tokens, t.keyword? = none) :
    ofTokens tokens = ⟨tokens, []⟩ := by
  induction tokens with
  | nil => rfl
  | cons t later ih =>
    rw [ofTokens_cons_of_none (h t List.mem_cons_self),
      ih fun u hu => h u (List.mem_cons_of_mem t hu)]

/-- A keyword behind some tokens opens one more clause. -/
theorem ofTokens_append_cons {t : Token} {k : Keyword} (ht : t.keyword? = some k)
    {more : List Token} (hmore : ∀ u ∈ more, u.keyword? = none) (tokens : List Token) :
    ofTokens (tokens ++ t :: more) =
      ⟨(ofTokens tokens).head, (ofTokens tokens).rest ++ [⟨k, t, more⟩]⟩ := by
  induction tokens with
  | nil =>
    rw [List.nil_append, ofTokens_cons_of_some ht, ofTokens_of_quiet hmore]
    rfl
  | cons u tokens ih =>
    cases hu : u.keyword? with
    | none =>
      rw [List.cons_append, ofTokens_cons_of_none hu, ih, ofTokens_cons_of_none hu]
    | some l =>
      rw [List.cons_append, ofTokens_cons_of_some hu, ih, ofTokens_cons_of_some hu]
      rfl

theorem ofText_append_blank (s : Text) {w : Text} (hw : Blank w) :
    ofText (s ++ w) = ofText s := by
  rw [ofText, trim_append_blank s hw, ofText]

/-- A quiet text is a head and no more. -/
theorem ofText_of_quiet {s : Text} (h : Text.Quiet s) : ofText s = ⟨lexemes (trim s), []⟩ := by
  obtain ⟨v, hv, hs⟩ := exists_eq_blank_append_trimStart s
  have hquiet : Token.Quiet (lexemes (trimStart s)) := by
    have hall := h.lexemes
    rw [hs, lexemes_blank_append hv] at hall
    by_cases hne : v = []
    · subst hne
      simpa using hall
    · simpa using quiet_pad hne hall []
  have hlex : lexemes (trimStart s) = lexemes (trim s) := by
    rw [trim, ← lexemes_append_blank (trimEnd (trimStart s)) (blank_blankEnd (trimStart s)),
      trimEnd_append_blankEnd]
  rw [ofText, tokenize_trim, markKeywords_of_quiet hquiet,
    ofTokens_of_quiet (keyword?_of_quiet hquiet), hlex]

/-- **A keyword and a quiet text make one more clause.** -/
theorem ofText_append_clause {s body : Text} {k : Keyword} (hs : ¬Blank s)
    (hend : blankEnd s ≠ []) (hk : k ≠ .fields) (hstart : ∀ c ∈ body.head?, isBlank c = true)
    (hbody : Text.Quiet body) :
    ofText (s ++ (k.text ++ body)) =
      ⟨(ofText s).head,
        (ofText s).rest ++ [⟨k, ⟨.keyword k, blankEnd s, k.text⟩, lexemes body⟩]⟩ := by
  -- trimming takes what stands before the text, and nothing at the seam
  have hgap : blankEnd s = blankEnd (trimStart s) := (blankEnd_trimStart hs).symm
  have hstart' : trimStart (s ++ (k.text ++ body)) = trimStart s ++ (k.text ++ body) :=
    trimStart_append_of_not_blank hs _
  have hquiet : tokenize body = lexemes body := markKeywords_of_quiet hbody.lexemes
  have hbefore : tokenize (trimStart s) = tokenize (trim s) := (tokenize_trim s).symm
  have htokens : tokenize (trim (s ++ (k.text ++ body))) =
      tokenize (trim s) ++ ⟨.keyword k, blankEnd s, k.text⟩ :: lexemes body := by
    rw [tokenize_trim, hstart', ← hquiet, ← hbefore, hgap]
    exact tokenize_append_keyword (hgap ▸ hend) hk hstart
  rw [ofText, htokens, ofTokens_append_cons rfl (keyword?_of_quiet hbody.lexemes), ofText]

/-! ### Looking for a clause -/

/-- The token that opens a clause is its keyword. -/
theorem keyword?_opener_of_mem {tokens : List Token} {clause : Clause}
    (h : clause ∈ (ofTokens tokens).rest) :
    clause.opener ∈ tokens ∧ clause.opener.keyword? = some clause.keyword := by
  induction tokens with
  | nil => cases h
  | cons t later ih =>
    cases ht : t.keyword? with
    | none =>
      rw [ofTokens_cons_of_none ht] at h
      exact (ih h).imp_left (List.mem_cons_of_mem t)
    | some k =>
      rw [ofTokens_cons_of_some ht] at h
      rcases List.mem_cons.mp h with rfl | h
      · exact ⟨List.mem_cons_self, ht⟩
      · exact (ih h).imp_left (List.mem_cons_of_mem t)

/-- A keyword that is not there opens no clause. -/
theorem first?_eq_none {tokens : List Token} {k : Keyword}
    (h : ∀ t ∈ tokens, t.keyword? ≠ some k) : (ofTokens tokens).first? k = none := by
  rw [first?, Option.map_eq_none_iff, List.find?_eq_none]
  rintro clause hclause hk
  obtain ⟨hmem, hopener⟩ := keyword?_opener_of_mem hclause
  exact h _ hmem (hopener.trans (congrArg some (beq_iff_eq.mp hk)))

/-- A clause put last is found if none of its keyword stands before it. -/
theorem first?_concat (head : List Token) (rest : List Clause) (clause : Clause)
    (k : Keyword) :
    first? ⟨head, rest ++ [clause]⟩ k =
      (first? ⟨head, rest⟩ k).or (if clause.keyword = k then some clause.tokens else none) := by
  simp only [first?, List.find?_append]
  cases h : rest.find? fun c => c.keyword == k with
  | some c => simp
  | none =>
    by_cases hk : clause.keyword = k
    · simp [hk]
    · simp [hk, beq_eq_false_iff_ne.mpr hk]

theorem first?_ofText_append_clause {s body : Text} {k l : Keyword} (hs : ¬Blank s)
    (hend : blankEnd s ≠ []) (hk : k ≠ .fields) (hstart : ∀ c ∈ body.head?, isBlank c = true)
    (hbody : Text.Quiet body) :
    (ofText (s ++ (k.text ++ body))).first? l =
      ((ofText s).first? l).or (if k = l then some (lexemes body) else none) := by
  rw [ofText_append_clause hs hend hk hstart hbody, first?_concat]

end Clauses

namespace Query

theorem ofText_eq (raw : Text) : ofText raw = ofClauses (Clauses.ofText raw) := rfl

theorem ofText_trim (raw : Text) : ofText (trim raw) = ofText raw := by
  rw [ofText, trim_trim, ofText]

theorem ofText_append_blank (s : Text) {w : Text} (hw : Blank w) : ofText (s ++ w) = ofText s := by
  rw [ofText_eq, Clauses.ofText_append_blank s hw, ofText_eq]

/-- **A query with what one more clause says**, given that the clause is the first of its kind:
the components that the clause determines are replaced, except that a clause without the name
of an entity leaves the entity alone. -/
def withClause (q : Query) (k : Keyword) (tokens : List Token) : Query :=
  match k with
  | .fields => q
  | .entity =>
    match readEntity (stretch tokens) with
    | some (name, identifier) => { q with entity := some name, identifier := identifier }
    | none => q
  | .filters => { q with filters := readFilters tokens }
  | .chains => { q with chains := readChains (stretch tokens) }
  | .dump => { q with dump := readDump (stretch tokens) }

/-- **A clause that is the first of its kind is read for itself**, and nothing else changes but
the keyword that is last. -/
theorem ofText_append_clause {s body : Text} {k : Keyword} (hs : ¬Blank s)
    (hend : blankEnd s ≠ []) (hk : k ≠ .fields) (hstart : ∀ c ∈ body.head?, isBlank c = true)
    (hbody : Text.Quiet body) (hnew : (Clauses.ofText s).first? k = none) :
    ofText (s ++ (k.text ++ body)) =
      { (ofText s).withClause k (lexemes body) with lastKeyword := some k } := by
  rw [ofText_eq, ofText_eq, Clauses.ofText_append_clause hs hend hk hstart hbody]
  set clauses := Clauses.ofText s
  have hlast : Clauses.lastKeyword?
      ⟨clauses.head, clauses.rest ++ [⟨k, ⟨.keyword k, blankEnd s, k.text⟩, lexemes body⟩]⟩ =
        some k := by
    simp [Clauses.lastKeyword?]
  simp only [ofClauses, hlast, Clauses.first?_concat, Option.some_or]
  cases k with
  | fields => exact absurd rfl hk
  | entity =>
    -- a clause that names no entity leaves the one that the fields imply
    simp only [withClause, hnew, Option.none_or, if_true, reduceCtorEq, if_false, Option.or_none,
      Option.bind_none, Option.bind_some, Option.map_none]
    cases readEntity (stretch (lexemes body)) <;> simp
  | filters => simp [withClause, hnew]
  | chains => simp [withClause, hnew]
  | dump => simp [withClause, hnew]

/-- **A clause that is silent says only where a user is typing**: nothing stands in it, or there is
an earlier one of its kind. -/
theorem ofClauses_concat_of_silent {head : List Token} {rest : List Clause} {clause : Clause}
    (h : clause.tokens = [] ∨ Clauses.first? ⟨head, rest⟩ clause.keyword ≠ none) :
    ofClauses ⟨head, rest ++ [clause]⟩ =
      { ofClauses ⟨head, rest⟩ with lastKeyword := some clause.keyword } := by
  have hfirst : ∀ (β : Type) (read : List Token → Option β) (l : Keyword), read [] = none →
      (Clauses.first? ⟨head, rest ++ [clause]⟩ l).bind read =
        (Clauses.first? ⟨head, rest⟩ l).bind read := by
    intro β read l hread
    rw [Clauses.first?_concat]
    cases hcase : Clauses.first? ⟨head, rest⟩ l with
    | some tokens => simp
    | none =>
      by_cases hl : clause.keyword = l
      · have hnil : clause.tokens = [] := h.resolve_right fun hne => hne (hl ▸ hcase)
        simp [hl, hnil, hread]
      · simp [hl]
  simp only [ofClauses]
  rw [hfirst _ _ .entity rfl, hfirst _ _ .filters rfl, hfirst _ _ .chains rfl,
    hfirst _ _ .dump rfl]
  simp [Clauses.lastKeyword?]

/-- **A keyword with nothing behind it says only where a user is typing.** -/
theorem ofText_append_keyword {s : Text} {k : Keyword} (hs : ¬Blank s) (hend : blankEnd s ≠ [])
    (hk : k ≠ .fields) : ofText (s ++ k.text) = { ofText s with lastKeyword := some k } := by
  have hclauses : Clauses.ofText (s ++ (k.text ++ [])) = _ :=
    Clauses.ofText_append_clause hs hend hk (by simp) (quiet_of_blank blank_nil)
  rw [List.append_nil] at hclauses
  rw [ofText_eq, ofText_eq, hclauses]
  exact ofClauses_concat_of_silent (Or.inl rfl)

/-- **A second clause of a kind says only where a user is typing.** -/
theorem ofText_append_repeated {s body : Text} {k : Keyword} (hs : ¬Blank s)
    (hend : blankEnd s ≠ []) (hk : k ≠ .fields) (hstart : ∀ c ∈ body.head?, isBlank c = true)
    (hbody : Text.Quiet body) (hold : (Clauses.ofText s).first? k ≠ none) :
    ofText (s ++ (k.text ++ body)) = { ofText s with lastKeyword := some k } := by
  rw [ofText_eq, ofText_eq, Clauses.ofText_append_clause hs hend hk hstart hbody]
  exact ofClauses_concat_of_silent (Or.inr hold)

/-- **A clause that is being typed** is read up to a keyword in which it may end, which says only
where a user is typing. -/
theorem ofText_append_of_quietSoFar {s body : Text} {k : Keyword} (hs : ¬Blank s)
    (hend : blankEnd s ≠ []) (hk : k ≠ .fields) (hstart : ∀ c ∈ body.head?, isBlank c = true)
    (hbody : QuietSoFar body) (hnew : (Clauses.ofText s).first? k = none) :
    ∃ read l, ofText (s ++ (k.text ++ body)) =
        { (ofText s).withClause k (lexemes read) with lastKeyword := some l } ∧
      (body = read ∧ l = k ∨ body = read ++ l.text) := by
  rcases hbody with hbody | ⟨read, l, rfl, hl, hread, hgap⟩
  · exact ⟨body, k, ofText_append_clause hs hend hk hstart hbody hnew, Or.inl ⟨rfl, rfl⟩⟩
  · -- the body that is read is not empty, for the second keyword stands behind white space
    have hne : read ≠ [] := by
      rintro rfl
      obtain ⟨c, t, hc⟩ := (solid_keyword l).head
      have := hstart c (by simp [hc.1])
      rw [hc.2] at this
      cases this
    have hstart' : ∀ c ∈ read.head?, isBlank c = true := by
      intro c hc
      exact hstart c (by rwa [List.head?_append_of_ne_nil _ hne])
    have hgap' : blankEnd (s ++ (k.text ++ read)) ≠ [] := by
      refine blankEnd_append_ne_nil s (blankEnd_append_ne_nil k.text ?_)
      by_cases hblank : Blank read
      · rwa [blankEnd_of_blank hblank]
      · rwa [← List.singleton_append, blankEnd_append_of_not_blank _ hblank] at hgap
    have hs' : ¬Blank (s ++ (k.text ++ read)) := fun hcon => hs (blank_append.mp hcon).1
    refine ⟨read, l, ?_, Or.inr rfl⟩
    have hkeyword := ofText_append_keyword hs' hgap' hl
    rw [ofText_append_clause hs hend hk hstart' hread hnew] at hkeyword
    rw [← hkeyword]
    simp only [List.append_assoc]

end Query

end ChainQuery
