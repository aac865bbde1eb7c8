import ChainQuery.Proofs.Query.Arrangement

/-!
# Typing on

A user types a query from left to right. What stands behind the last white space may still become
another word, but what stands before it has been cut into tokens for good: typing on puts more
tokens behind those there were (`ChainQuery.Token.tokenize_trim_append`). So the clause that is
being typed can grow, and new clauses can follow it, but a clause that has another keyword behind
it is **closed** (`ChainQuery.Query.Closed`). Nothing that is typed on changes what it says, be it
a keyword that occurs for the second time or a parenthesis that was never opened
(`ChainQuery.Query.agreesOn_ofText_append`). The head is closed by the first keyword of all.
-/

namespace ChainQuery

open Text

namespace Token

/-- **Behind white space, typing on puts more tokens behind those there were**: the tokens of what
is typed, with the white space in the gap of the first. -/
theorem tokenize_trim_append {s : Text} (hs : ¬Blank s) (hend : blankEnd s ≠ []) (c : Text) :
    tokenize (trim (s ++ c)) =
      tokenize (trim s) ++ markKeywords (pad (blankEnd s) (lexemes c)) := by
  have hgap : blankEnd (trimStart s) = blankEnd s := blankEnd_trimStart hs
  -- the first token that follows has the white space before it in its gap
  have hspaced := spaced_head_pad hend (lexemes c)
  rw [tokenize_trim, trimStart_append_of_not_blank hs,
    lexemes_append (apart_of_blankEnd_ne_nil (hgap ▸ hend) c), hgap,
    markKeywords_append_of_spaced _ hspaced, tokenize_trim]

theorem exists_tokenize_append {s : Text} (hs : ¬Blank s) (hend : blankEnd s ≠ []) (c : Text) :
    ∃ more, tokenize (trim (s ++ c)) = tokenize (trim s) ++ more :=
  ⟨_, tokenize_trim_append hs hend c⟩

end Token

open Token

namespace Clauses

/-- The first keyword closes the head. -/
theorem head_ofTokens_append {tokens : List Token} (h : ∃ t ∈ tokens, t.keyword?.isSome)
    (more : List Token) : (ofTokens (tokens ++ more)).head = (ofTokens tokens).head := by
  induction tokens with
  | nil => simp at h
  | cons t later ih =>
    cases ht : t.keyword? with
    | some k => rw [List.cons_append, ofTokens_cons_of_some ht, ofTokens_cons_of_some ht]
    | none =>
      have hlater : ∃ u ∈ later, u.keyword?.isSome := by
        simpa [ht] using h
      rw [List.cons_append, ofTokens_cons_of_none ht, ofTokens_cons_of_none ht, ih hlater]

/-- The first clause of a kind holds what stands behind the first keyword of that kind, up to
the next keyword. -/
theorem first?_ofTokens_append_cons {before : List Token} {opener : Token} {k : Keyword}
    (hbefore : ∀ t ∈ before, t.keyword? ≠ some k) (hopener : opener.keyword? = some k)
    (rest : List Token) :
    (ofTokens (before ++ opener :: rest)).first? k = some (ofTokens rest).head := by
  induction before with
  | nil => simp [ofTokens_cons_of_some hopener, first?]
  | cons t before ih =>
    have hlater : (ofTokens (before ++ opener :: rest)).first? k = some (ofTokens rest).head :=
      ih fun u hu => hbefore u (List.mem_cons_of_mem t hu)
    cases ht : t.keyword? with
    | none => rwa [List.cons_append, ofTokens_cons_of_none ht]
    | some l =>
      have hne : l ≠ k := fun hl => hbefore t List.mem_cons_self (ht.trans (congrArg some hl))
      rw [List.cons_append, ofTokens_cons_of_some ht, first?, List.find?_cons_of_neg (by simpa)]
      exact hlater

end Clauses

namespace Query

/-- **A closed clause**: of the clauses that a keyword opens in a text, the first has another
keyword behind it. -/
def Closed (k : Keyword) (s : Text) : Prop :=
  ∃ before opener between next after,
    tokenize (trim s) = before ++ opener :: (between ++ next :: after) ∧
      (∀ t ∈ before, t.keyword? ≠ some k) ∧ opener.keyword? = some k ∧ next.keyword?.isSome

/-- **Typing on does not change the first clause of a kind** if it is closed. -/
theorem Closed.first?_append {k : Keyword} {s : Text} (h : Closed k s) (hs : ¬Blank s)
    (hend : blankEnd s ≠ []) (c : Text) :
    (Clauses.ofText (s ++ c)).first? k = (Clauses.ofText s).first? k := by
  obtain ⟨before, opener, between, next, after, htokens, hbefore, hopener, hnext⟩ := h
  obtain ⟨more, hmore⟩ := exists_tokenize_append hs hend c
  have hclosed : ∃ t ∈ between ++ next :: after, t.keyword?.isSome := ⟨next, by simp, hnext⟩
  rw [Clauses.ofText, Clauses.ofText, hmore, htokens, List.append_assoc, List.cons_append,
    Clauses.first?_ofTokens_append_cons hbefore hopener,
    Clauses.first?_ofTokens_append_cons hbefore hopener, Clauses.head_ofTokens_append hclosed]

/-- **Typing on changes nothing that is closed.** Behind a text that ends in white space and holds
a keyword, whatever is typed leaves the fields alone, and all that a closed clause says. -/
theorem agreesOn_ofText_append {s : Text} (hend : ∃ c ∈ s.getLast?, isBlank c = true)
    (hkeyword : ∃ t ∈ tokenize (trim s), t.keyword?.isSome) (c : Text) :
    (ofText s).AgreesOn .fields (ofText (s ++ c)) ∧
      ∀ k, Closed k s → (ofText s).AgreesOn k (ofText (s ++ c)) := by
  have hs : ¬Blank s := by
    intro hblank
    rw [trim_eq_nil_iff.mpr hblank] at hkeyword
    simp [tokenize] at hkeyword
  have hend : blankEnd s ≠ [] := blankEnd_ne_nil_of_getLast? hend
  have hhead : (Clauses.ofText (s ++ c)).head = (Clauses.ofText s).head := by
    obtain ⟨more, hmore⟩ := exists_tokenize_append hs hend c
    rw [Clauses.ofText, hmore, Clauses.head_ofTokens_append hkeyword, Clauses.ofText]
  rw [ofText_eq, ofText_eq]
  constructor
  · simp only [AgreesOn, ofClauses, hhead]
  · intro k hk
    exact agreesOn_ofClauses (congrArg stretch hhead) (hk.first?_append hs hend c)

/-- The list of filters is closed by `ON`, and neither the parenthesis that is open in it nor a
second list changes what it says. -/
theorem agreesOn_behind_chains :
    (ofText "GET * WHERE (gas ON ".toList).AgreesOn .filters
      (ofText ("GET * WHERE (gas ON ".toList ++ "eth) WHERE (value".toList)) := by
  have hclosed : Closed .filters "GET * WHERE (gas ON ".toList :=
    ⟨[⟨.word, [], "GET".toList⟩, ⟨.word, [' '], "*".toList⟩],
      ⟨.keyword .filters, [' '], "WHERE".toList⟩,
      [⟨.openParen, [' '], "(".toList⟩, ⟨.word, [], "gas".toList⟩],
      ⟨.keyword .chains, [' '], "ON".toList⟩, [], by decide +kernel, by decide, rfl, rfl⟩
  have hend : ∃ c ∈ "GET * WHERE (gas ON ".toList.getLast?, isBlank c = true := by decide
  have hkeyword : ∃ t ∈ tokenize (trim "GET * WHERE (gas ON ".toList), t.keyword?.isSome := by
    decide +kernel
  exact (agreesOn_ofText_append hend hkeyword "eth) WHERE (value".toList).2 .filters hclosed

end Query

end ChainQuery
