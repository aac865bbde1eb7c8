import ChainQuery.Proofs.Query.LastKeyword
import ChainQuery.Proofs.Token.Slices

/-!
# How keywords divide a text

The keywords among some tokens divide them into a head and clauses, and there is no other way in
which they could: a division in which nothing is lost, every clause is opened by its keyword, and
no keyword stands anywhere else is the one that is made (`ChainQuery.Clauses.divides_iff`).

A clause is read from the text on which its tokens stand. Tokens do not know their places, so the
division is carried over to the places of the tokens (`ChainQuery.Clauses.LaidOut`): each clause
has its share of them, in the order in which they are, and what its share cuts out of the text is
the stretch that is read (`ChainQuery.Clauses.laidOut_tokenize`). To cut it out is always possible.
The share of a clause with tokens starts and stops where characters do, and it starts before it
stops; a clause without tokens has no place, and nothing is cut out for it.

The head is the one part that can be relied on. A text that does not begin with white space does not
begin with a keyword either, so something stands in its head, and the text begins with it.
-/

namespace ChainQuery

open Text Token

theorem Text.IsSlice.bounds {part s : Text} {span : Span} (h : part.IsSlice span s) :
    span.start ≤ span.stop ∧ span.stop ≤ utf8Size s := by
  obtain ⟨before, after, rfl, hstart, hstop⟩ := h
  simp only [utf8Size_append] at hstart hstop ⊢
  omega

namespace Clauses

/-! ### Divisions -/

/-- **A division of some tokens into clauses**: a keyword opens every clause, and no other keyword
is there. -/
structure Divides (clauses : Clauses) (tokens : List Token) : Prop where
  /-- Head and clauses, with the keywords put back between them, are the tokens. -/
  toTokens_eq : clauses.toTokens = tokens
  /-- No keyword stands in the head. -/
  head : ∀ t ∈ clauses.head, t.keyword? = none
  /-- The token before a clause is its keyword. -/
  opener : ∀ clause ∈ clauses.rest, clause.opener.keyword? = some clause.keyword
  /-- No keyword stands in a clause. -/
  tokens : ∀ clause ∈ clauses.rest, ∀ t ∈ clause.tokens, t.keyword? = none

theorem divides_nil : Divides ⟨[], []⟩ [] := ⟨rfl, by simp, by simp, by simp⟩

/-- A token that is no keyword goes to the head. -/
theorem Divides.cons_of_none {head tokens : List Token} {rest : List Clause}
    (h : Divides ⟨head, rest⟩ tokens) {t : Token} (ht : t.keyword? = none) :
    Divides ⟨t :: head, rest⟩ (t :: tokens) where
  toTokens_eq := congrArg (t :: ·) h.toTokens_eq
  head := List.forall_mem_cons.mpr ⟨ht, h.head⟩
  opener := h.opener
  tokens := h.tokens

/-- A keyword makes a clause of what was the head. -/
theorem Divides.cons_of_some {head tokens : List Token} {rest : List Clause}
    (h : Divides ⟨head, rest⟩ tokens) {t : Token} {k : Keyword} (ht : t.keyword? = some k) :
    Divides ⟨[], ⟨k, t, head⟩ :: rest⟩ (t :: tokens) where
  toTokens_eq := congrArg (t :: ·) h.toTokens_eq
  head := by simp
  opener := List.forall_mem_cons.mpr ⟨ht, h.opener⟩
  tokens := List.forall_mem_cons.mpr ⟨h.head, h.tokens⟩

theorem divides_ofTokens (tokens : List Token) : (ofTokens tokens).Divides tokens := by
  induction tokens with
  | nil => exact divides_nil
  | cons t later ih =>
    cases ht : t.keyword? with
    | none => rw [ofTokens_cons_of_none ht]; exact ih.cons_of_none ht
    | some k => rw [ofTokens_cons_of_some ht]; exact ih.cons_of_some ht

/-- Head and clauses that divide some tokens are found again. -/
theorem Divides.eq_ofTokens {clauses : Clauses} {tokens : List Token} (h : clauses.Divides tokens) :
    clauses = ofTokens tokens := by
  obtain ⟨head, rest⟩ := clauses
  -- one clause after the other is put behind what has been found
  induction rest using List.reverseRecOn generalizing tokens with
  | nil =>
    obtain ⟨rfl, hhead, -, -⟩ := h
    rw [toTokens, List.flatMap_nil, List.append_nil, ofTokens_of_quiet hhead]
  | append_singleton rest clause ih =>
    obtain ⟨rfl, hhead, hopener, htokens⟩ := h
    simp only [List.forall_mem_append, List.forall_mem_singleton] at hopener htokens
    have hbefore : (⟨head, rest⟩ : Clauses) = ofTokens (toTokens ⟨head, rest⟩) :=
      ih ⟨rfl, hhead, hopener.1, htokens.1⟩
    have hall : toTokens ⟨head, rest ++ [clause]⟩ =
        toTokens ⟨head, rest⟩ ++ clause.opener :: clause.tokens := by
      simp [toTokens]
    rw [hall, ofTokens_append_cons hopener.2 htokens.2, ← hbefore]

/-- **There is one division of some tokens into clauses**, and it is the one that is made. -/
theorem divides_iff {clauses : Clauses} {tokens : List Token} :
    clauses.Divides tokens ↔ clauses = ofTokens tokens :=
  ⟨Divides.eq_ofTokens, fun h => h ▸ divides_ofTokens tokens⟩

/-! ### The places of clauses -/

/-- **Clauses laid out over tokens at their places**: the places of the head come first, and then
for each clause the place of the keyword before it and those of its tokens. -/
structure LaidOut (clauses : Clauses) (placed head : List (Token × Span))
    (parts : List ((Token × Span) × List (Token × Span))) : Prop where
  /-- No place is left out, and none is moved. -/
  append_eq : head ++ parts.flatMap (fun part => part.1 :: part.2) = placed
  /-- At the first places stands the head. -/
  head_eq : head.map Prod.fst = clauses.head
  /-- At the others stand the clauses, each behind its keyword. -/
  parts_eq : parts.map (fun part => (part.1.1, part.2.map Prod.fst)) =
    clauses.rest.map fun clause => (clause.opener, clause.tokens)

theorem exists_parts {placed : List (Token × Span)} {rest : List Clause}
    (h : placed.map Prod.fst = rest.flatMap fun clause => clause.opener :: clause.tokens) :
    ∃ parts : List ((Token × Span) × List (Token × Span)),
      parts.flatMap (fun part => part.1 :: part.2) = placed ∧
      parts.map (fun part => (part.1.1, part.2.map Prod.fst)) =
        rest.map fun clause => (clause.opener, clause.tokens) := by
  induction rest generalizing placed with
  | nil => exact ⟨[], (List.map_eq_nil_iff.mp h).symm, rfl⟩
  | cons clause rest ih =>
    rw [List.flatMap_cons, List.cons_append, List.map_eq_cons_iff] at h
    obtain ⟨opener, later, rfl, hopener, h⟩ := h
    obtain ⟨tokens, later, rfl, htokens, h⟩ := List.map_eq_append_iff.mp h
    obtain ⟨parts, rfl, hparts⟩ := ih h
    exact ⟨(opener, tokens) :: parts, rfl, by rw [List.map_cons, List.map_cons, hparts, hopener,
      htokens]⟩

/-- **The places of tokens are divided as the tokens are.** -/
theorem exists_laidOut {clauses : Clauses} {placed : List (Token × Span)}
    (h : placed.map Prod.fst = clauses.toTokens) :
    ∃ head parts, clauses.LaidOut placed head parts := by
  obtain ⟨head, later, rfl, hhead, h⟩ := List.map_eq_append_iff.mp h
  obtain ⟨parts, rfl, hparts⟩ := exists_parts h
  exact ⟨head, parts, rfl, hhead, hparts⟩

/-- The places of a clause are neighbours. -/
theorem LaidOut.isInfix {clauses : Clauses} {placed head : List (Token × Span)}
    {parts : List ((Token × Span) × List (Token × Span))} (h : clauses.LaidOut placed head parts) :
    ∀ part ∈ head :: parts.map Prod.snd, part <:+: placed := by
  have hall := h.append_eq
  refine List.forall_mem_cons.mpr ⟨⟨[], _, hall⟩, List.forall_mem_map.mpr fun part hpart => ?_⟩
  have hbehind : part.1 :: part.2 <:+: parts.flatMap fun part => part.1 :: part.2 := by
    rw [List.flatMap_def]
    exact List.infix_of_mem_flatten (List.mem_map_of_mem hpart)
  have hparts : parts.flatMap (fun part => part.1 :: part.2) <:+ placed := ⟨head, hall⟩
  exact ((List.suffix_cons part.1 part.2).isInfix.trans hbehind).trans hparts.isInfix

/-! ### The clauses of a text -/

variable {s : Text}

/-- The first token of a text that does not begin with white space is no keyword. -/
theorem head_ne_nil (hs : trim s = s) (hne : s ≠ []) : (ofTokens (tokenize s)).head ≠ [] := by
  cases htokens : tokenize s with
  | nil =>
    have hstretch := stretch_tokenize s
    rw [htokens, hs] at hstretch
    exact absurd hstretch.symm hne
  | cons t later =>
    have hsplit : tokenize s = [] ++ t :: later := htokens
    have hkeyword : t.keyword? = none := by
      by_contra hsome
      obtain ⟨k, hk⟩ := Option.ne_none_iff_exists'.mp hsome
      have hdivides := divides_of_keyword? hsplit hk
      rw [← hs] at hdivides
      -- only its gap would stand before it
      refine hdivides.not_blank_before (blank_gap_of_mem_tokenize (s := s) ?_)
      rw [htokens]
      exact List.mem_cons_self
    rw [ofTokens_cons_of_none hkeyword]
    exact List.cons_ne_nil t _

/-- **The clauses of a text lie in it one after the other**, and each of them can be cut out. They
are the only division of its tokens. Their places are those of all tokens, in order; the places of a
clause start and stop in the text, in this order and where characters start and stop, and between
them stands what is read. A trimmed text has something in its head, and begins with it. -/
theorem laidOut_tokenize (s : Text) :
    (∀ clauses : Clauses, clauses.Divides (tokenize s) ↔ clauses = ofTokens (tokenize s)) ∧
    (∃ head parts, (ofTokens (tokenize s)).LaidOut (places s) head parts ∧
      ∀ part ∈ head :: parts.map Prod.snd,
        (part = [] → stretch (part.map Prod.fst) = []) ∧
        (part ≠ [] → ∃ first ∈ part.head?, ∃ last ∈ part.getLast?,
          first.2.start ≤ last.2.stop ∧ last.2.stop ≤ utf8Size s ∧
          (stretch (part.map Prod.fst)).IsSlice ⟨first.2.start, last.2.stop⟩ s)) ∧
    (trim s = s → s ≠ [] → (ofTokens (tokenize s)).head ≠ [] ∧
      stretch (ofTokens (tokenize s)).head <+: s) := by
  refine ⟨fun _ => divides_iff, ?_, fun hs hne => ⟨head_ne_nil hs hne, ?_⟩⟩
  · have hplaces : (places s).map Prod.fst = (ofTokens (tokenize s)).toTokens := by
      rw [map_fst_places, toTokens_ofTokens]
    obtain ⟨head, parts, hlaid⟩ := exists_laidOut hplaces
    refine ⟨head, parts, hlaid, fun part hpart => ⟨?_, fun hne => ?_⟩⟩
    · rintro rfl
      rfl
    · obtain ⟨first, hfirst, last, hlast, hslice⟩ :=
        isSlice_of_isInfix_places hne (hlaid.isInfix part hpart)
      exact ⟨first, hfirst, last, hlast, hslice.bounds.1, hslice.bounds.2, hslice⟩
  · have hprefix := isPrefix_stretch (isPrefix_head (tokenize s))
    rwa [hs] at hprefix

/-- A keyword directly behind another, and one at the end: nothing stands in their clauses. -/
theorem laidOut_of_empty_clauses :
    ofTokens (tokenize "é FROM\tON eth >>".toList) =
        ⟨[⟨.word, [], "é".toList⟩],
          [⟨.entity, ⟨.keyword .entity, " ".toList, "FROM".toList⟩, []⟩,
            ⟨.chains, ⟨.keyword .chains, "\t".toList, "ON".toList⟩,
              [⟨.word, " ".toList, "eth".toList⟩]⟩,
            ⟨.dump, ⟨.keyword .dump, " ".toList, ">>".toList⟩, []⟩]⟩ ∧
      trim "é FROM\tON eth >>".toList = "é FROM\tON eth >>".toList ∧
      stretch (ofTokens (tokenize "é FROM\tON eth >>".toList)).head <+:
        "é FROM\tON eth >>".toList := by
  have htrim : trim "é FROM\tON eth >>".toList = "é FROM\tON eth >>".toList := by decide
  refine ⟨Eq.symm (((laidOut_tokenize _).1 _).mp ?_), htrim,
    ((laidOut_tokenize "é FROM\tON eth >>".toList).2.2 htrim (by decide)).2⟩
  exact ⟨by decide, by decide, by decide, by decide⟩

end Clauses

end ChainQuery
