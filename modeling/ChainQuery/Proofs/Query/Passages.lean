import ChainQuery.Proofs.Query.Reading
import ChainQuery.Proofs.Text.Lowercase

/-!
# What is read stands in the text

Reading takes a text to pieces: it trims, cuts at commas and at white space, drops an opening and
groups tokens. All of these leave a **passage** of what they are given, one that stands in it from
its first character to its last, and a passage of a passage is a passage. Nowhere are two pieces
put together that were apart. And there is no white space around what is left, be it a trimmed text,
an item of a list or a stretch of tokens: all of these are **excerpts**
(`ChainQuery.Text.Excerpt`).

So what a query says of its fields and filters stands in the text as it was typed
(`ChainQuery.Query.excerpt_of_mem_fieldList`, `ChainQuery.Query.excerpt_of_mem_filterList`). What it
says of its entity and its chains stands there up to capitals, as long as the entity has been typed
and is not merely implied by the fields (`ChainQuery.Query.excerpt_of_entity`,
`ChainQuery.Query.excerpt_of_mem_chainList`).
-/

namespace ChainQuery

namespace Text

/-! ### Passages of a text -/

/-- **A passage**: some of the characters of a text that stand next to each other, and at least
one of them. -/
structure Passage (w s : Text) : Prop where
  /-- Some character is there. -/
  ne_nil : w ≠ []
  /-- The characters stand next to each other in the text. -/
  isInfix : w <:+: s

/-- **An excerpt**: a passage without white space around it. -/
structure Excerpt (w s : Text) : Prop where
  /-- Something stands there, with no white space around it. -/
  solid : Solid w
  /-- The characters stand next to each other in the text. -/
  isInfix : w <:+: s

theorem Excerpt.passage {w s : Text} (h : Excerpt w s) : Passage w s := ⟨h.solid.ne_nil, h.isInfix⟩

theorem Excerpt.of_isInfix {w s t : Text} (h : Excerpt w s) (hst : s <:+: t) : Excerpt w t :=
  ⟨h.solid, h.isInfix.trans hst⟩

theorem isInfix_trimEnd (s : Text) : trimEnd s <:+: s :=
  List.IsPrefix.isInfix ⟨blankEnd s, trimEnd_append_blankEnd s⟩

theorem isInfix_trim (s : Text) : trim s <:+: s := by
  obtain ⟨v, w, -, -, hs⟩ := exists_eq_blank_trim_blank s
  exact ⟨v, w, hs.symm⟩

/-- Trimming leaves an excerpt, or nothing. -/
theorem excerpt_of_nonempty?_trim {w s : Text} (h : nonempty? (trim s) = some w) : Excerpt w s := by
  rw [nonempty?] at h
  obtain ⟨hne, hw⟩ := Option.ite_none_left_eq_some.mp h
  have hblank : ¬Blank s := fun hblank => hne (List.isEmpty_iff.mpr (trim_eq_nil_iff.mpr hblank))
  rw [← Option.some.inj hw]
  exact ⟨solid_trim hblank, isInfix_trim s⟩

theorem eq_append_of_dropOpening? {opening s rest : Text} (h : dropOpening? opening s = some rest) :
    s = opening ++ rest := by
  induction opening generalizing s with
  | nil => exact Option.some.inj h
  | cons c opening ih =>
    cases s with
    | nil => cases h
    | cons d s =>
      rw [dropOpening?] at h
      obtain ⟨rfl, hrest⟩ := Option.ite_none_right_eq_some.mp h
      rw [ih hrest]
      rfl

theorem infix_of_mem_pieces {sep : Char} {piece s : Text} (h : piece ∈ pieces sep s) :
    piece <:+: s := by
  induction s using induction_on_separator sep with
  | whole s hs =>
    rw [pieces_of_not_mem hs, List.mem_singleton] at h
    exact h ▸ List.infix_rfl
  | more s t hs ih =>
    rw [pieces_append_sep, pieces_of_not_mem hs, List.mem_append, List.mem_singleton] at h
    rcases h with rfl | h
    · exact (List.prefix_append piece _).isInfix
    · exact (ih h).trans ⟨s ++ [sep], [], by simp⟩

theorem notMem_of_mem_pieces {sep : Char} {piece s : Text} (h : piece ∈ pieces sep s) :
    sep ∉ piece := by
  induction s using induction_on_separator sep with
  | whole s hs =>
    rw [pieces_of_not_mem hs, List.mem_singleton] at h
    exact h ▸ hs
  | more s t hs ih =>
    rw [pieces_append_sep, pieces_of_not_mem hs, List.mem_append, List.mem_singleton] at h
    rcases h with rfl | h
    · exact hs
    · exact ih h

/-- **An item of a list is an excerpt of it, without commas.** -/
theorem excerpt_of_mem_items {item s : Text} (h : item ∈ items s) :
    Excerpt item s ∧ ',' ∉ item := by
  rw [items, List.mem_filter, List.mem_map] at h
  obtain ⟨⟨piece, hpiece, rfl⟩, hne⟩ := h
  have hblank : ¬Blank piece := by
    rw [← trim_eq_nil_iff]
    simpa using hne
  have htrim : trim piece <:+: piece := isInfix_trim piece
  refine ⟨⟨solid_trim hblank, htrim.trans (infix_of_mem_pieces hpiece)⟩, fun hcomma => ?_⟩
  exact notMem_of_mem_pieces hpiece (htrim.subset hcomma)

end Text

open Text

namespace Token

/-! ### Passages of a text that was cut -/

/-- Some neighbouring tokens stretch over a passage of what all were cut from. -/
theorem isInfix_stretch {tokens all : List Token} (h : tokens <:+: all) :
    stretch tokens <:+: spelling all := by
  obtain ⟨before, after, rfl⟩ := h
  cases tokens with
  | nil => exact List.nil_infix
  | cons t rest =>
    refine ⟨spelling before ++ t.gap, spelling after, ?_⟩
    simp [stretch, spelling]

/-- What stands before a token is white space. -/
theorem blank_gap_of_mem_tokenize {s : Text} {t : Token} (ht : t ∈ tokenize s) : Blank t.gap := by
  obtain ⟨u, hu, rfl | ⟨k, rfl⟩⟩ := mem_of_mem_markKeywords ht
  · exact (isCut_of_mem_lexemes _ hu).gap
  · exact (isCut_of_mem_lexemes u hu).gap

/-- No white space stands within a token. -/
theorem solid_text_of_mem_tokenize {s : Text} {t : Token} (ht : t ∈ tokenize s) : Solid t.text := by
  obtain ⟨u, hu, htext⟩ : ∃ u ∈ lexemes s, t.text = u.text := by
    obtain ⟨u, hu, rfl | ⟨k, rfl⟩⟩ := mem_of_mem_markKeywords ht
    · exact ⟨_, hu, rfl⟩
    · exact ⟨u, hu, rfl⟩
  have hcut : u.IsCut := isCut_of_mem_lexemes u hu
  rw [htext]
  refine solid_of_no_blank hcut.ne_nil fun c hc => ?_
  rw [← Bool.not_eq_true, ← Kind.ofChar?_eq_none_iff, hcut.kind c hc]
  simp

/-- Tokens within which no white space stands stretch over a text with none around it. -/
theorem solid_stretch {tokens : List Token} (hne : tokens ≠ []) (h : ∀ t ∈ tokens, Solid t.text) :
    Solid (stretch tokens) := by
  obtain ⟨t, rest, rfl⟩ := List.exists_cons_of_ne_nil hne
  have ht : Solid t.text := h t List.mem_cons_self
  -- the last token is the one that counts, and the first is it only if there is no other
  rcases List.eq_nil_or_concat' rest with rfl | ⟨between, u, rfl⟩
  · simpa [stretch] using ht
  · have hstretch : stretch (t :: (between ++ [u])) =
        t.text ++ ((spelling between ++ u.gap) ++ u.text) := by
      simp [stretch, spelling]
    rw [hstretch]
    exact ht.append _ (h u (by simp))

/-- From the first token to the last a text is what trimming leaves of it. -/
theorem stretch_tokenize (s : Text) : stretch (tokenize s) = trim s := by
  rw [← stretch_lexemes, tokenize]
  cases lexemes s with
  | nil => rfl
  | cons t rest =>
    have htext : t.text ++ spelling (markKeywords rest) = t.text ++ spelling rest := by
      rw [spelling_markKeywords]
    cases h : t.opener? rest with
    | none => rwa [markKeywords_cons_of_none h]
    | some k => rwa [markKeywords_cons_of_some h]

theorem isInfix_stretch_of_tokenize {tokens : List Token} {raw : Text}
    (h : tokens <:+: tokenize (trim raw)) : stretch tokens <:+: raw := by
  have hstretch := isInfix_stretch h
  rw [spelling_tokenize] at hstretch
  exact (hstretch.trans (isInfix_trimEnd (trim raw))).trans (isInfix_trim raw)

/-- **Neighbouring tokens of a text**, if there are any, stretch over an excerpt of it. -/
theorem excerpt_stretch {tokens : List Token} {raw : Text} (hne : tokens ≠ [])
    (h : tokens <:+: tokenize (trim raw)) : Excerpt (stretch tokens) raw where
  solid := solid_stretch hne fun _ ht => solid_text_of_mem_tokenize (h.subset ht)
  isInfix := isInfix_stretch_of_tokenize h

/-- A stretch of neighbouring tokens holds excerpts of the text alone. -/
theorem excerpt_of_stretch {tokens : List Token} {raw w : Text}
    (h : tokens <:+: tokenize (trim raw)) (hw : Excerpt w (stretch tokens)) : Excerpt w raw :=
  hw.of_isInfix (isInfix_stretch_of_tokenize h)

/-- The first tokens of a text stretch over its beginning. -/
theorem isPrefix_stretch {tokens : List Token} {s : Text} (h : tokens <+: tokenize s) :
    stretch tokens <+: trim s := by
  obtain ⟨more, hall⟩ := h
  cases tokens with
  | nil => exact List.nil_prefix
  | cons t rest =>
    refine ⟨spelling more, ?_⟩
    have hspelling : stretch (t :: rest) ++ spelling more = stretch (t :: rest ++ more) := by
      simp [stretch, spelling]
    rw [hspelling, hall, stretch_tokenize]

/-- The groups of some tokens are neighbours among them: the one being read stands first, and
the others stand somewhere. -/
theorem isInfix_groupsFrom (depth : Nat) (tokens : List Token) :
    (groupsFrom depth tokens).1 <+: tokens ∧
      ∀ group ∈ (groupsFrom depth tokens).2, group <:+: tokens := by
  induction tokens generalizing depth with
  | nil => simp [groupsFrom]
  | cons t later ih =>
    obtain ⟨hfirst, hothers⟩ := ih (t.depthAfter depth)
    rw [groupsFrom]
    split
    · refine ⟨List.nil_prefix, fun group hgroup => List.infix_cons ?_⟩
      rcases List.mem_cons.mp hgroup with rfl | hgroup
      · exact hfirst.isInfix
      · exact hothers group hgroup
    · exact ⟨(List.prefix_cons_inj t).mpr hfirst, fun group hgroup =>
        List.infix_cons (hothers group hgroup)⟩

theorem infix_of_mem_groups {group tokens : List Token} (h : group ∈ groups tokens) :
    group ≠ [] ∧ group <:+: tokens := by
  rw [groups, List.mem_filter] at h
  obtain ⟨hmem, hne⟩ := h
  refine ⟨by simpa using hne, ?_⟩
  rcases List.mem_cons.mp hmem with rfl | hmem
  · exact (isInfix_groupsFrom 0 tokens).1.isInfix
  · exact (isInfix_groupsFrom 0 tokens).2 group hmem

end Token

namespace Clauses

/-! ### Passages in clauses -/

theorem isPrefix_head (tokens : List Token) : (ofTokens tokens).head <+: tokens :=
  ⟨_, toTokens_ofTokens tokens⟩

theorem isInfix_first? {tokens clause : List Token} {k : Keyword}
    (h : (ofTokens tokens).first? k = some clause) : clause <:+: tokens := by
  obtain ⟨found, hfind, rfl⟩ := Option.map_eq_some_iff.mp h
  have hmem := List.mem_of_find?_eq_some hfind
  -- the clause stands behind its keyword among all the clauses, and those behind the head
  have hclause : found.opener :: found.tokens <:+:
      (ofTokens tokens).rest.flatMap fun c => c.opener :: c.tokens := by
    rw [List.flatMap_def]
    exact List.infix_of_mem_flatten (List.mem_map.mpr ⟨found, hmem, rfl⟩)
  have hall : (ofTokens tokens).rest.flatMap (fun c => c.opener :: c.tokens) <:+ tokens :=
    ⟨(ofTokens tokens).head, toTokens_ofTokens tokens⟩
  exact ((List.suffix_cons found.opener found.tokens).isInfix.trans hclause).trans hall.isInfix

end Clauses

namespace Query

/-! ### Passages in a query -/

variable {raw : Text}

theorem exists_of_mem_getD_nil {α : Type} {o : Option (List α)} {x : α} (h : x ∈ o.getD []) :
    ∃ l, o = some l ∧ x ∈ l := by
  cases o with
  | none => cases h
  | some l => exact ⟨l, rfl, h⟩

/-- The name in front is a word in lower case, and what follows it is an excerpt. -/
theorem excerpt_of_readEntity {clause name : Text} {identifier : Option Text}
    (h : readEntity clause = some (name, identifier)) :
    (∃ w, Excerpt w clause ∧ (∀ c ∈ w, isBlank c = false) ∧ name = lower w) ∧
      ∀ w ∈ identifier, Excerpt w clause := by
  rw [readEntity.eq_def] at h
  obtain ⟨hne, hread⟩ := Option.ite_none_left_eq_some.mp h
  obtain ⟨rfl, rfl⟩ := Prod.mk.inj (Option.some.inj hread)
  have hword : ∀ c ∈ (cutAtBlank (trim clause)).1, isBlank c = false := fun c hc => by
    simpa using List.mem_takeWhile_imp hc
  refine ⟨⟨_, ⟨?_, ?_⟩, hword, rfl⟩, fun w hw => ?_⟩
  · exact solid_of_no_blank (fun hnil => hne (List.isEmpty_iff.mpr hnil)) hword
  · exact (List.takeWhile_prefix _).isInfix.trans (isInfix_trim clause)
  · refine ((excerpt_of_nonempty?_trim hw).of_isInfix ?_).of_isInfix (isInfix_trim clause)
    exact ((List.drop_suffix 1 _).trans (List.dropWhile_suffix _)).isInfix

theorem mem_of_readFilters {clause : List Token} {filters : List Filter} {f : Filter}
    (h : readFilters clause = some filters) (hf : f ∈ filters) :
    f ∈ (Token.groups clause).map Filter.ofTokens := by
  rw [readFilters] at h
  split at h
  · cases h
  · exact Option.some.inj h ▸ hf

theorem mem_of_readChains {clause name : Text} {chains : List Text}
    (h : readChains clause = some chains) (hname : name ∈ chains) :
    name ∈ (items clause).map lower := by
  rw [readChains] at h
  split at h
  · cases h
  · exact Option.some.inj h ▸ hname

/-- The head of a query that has fields: the opening, and the list of the fields. -/
theorem exists_list_of_fields {fields : List Text} (h : (ofText raw).fields = some fields) :
    ∃ list, Token.stretch (Clauses.ofText raw).head = opening ++ list ∧ fields = items list := by
  have hread : readFields (Token.stretch (Clauses.ofText raw).head) = some fields := h
  obtain ⟨list, hlist, -⟩ := Option.map_eq_some_iff.mp hread
  have hhead := eq_append_of_dropOpening? hlist
  rw [hhead, readFields_opening_append] at hread
  exact ⟨list, hhead, (Option.some.inj hread).symm⟩

/-- **What has fields begins with the opening**, but for white space. -/
theorem opening_isPrefix_trim (h : (ofText raw).fields.isSome) : opening <+: trim raw := by
  obtain ⟨fields, hfields⟩ := Option.isSome_iff_exists.mp h
  obtain ⟨list, hhead, -⟩ := exists_list_of_fields hfields
  have hfirst : Token.stretch (Clauses.ofText raw).head <+: trim (trim raw) :=
    Token.isPrefix_stretch (Clauses.isPrefix_head _)
  rw [hhead, trim_trim] at hfirst
  exact (List.prefix_append opening list).trans hfirst

theorem chains_ne_nil {chains : List Text} (h : (ofText raw).chains = some chains) :
    chains ≠ [] := by
  obtain ⟨clause, -, hread⟩ := Option.bind_eq_some_iff.mp h
  rw [readChains] at hread
  split at hread
  · cases hread
  · next hne => exact Option.some.inj hread ▸ hne

/-- **The fields of a query stand in its text**, between the commas. -/
theorem excerpt_of_mem_fieldList {field : Text} (h : field ∈ (ofText raw).fieldList) :
    Excerpt field raw ∧ ',' ∉ field := by
  obtain ⟨fields, hfields, hmem⟩ := exists_of_mem_getD_nil h
  obtain ⟨list, hhead, rfl⟩ := exists_list_of_fields hfields
  obtain ⟨hexcerpt, hcomma⟩ := excerpt_of_mem_items hmem
  have hlist : list <:+: Token.stretch (Clauses.ofText raw).head :=
    hhead ▸ (List.suffix_append opening list).isInfix
  exact ⟨Token.excerpt_of_stretch (Clauses.isPrefix_head _).isInfix (hexcerpt.of_isInfix hlist),
    hcomma⟩

/-- **The entity of a query stands in its text**, up to capitals, unless it is one that exists
and is implied by the fields. -/
theorem excerpt_of_entity {name : Text} (h : (ofText raw).entity = some name) :
    (∃ w, Excerpt w raw ∧ (∀ c ∈ w, isBlank c = false) ∧ name = lower w) ∨
      ∃ e : Entity, name = e.name := by
  rcases Option.or_eq_some_iff.mp h with htyped | ⟨-, himplied⟩
  · obtain ⟨⟨name', identifier⟩, hnamed, rfl⟩ := Option.map_eq_some_iff.mp htyped
    obtain ⟨clause, hclause, hread⟩ := Option.bind_eq_some_iff.mp hnamed
    obtain ⟨w, hw, hword, hname⟩ := (excerpt_of_readEntity hread).1
    exact Or.inl ⟨w, Token.excerpt_of_stretch (Clauses.isInfix_first? hclause) hw, hword, hname⟩
  · obtain ⟨e, -, hname⟩ := Option.map_eq_some_iff.mp himplied
    exact Or.inr ⟨e, hname.symm⟩

/-- A filter is read from some neighbouring tokens of a text. -/
theorem exists_group_of_mem_filterList {f : Filter} (h : f ∈ (ofText raw).filterList) :
    ∃ group, group ≠ [] ∧ group <:+: Token.tokenize (trim raw) ∧ f = Filter.ofTokens group := by
  obtain ⟨filters, hfilters, hmem⟩ := exists_of_mem_getD_nil h
  obtain ⟨clause, hclause, hread⟩ := Option.bind_eq_some_iff.mp hfilters
  obtain ⟨group, hgroup, rfl⟩ := List.mem_map.mp (mem_of_readFilters hread hmem)
  obtain ⟨hne, hamong⟩ := Token.infix_of_mem_groups hgroup
  exact ⟨group, hne, hamong.trans (Clauses.isInfix_first? hclause), rfl⟩

/-- **The filters of a query compare what stands in its text.** -/
theorem excerpt_of_mem_filterList {f : Filter} (h : f ∈ (ofText raw).filterList) :
    Excerpt f.field raw := by
  obtain ⟨group, hne, hamong, rfl⟩ := exists_group_of_mem_filterList h
  rcases Filter.ofTokens_cases group with ⟨t, u, value, op, rfl, ht, hu⟩ | hgroup
  · have hfield : Excerpt (Token.stretch [t]) raw :=
      Token.excerpt_stretch (by simp) (List.IsInfix.trans ⟨[], u :: value, rfl⟩ hamong)
    rw [Filter.ofTokens_of_operator ht hu]
    simpa [Token.stretch] using hfield
  · rw [hgroup]
    exact Token.excerpt_stretch hne hamong

/-- **The chains of a query stand in its text**, between the commas and up to capitals. -/
theorem excerpt_of_mem_chainList {name : Text} (h : name ∈ (ofText raw).chainList) :
    ∃ w, Excerpt w raw ∧ ',' ∉ w ∧ name = lower w := by
  obtain ⟨chains, hchains, hmem⟩ := exists_of_mem_getD_nil h
  obtain ⟨clause, hclause, hread⟩ := Option.bind_eq_some_iff.mp hchains
  obtain ⟨w, hw, hname⟩ := List.mem_map.mp (mem_of_readChains hread hmem)
  obtain ⟨hexcerpt, hcomma⟩ := excerpt_of_mem_items hw
  exact ⟨w, Token.excerpt_of_stretch (Clauses.isInfix_first? hclause) hexcerpt, hcomma, hname.symm⟩

end Query

end ChainQuery
