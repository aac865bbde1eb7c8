import ChainQuery.Proofs.Query.Continuation
import ChainQuery.Proofs.Query.Passages

/-!
# Lists that grow at their end

The three lists of a query – fields, filters and chains – are cut at commas, though each in its own
way: fields only behind `GET`, filters only outside parentheses, and filters and chains only in the
first clause of their kind. What they have in common is how they **grow**
(`ChainQuery.Grows`). Behind a space, whatever is typed leaves the items that are already divided
from the last one as they are, and it makes at most one item, unless there is a comma in it.

This is shown for texts first, then for the tokens of one clause, and at last for the tokens of a
whole query, of which a clause that has been begun is the end or is over.
-/

namespace ChainQuery

open Text Token

/-! ### Growing -/

/-- **A list that grows at its end**: its first items do not depend on what is put there, and what
is put there goes to one item at most, unless a comma is in it. -/
def Grows {α β : Type} (comma : α → Prop) (list : α → List β) : Prop :=
  ∃ earlier, ∀ a, ∃ later, list a = earlier ++ later ∧ (¬comma a → later.length ≤ 1)

namespace Grows

variable {α β γ : Type} {comma : α → Prop} {list : α → List β}

theorem map (h : Grows comma list) (f : β → γ) : Grows comma fun a => (list a).map f := by
  obtain ⟨earlier, h⟩ := h
  refine ⟨earlier.map f, fun a => ?_⟩
  obtain ⟨later, hlist, hone⟩ := h a
  refine ⟨later.map f, (congrArg (List.map f) hlist).trans List.map_append, fun ha => ?_⟩
  rw [List.length_map]
  exact hone ha

theorem comp {comma' : γ → Prop} (h : Grows comma list) {g : γ → α}
    (hg : ∀ c, comma (g c) → comma' c) : Grows comma' fun c => list (g c) := by
  obtain ⟨earlier, h⟩ := h
  refine ⟨earlier, fun c => ?_⟩
  obtain ⟨later, hlist, hone⟩ := h (g c)
  exact ⟨later, hlist, fun hc => hone fun hcon => hc (hg c hcon)⟩

/-- A list that has no second item without a comma grows. -/
theorem of_length_le_one (h : ∀ a, ¬comma a → (list a).length ≤ 1) : Grows comma list :=
  ⟨[], fun a => ⟨list a, rfl, h a⟩⟩

end Grows

/-! ### Lists in a text -/

namespace Text

theorem length_items_le_one {s : Text} (h : ',' ∉ s) : (items s).length ≤ 1 := by
  rw [items_of_not_mem h]
  split <;> simp

/-- **Items grow.** -/
theorem grows_items (s : Text) : Grows (',' ∈ ·) fun w => items (s ++ w) := by
  obtain ⟨v, hv, rfl | ⟨u, rfl⟩⟩ := exists_isAfterLast ',' s
  · refine Grows.of_length_le_one fun w hw => length_items_le_one ?_
    simp [hv, hw]
  · have hsplit (w : Text) : items ((u ++ ',' :: v) ++ w) = items u ++ items (v ++ w) := by
      rw [List.append_assoc, List.cons_append, items_append_comma]
    refine ⟨items u, fun w => ⟨items (v ++ w), hsplit w, fun hw => length_items_le_one ?_⟩⟩
    simp [hv, hw]

end Text

namespace Query

theorem getD_readFields_append (list : Text) :
    (readFields (opening ++ list)).getD [] = items list := by
  rw [readFields_opening_append, Option.getD_some]

/-- What does not begin with the opening holds no fields. -/
theorem getD_readFields_of_not_opening {s : Text} (h : ¬opening <+: s) :
    (readFields s).getD [] = [] := by
  cases hdrop : dropOpening? opening s with
  | none => rw [readFields, hdrop, Option.map_none, Option.getD_none]
  | some list =>
    rw [eq_append_of_dropOpening? hdrop] at h
    exact absurd (List.prefix_append opening list) h

/-- **Fields grow.** -/
theorem grows_fields (s : Text) : Grows (',' ∈ ·) fun w => (readFields (s ++ w)).getD [] := by
  by_cases hs : opening <+: s
  · obtain ⟨list, rfl⟩ := hs
    simp only [List.append_assoc, getD_readFields_append]
    exact grows_items list
  · -- the list begins in what is put behind the text
    refine Grows.of_length_le_one fun w hw => ?_
    by_cases hall : opening <+: s ++ w
    · obtain ⟨list, hlist⟩ := hall
      have hmem : ',' ∉ list := by
        obtain ⟨a, ha, -⟩ | ⟨a, -, ha⟩ := List.append_eq_append_iff.mp hlist
        · exact absurd ⟨a, ha.symm⟩ hs
        · intro hcomma
          exact hw (by rw [ha]; exact List.mem_append_right a hcomma)
      rw [← hlist, getD_readFields_append]
      exact length_items_le_one hmem
    · rw [getD_readFields_of_not_opening hall]
      simp

end Query

/-! ### Lists in a clause -/

namespace Token

/-- **There is a comma among some tokens**, as one of them or in one of them. -/
def HasComma (tokens : List Token) : Prop := ∃ t ∈ tokens, t.kind = .comma ∨ ',' ∈ t.gap ++ t.text

theorem HasComma.mono {tokens all : List Token} (h : HasComma tokens) (hmem : tokens ⊆ all) :
    HasComma all := by
  obtain ⟨t, ht, hcomma⟩ := h
  exact ⟨t, hmem ht, hcomma⟩

theorem hasComma_of_mem_spelling {tokens : List Token} (h : ',' ∈ spelling tokens) :
    HasComma tokens := by
  obtain ⟨t, ht, hcomma⟩ := List.mem_flatMap.mp h
  exact ⟨t, ht, Or.inr hcomma⟩

theorem stretch_append {before : List Token} (h : before ≠ []) (more : List Token) :
    stretch (before ++ more) = stretch before ++ spelling more := by
  obtain ⟨t, rest, rfl⟩ := List.exists_cons_of_ne_nil h
  simp [stretch, spelling]

/-- What grows with a text grows with the tokens of a clause. -/
theorem grows_stretch {β : Type} (list : Text → List β)
    (h : ∀ s : Text, Grows (',' ∈ ·) fun w => list (s ++ w)) (before : List Token) :
    Grows HasComma fun more => list (stretch (before ++ more)) := by
  by_cases hne : before = []
  · subst hne
    refine (h []).comp (g := stretch) fun more hcomma => ?_
    exact hasComma_of_mem_spelling ((isInfix_stretch List.infix_rfl).subset hcomma)
  · simp only [stretch_append hne]
    exact (h (stretch before)).comp fun more => hasComma_of_mem_spelling

/-- What follows some tokens goes to their last group, and begins new ones behind it. -/
theorem exists_groupsFrom_append (before : List Token) (depth : Nat) :
    (∀ more, groupsFrom depth (before ++ more) =
      (before ++ (groupsFrom (depthFrom depth before) more).1,
        (groupsFrom (depthFrom depth before) more).2)) ∨
    ∃ first earlier last, ∀ more, groupsFrom depth (before ++ more) =
      (first, earlier ++ (last ++ (groupsFrom (depthFrom depth before) more).1) ::
        (groupsFrom (depthFrom depth before) more).2) := by
  induction before generalizing depth with
  | nil => exact Or.inl fun more => rfl
  | cons t before ih =>
    have hdepth : depthFrom depth (t :: before) = depthFrom (t.depthAfter depth) before := rfl
    rw [hdepth]
    have hstep (more : List Token) := groupsFrom.eq_2 depth t (before ++ more)
    by_cases hcomma : t.kind = .comma ∧ depth = 0
    · refine Or.inr ?_
      rcases ih (t.depthAfter depth) with h | ⟨first, earlier, last, h⟩
      · exact ⟨[], [], before, fun more => by rw [List.cons_append, hstep, if_pos hcomma, h]; rfl⟩
      · exact ⟨[], first :: earlier, last, fun more => by
          rw [List.cons_append, hstep, if_pos hcomma, h]; rfl⟩
    · rcases ih (t.depthAfter depth) with h | ⟨first, earlier, last, h⟩
      · exact Or.inl fun more => by rw [List.cons_append, hstep, if_neg hcomma, h]; rfl
      · exact Or.inr ⟨t :: first, earlier, last, fun more => by
          rw [List.cons_append, hstep, if_neg hcomma, h]⟩

theorem groupsFrom_of_not_hasComma {more : List Token} (h : ¬HasComma more) (depth : Nat) :
    groupsFrom depth more = (more, []) := by
  refine groupsFrom_of_sheltered ?_
  rintro u t v rfl ht
  exact absurd ⟨t, by simp, Or.inl ht⟩ h

/-- **Groups grow.** -/
theorem grows_groups (before : List Token) :
    Grows HasComma fun more => groups (before ++ more) := by
  have hone : ∀ group : List Token, ([group].filter fun g => !g.isEmpty).length ≤ 1 :=
    fun group => List.length_filter_le _ _
  rcases exists_groupsFrom_append before 0 with h | ⟨first, earlier, last, h⟩
  · refine Grows.of_length_le_one fun more hmore => ?_
    rw [groups, h, groupsFrom_of_not_hasComma hmore]
    exact hone _
  · refine ⟨(first :: earlier).filter fun g => !g.isEmpty, fun more =>
      ⟨((last ++ (groupsFrom (depthFrom 0 before) more).1) ::
        (groupsFrom (depthFrom 0 before) more).2).filter fun g => !g.isEmpty, ?_, fun hmore => ?_⟩⟩
    · dsimp only
      rw [groups, h, ← List.filter_append]
      rfl
    · rw [groupsFrom_of_not_hasComma hmore]
      exact hone _

end Token

namespace Clauses

/-! ### Lists in a query -/

/-- What follows some tokens goes to the head, or nothing of it does. -/
theorem exists_head_append (before : List Token) : ∃ body, ∀ more, ∃ later,
    (ofTokens (before ++ more)).head = body ++ later ∧ later ⊆ more := by
  induction before with
  | nil => exact ⟨[], fun more => ⟨_, rfl, (isPrefix_head more).subset⟩⟩
  | cons t before ih =>
    cases ht : t.keyword? with
    | some k =>
      exact ⟨[], fun more => ⟨[], by rw [List.cons_append, ofTokens_cons_of_some ht]; rfl, by simp⟩⟩
    | none =>
      obtain ⟨body, h⟩ := ih
      refine ⟨t :: body, fun more => ?_⟩
      obtain ⟨later, hhead, hmem⟩ := h more
      exact ⟨later, by rw [List.cons_append, ofTokens_cons_of_none ht, hhead]; rfl, hmem⟩

theorem getD_first?_subset (k : Keyword) (tokens : List Token) :
    ((ofTokens tokens).first? k).getD [] ⊆ tokens := by
  cases hfirst : (ofTokens tokens).first? k with
  | none => exact List.nil_subset tokens
  | some clause => exact (isInfix_first? hfirst).subset

/-- What follows some tokens goes to the first clause of a kind, or some of it does, or nothing. -/
theorem exists_first?_append (k : Keyword) (before : List Token) : ∃ body, ∀ more, ∃ later,
    ((ofTokens (before ++ more)).first? k).getD [] = body ++ later ∧ later ⊆ more := by
  induction before with
  | nil => exact ⟨[], fun more => ⟨_, rfl, getD_first?_subset k more⟩⟩
  | cons t before ih =>
    cases ht : t.keyword? with
    | none =>
      have hskip (more : List Token) : (ofTokens (t :: before ++ more)).first? k =
          (ofTokens (before ++ more)).first? k := by
        rw [List.cons_append, ofTokens_cons_of_none ht, first?, first?]
      simpa only [hskip] using ih
    | some l =>
      by_cases hl : l = k
      · obtain ⟨body, h⟩ := exists_head_append before
        refine ⟨body, fun more => ?_⟩
        obtain ⟨later, hhead, hmem⟩ := h more
        refine ⟨later, ?_, hmem⟩
        rw [List.cons_append, ofTokens_cons_of_some ht, first?,
          List.find?_cons_of_pos (by simpa using hl)]
        exact hhead
      · have hskip (more : List Token) : (ofTokens (t :: before ++ more)).first? k =
            (ofTokens (before ++ more)).first? k := by
          rw [List.cons_append, ofTokens_cons_of_some ht, first?,
            List.find?_cons_of_neg (by simpa using hl), first?]
        simpa only [hskip] using ih

/-- What grows with the tokens of a clause grows with the tokens of the query. -/
theorem grows_clause {β : Type} (list : List Token → List β) {clause : List Token → List Token}
    (hclause : ∃ body, ∀ more, ∃ later, clause more = body ++ later ∧ later ⊆ more)
    (h : ∀ body : List Token, Grows HasComma fun later => list (body ++ later)) :
    Grows HasComma fun more => list (clause more) := by
  obtain ⟨body, hbody⟩ := hclause
  choose later hlater hmem using hbody
  simp only [hlater]
  exact (h body).comp fun more hcomma => hcomma.mono (hmem more)

end Clauses

namespace Query

theorem getD_readFilters (clause : List Token) :
    (readFilters clause).getD [] = (groups clause).map Filter.ofTokens := by
  rw [readFilters]
  cases (groups clause).map Filter.ofTokens <;> rfl

theorem getD_readChains (clause : Text) :
    (readChains clause).getD [] = (items clause).map lower := by
  rw [readChains]
  cases (items clause).map lower <;> rfl

/-- The fields, from the tokens of the head. -/
theorem fieldList_ofClauses (clauses : Clauses) :
    (ofClauses clauses).fieldList = (readFields (stretch clauses.head)).getD [] := rfl

/-- The filters, from the tokens of their clause. -/
theorem filterList_ofClauses (clauses : Clauses) : (ofClauses clauses).filterList =
    (groups ((clauses.first? .filters).getD [])).map Filter.ofTokens := by
  rw [← getD_readFilters]
  change ((clauses.first? .filters).bind readFilters).getD [] = _
  cases clauses.first? .filters <;> rfl

/-- The chains, from the tokens of their clause. -/
theorem chainList_ofClauses (clauses : Clauses) : (ofClauses clauses).chainList =
    (items (stretch ((clauses.first? .chains).getD []))).map lower := by
  rw [← getD_readChains]
  change ((clauses.first? .chains).bind fun c => readChains (stretch c)).getD [] = _
  cases clauses.first? .chains <;> rfl

end Query

namespace Token

theorem isCut_pad {gap : Text} (hgap : Blank gap) {tokens : List Token}
    (h : ∀ t ∈ tokens, t.IsCut) : ∀ t ∈ pad gap tokens, t.IsCut := by
  cases tokens with
  | nil => exact h
  | cons u rest =>
    intro t ht
    rcases List.mem_cons.mp ht with rfl | ht
    · have hu := h u List.mem_cons_self
      exact ⟨hu.kind, hu.single, hu.ne_nil, blank_append.mpr ⟨hgap, hu.gap⟩⟩
    · exact h t (List.mem_cons_of_mem u ht)

theorem mem_or_mem_of_mem_spelling_pad {gap : Text} {tokens : List Token} {c : Char}
    (h : c ∈ spelling (pad gap tokens)) : c ∈ gap ∨ c ∈ spelling tokens := by
  cases tokens with
  | nil => exact Or.inr h
  | cons u rest => simpa [or_assoc] using h

/-- A comma among the tokens of a text is one of the text. -/
theorem mem_of_hasComma {w gap : Text} (hgap : Blank gap)
    (h : HasComma (markKeywords (pad gap (lexemes w)))) : ',' ∈ w := by
  have hmem (hspell : ',' ∈ spelling (markKeywords (pad gap (lexemes w)))) : ',' ∈ w := by
    rw [spelling_markKeywords] at hspell
    rcases mem_or_mem_of_mem_spelling_pad hspell with hcomma | hcomma
    · exact absurd (hgap ',' hcomma) (by decide)
    · rw [spelling_lexemes] at hcomma
      exact (isInfix_trimEnd w).subset hcomma
  obtain ⟨t, ht, hkind | hcomma⟩ := h
  · -- a token that is a comma is spelled like one
    obtain ⟨u, hpad, rfl | ⟨k, rfl⟩⟩ := mem_of_mem_markKeywords ht
    · have hcut := isCut_pad hgap isCut_of_mem_lexemes _ hpad
      obtain ⟨c, hc, hof⟩ := hcut.text_eq (by rw [hkind]; rfl)
      rw [hkind] at hof
      refine hmem (List.mem_flatMap.mpr ⟨_, ht, ?_⟩)
      simp [hc, Kind.eq_of_comma hof]
    · cases hkind
  · exact hmem (List.mem_flatMap.mpr ⟨t, ht, hcomma⟩)

/-- **Behind a space the tokens of a text are those there were and some more**, and a comma among
these is one that has been put there. -/
theorem exists_more {kept : Text} (h : kept = [] ∨ blankEnd kept ≠ []) : ∃ before, ∀ w, ∃ more,
    tokenize (trim (kept ++ w)) = before ++ more ∧ (HasComma more → ',' ∈ w) := by
  by_cases hblank : Blank kept
  · refine ⟨[], fun w => ⟨tokenize (trim w), ?_, fun hcomma => ?_⟩⟩
    · rw [trim_blank_append hblank, List.nil_append]
    · rw [tokenize, ← pad_nil_gap (lexemes (trim w))] at hcomma
      exact (isInfix_trim w).subset (mem_of_hasComma blank_nil hcomma)
  · have hend : blankEnd kept ≠ [] := h.resolve_left fun hnil => hblank (hnil ▸ blank_nil)
    exact ⟨tokenize (trim kept), fun w => ⟨_, tokenize_trim_append hblank hend w,
      mem_of_hasComma (blank_blankEnd kept)⟩⟩

end Token

namespace Query

variable {kept : Text}

/-- What grows with the tokens of a query grows with what is put behind a space. -/
theorem grows_ofText {β : Type} (list : List Token → List β)
    (hkept : kept = [] ∨ blankEnd kept ≠ [])
    (h : ∀ before : List Token, Grows HasComma fun more => list (before ++ more)) :
    Grows (',' ∈ ·) fun w => list (tokenize (trim (kept ++ w))) := by
  obtain ⟨before, hbefore⟩ := exists_more hkept
  choose more hmore hcomma using hbefore
  simp only [hmore]
  exact (h before).comp hcomma

/-- **The fields grow behind a space.** -/
theorem grows_fieldList (hkept : kept = [] ∨ blankEnd kept ≠ []) :
    Grows (',' ∈ ·) fun w => (ofText (kept ++ w)).fieldList := by
  refine grows_ofText (fun tokens => (ofClauses (Clauses.ofTokens tokens)).fieldList) hkept
    fun before => ?_
  simp only [fieldList_ofClauses]
  exact Clauses.grows_clause (fun head => (readFields (stretch head)).getD [])
    (Clauses.exists_head_append before)
    (grows_stretch (fun head => (readFields head).getD []) grows_fields)

/-- **The filters grow behind a space.** -/
theorem grows_filterList (hkept : kept = [] ∨ blankEnd kept ≠ []) :
    Grows (',' ∈ ·) fun w => (ofText (kept ++ w)).filterList := by
  refine grows_ofText (fun tokens => (ofClauses (Clauses.ofTokens tokens)).filterList) hkept
    fun before => ?_
  simp only [filterList_ofClauses]
  exact Clauses.grows_clause (fun clause => (groups clause).map Filter.ofTokens)
    (Clauses.exists_first?_append .filters before) fun body => (grows_groups body).map _

/-- **The chains grow behind a space.** -/
theorem grows_chainList (hkept : kept = [] ∨ blankEnd kept ≠ []) :
    Grows (',' ∈ ·) fun w => (ofText (kept ++ w)).chainList := by
  refine grows_ofText (fun tokens => (ofClauses (Clauses.ofTokens tokens)).chainList) hkept
    fun before => ?_
  simp only [chainList_ofClauses]
  exact Clauses.grows_clause (fun clause => (items (stretch clause)).map lower)
    (Clauses.exists_first?_append .chains before)
    (grows_stretch (fun clause => (items clause).map lower) fun s => (grows_items s).map lower)

end Query

end ChainQuery
