import ChainQuery.Proofs.Typing.Canonical
import ChainQuery.Proofs.Typing.Soundness

/-!
# What is read of a query that is being typed

A query is typed clause by clause. Of the clauses that stand already nothing matters but that the
query they make fits the entity and that no clause of a later kind is among them: then the text is
**ready** for the next clause (`ChainQuery.Typing.Ready`). This file follows a canonical query
through its clauses and says what is read when one of them is being typed, given only what is
read of the list in it.

| clause | what is read | when the query is sound |
|---|---|---|
| the head | `ChainQuery.Typing.saysFields_of_quiet` | the fields are coherent |
| `FROM` | `ChainQuery.Typing.ofText_source` | the entity is finished |
| `WHERE` | `ChainQuery.Typing.Ready.ofText_filters` | the filters are those of the entity |
| `ON` | `ChainQuery.Typing.Ready.ofText_chains` | the chains begin like chains |
-/

namespace ChainQuery

open Text Token Grammar

namespace Typing

/-! ### The head -/

/-- **A list without keywords is read as the fields of a query**, even if nothing stands in it. -/
theorem saysFields_of_quiet {list : Text} (h : Text.Quiet list) :
    SaysFields (items list) (Query.ofText (Query.opening ++ list)) := by
  by_cases hblank : Blank list
  · rw [Query.ofText_append_blank _ hblank, items_of_blank hblank]
    exact ⟨rfl, rfl, rfl, rfl, rfl⟩
  · rw [Query.ofText_opening h hblank]
    exact ⟨rfl, rfl, rfl, rfl, rfl⟩

theorem opening_isPrefix (s : Text) : Query.opening <+: Query.opening ++ s :=
  List.prefix_append Query.opening s

section Fields

variable {fields : List Text}

theorem items_closed_of_isTableWord (h : ∀ x ∈ fields, IsTableWord x) (s : Text) :
    items (closed fields ++ s) = fields ++ items s :=
  items_closed_append (fun x hx => ⟨(h x hx).solid, (h x hx).no_comma⟩) s

theorem quiet_closed_of_isTableWord (h : ∀ x ∈ fields, IsTableWord x) {s : Text}
    (hs : Text.Quiet s) : Text.Quiet (closed fields ++ s) :=
  quiet_closed_append (fun x hx => (h x hx).quiet) hs

theorem items_closed (h : ∀ x ∈ fields, IsTableWord x) : items (closed fields) = fields := by
  have hitems := items_closed_of_isTableWord h []
  rwa [items_nil, List.append_nil, List.append_nil] at hitems

theorem quiet_closed (h : ∀ x ∈ fields, IsTableWord x) : Text.Quiet (closed fields) := by
  have hquiet := quiet_closed_of_isTableWord h (quiet_of_blank blank_nil)
  rwa [List.append_nil] at hquiet

theorem items_joined (hne : fields ≠ []) (h : ∀ x ∈ fields, IsTableWord x) :
    items (joined fields) = fields := by
  obtain ⟨done, x, rfl, hjoined⟩ := exists_joined_eq hne
  rw [hjoined, items_closed_of_isTableWord fun y hy => h y (List.mem_append_left _ hy),
    (h x (by simp)).items]

theorem quiet_joined (hne : fields ≠ []) (h : ∀ x ∈ fields, IsTableWord x) :
    Text.Quiet (joined fields) := by
  obtain ⟨done, x, rfl, hjoined⟩ := exists_joined_eq hne
  rw [hjoined]
  exact quiet_closed_of_isTableWord (fun y hy => h y (List.mem_append_left _ hy))
    (h x (by simp)).quiet

end Fields

/-- **A whole head**: all that is asked for is written out. -/
structure Whole (e : Entity) (fields : List Text) (s : Text) : Prop where
  /-- The fields are fields of the entity. -/
  fit : IsFieldList e fields
  /-- The fields are written out. -/
  eq : s = Query.opening ++ joined fields

section Whole

variable {e : Entity} {fields : List Text} {s : Text}

theorem Whole.opens (h : Whole e fields s) : Query.opening <+: s := by
  rw [h.eq]
  exact opening_isPrefix _

theorem Whole.saysFields (h : Whole e fields s) : SaysFields fields (Query.ofText s) := by
  have hwords := h.fit.isTableWord
  have := saysFields_of_quiet (quiet_joined h.fit.ne_nil hwords)
  rwa [items_joined h.fit.ne_nil hwords, ← h.eq] at this

theorem Whole.coherent (h : Whole e fields s) : Coherent fields := by
  rcases h.fit with rfl | ⟨-, hmem⟩
  · exact coherent_wildcard
  · exact coherent_of_mem hmem

theorem Whole.sound (h : Whole e fields s) : Sound s := h.saysFields.sound h.opens h.coherent

theorem Whole.first?_eq_none (h : Whole e fields s) (k : Keyword) :
    (Clauses.ofText s).first? k = none := by
  rw [h.eq, Query.clauses_opening (quiet_joined h.fit.ne_nil h.fit.isTableWord)]
  rfl

end Whole

/-! ### The entity -/

theorem ascii_of_mem_name (e : Entity) : ∀ c ∈ e.name, c.toNat < 0x80 ∧ c.toLower = c := by
  cases e <;> decide

theorem ascii_of_mem_chain : ∀ x ∈ ChainQuery.chains, ∀ c ∈ x, c.toNat < 0x80 ∧ c.toLower = c := by
  decide

/-- A text in lower case is in lower case. -/
theorem lower_eq_self {s : Text} (h : ∀ c ∈ s, c.toNat < 0x80 ∧ c.toLower = c) : lower s = s := by
  rw [lower_of_ascii fun c hc => (h c hc).1]
  exact (List.map_congr_left fun c hc => (h c hc).2).trans (List.map_id s)

/-- **A head and the clause that names the entity**: a name, and what may follow behind white
space. -/
def withSource (head name later : Text) : Text :=
  head ++ [' '] ++ (Keyword.entity.text ++ (' ' :: (name ++ later)))

/-- What is read of a head and a name. -/
theorem ofText_source {e : Entity} {fields : List Text} {head name later : Text}
    (h : Whole e fields head) (hne : name ≠ []) (hname : ∀ c ∈ name, isBlank c = false)
    (hstart : ∀ c ∈ later.head?, isBlank c = true) (hquiet : Text.Quiet (name ++ later)) :
    Query.ofText (withSource head name later) =
      { Query.ofText head with
        entity := some (lower name)
        identifier := nonempty? (trim later)
        lastKeyword := some .entity } := by
  have hstem : Stem (head ++ [' ']) := stem_concat head
  have hblank : ¬Blank (head ++ [' ']) :=
    not_blank_of_opens (h.opens.trans (List.prefix_append head _))
  have hclauses : (Clauses.ofText (head ++ [' '])).first? .entity = none := by
    rw [Clauses.ofText_append_blank head blank_space, h.first?_eq_none]
  have hbody : Text.Quiet (' ' :: (name ++ later)) := hquiet.blank_append blank_space
  have hread := Query.withClause_entity (Query.ofText head) blank_space hne hname hstart
  rw [withSource, Query.ofText_append_clause hblank hstem.blankEnd (by simp)
    (by simp) hbody hclauses, Query.ofText_append_blank head blank_space]
  exact congrArg (fun q : Query => { q with lastKeyword := some .entity }) hread

/-! ### Texts that are ready for a clause -/

/-- **A text that is ready for later clauses**: the query fits the entity, and none of the later
clauses stands in the text already. -/
structure Ready (e : Entity) (later : List Keyword) (s : Text) : Prop where
  /-- The text ends in a space. -/
  stem : Stem s
  /-- The text begins as it must. -/
  opens : Query.opening <+: s
  /-- The query fits the entity. -/
  fits : Fits e (Query.ofText s)
  /-- None of the later clauses stands there. -/
  absent : ∀ k ∈ later, (Clauses.ofText s).first? k = none

/-- **The name of an entity, with a quiet text behind it, makes a text ready** for filters and
chains. -/
theorem ready_source {e : Entity} {fields : List Text} {head later : Text}
    (h : Whole e fields head) (hlater : Text.Quiet later) (hstem : Stem later)
    (hstart : ∀ c ∈ later.head?, isBlank c = true) :
    Ready e [.filters, .chains] (withSource head e.name later) := by
  have hword := isTableWord_name e
  have hseam : Apart e.name later := by
    cases later with
    | nil => exact apart_nil_right _
    | cons c later => exact apart_of_head (runsOn_of_blank_right (hstart c rfl))
  have hquiet : Text.Quiet (e.name ++ later) := hword.quiet.append hlater hseam
  have hread := ofText_source h hword.ne_nil hword.no_blank hstart hquiet
  rw [lower_eq_self (ascii_of_mem_name e)] at hread
  -- of the head only the fields are left, since the entity is named now
  have hhead := h.saysFields
  have hblank : ¬Blank (head ++ [' ']) :=
    not_blank_of_opens (h.opens.trans (List.prefix_append head _))
  refine ⟨?_, ?_, ?_, ?_⟩
  · obtain ⟨r, hr⟩ := hstem.exists_eq
    refine ⟨withSource head e.name r, ?_⟩
    rw [hr]
    simp [withSource]
  · rw [withSource, List.append_assoc]
    exact h.opens.trans (List.prefix_append head _)
  · rw [hread]
    refine ⟨rfl, fun x hx => ?_, fun f hf => ?_, fun x hx => ?_⟩
    · have hx : x ∈ (Query.ofText head).fieldList := hx
      rw [hhead.fieldList] at hx
      rcases h.fit with rfl | ⟨-, hmem⟩
      · exact Or.inl (List.mem_singleton.mp hx)
      · exact Or.inr (hmem x hx)
    · simp [Query.filterList, hhead.filters] at hf
    · simp [Query.chainList, hhead.chains] at hx
  · intro k hk
    have hbody : Text.Quiet (' ' :: (e.name ++ later)) := hquiet.blank_append blank_space
    have hk : k = .filters ∨ k = .chains := by simpa using hk
    rw [withSource, Clauses.first?_ofText_append_clause hblank (stem_concat head).blankEnd (by simp)
      (by simp) hbody, Clauses.ofText_append_blank head blank_space,
      h.first?_eq_none]
    rcases hk with rfl | rfl <;> rfl

namespace Ready

variable {e : Entity} {later : List Keyword} {s : Text}

theorem not_blank (h : Ready e later s) : ¬Blank s := not_blank_of_opens h.opens

theorem sound (h : Ready e later s) : Sound s := h.fits.sound h.opens

theorem chains_eq_none (h : Ready e later s) (hk : .chains ∈ later) :
    (Query.ofText s).chains = none := by
  have : (Query.ofText s).chains =
      ((Clauses.ofText s).first? .chains).bind fun c => Query.readChains (Token.stretch c) := rfl
  rw [this, h.absent .chains hk]
  rfl

/-! ### The filters -/

/-- What is read of a list of filters without keywords. -/
theorem ofText_filters (h : Ready e later s) (hk : .filters ∈ later) {list : Text}
    (hlist : Text.Quiet list) :
    Query.ofText (s ++ (Keyword.filters.text ++ ' ' :: list)) =
      { Query.ofText s with
        filters := if list.filters.isEmpty then none else some list.filters
        lastKeyword := some .filters } := by
  have hbody : Text.Quiet (' ' :: list) := hlist.blank_append blank_space
  have hspace : Text.filters (' ' :: list) = list.filters := filters_blank_append blank_space list
  have hread := Query.withClause_filters (Query.ofText s) (' ' :: list)
  rw [hspace] at hread
  rw [Query.ofText_append_clause h.not_blank h.stem.blankEnd (by simp) (by simp)
    hbody (h.absent _ hk)]
  exact congrArg (fun q : Query => { q with lastKeyword := some .filters }) hread

theorem filterList_filters (h : Ready e later s) (hk : .filters ∈ later) {list : Text}
    (hlist : Text.Quiet list) :
    (Query.ofText (s ++ (Keyword.filters.text ++ ' ' :: list))).filterList = list.filters := by
  rw [h.ofText_filters hk hlist, Query.filterList]
  cases list.filters <;> rfl

/-- **A list of filters of the entity leaves a query that fits.** -/
theorem fits_filters (h : Ready e later s) (hk : .filters ∈ later) {list : Text}
    (hlist : Text.Quiet list) (hfields : ∀ f ∈ list.filters, f.field ∈ e.filterFields) :
    Fits e (Query.ofText (s ++ (Keyword.filters.text ++ ' ' :: list))) := by
  have hfilters := h.filterList_filters hk hlist
  have hread := h.ofText_filters hk hlist
  refine ⟨?_, ?_, fun f hf => hfields f (hfilters ▸ hf), ?_⟩
  · rw [hread]
    exact h.fits.entity
  · rw [hread]
    exact h.fits.fields
  · rw [hread]
    exact h.fits.chains

theorem opens_append (h : Ready e later s) (t : Text) : Query.opening <+: s ++ t :=
  h.opens.trans (List.prefix_append s t)

/-- **Behind a list of filters a text is ready for chains.** -/
theorem ready_filters (h : Ready e [.filters, .chains] s) {list : Text} (hlist : Text.Quiet list)
    (hstem : Stem list) (hfields : ∀ f ∈ list.filters, f.field ∈ e.filterFields) :
    Ready e [.chains] (s ++ (Keyword.filters.text ++ ' ' :: list)) := by
  refine ⟨?_, h.opens_append _, h.fits_filters (by simp) hlist hfields, ?_⟩
  · have hend : Stem (s ++ (Keyword.filters.text ++ [' ']) ++ list) := hstem.append _
    simpa using hend
  · intro k hk
    have hbody : Text.Quiet (' ' :: list) := hlist.blank_append blank_space
    rw [List.mem_singleton.mp hk, Clauses.first?_ofText_append_clause h.not_blank h.stem.blankEnd
      (by simp) (by simp) hbody, h.absent .chains (by simp)]
    rfl

/-- While filters are being typed, the entity is known and there are no chains. -/
theorem typing_filters (h : Ready e [.filters, .chains] s) {list : Text}
    (hlist : QuietSoFar list) :
    (Query.ofText (s ++ (Keyword.filters.text ++ ' ' :: list))).knownEntity? = some e ∧
      (Query.ofText (s ++ (Keyword.filters.text ++ ' ' :: list))).chains = none := by
  have hbody : QuietSoFar (' ' :: list) := by
    rcases hlist with hlist | ⟨read, k, rfl, hk, hread, hgap⟩
    · exact Or.inl (hlist.blank_append blank_space)
    · refine Or.inr ⟨' ' :: read, k, rfl, hk, hread.blank_append blank_space, ?_⟩
      exact blankEnd_append_ne_nil [' '] hgap
  obtain ⟨read, l, hquery, -⟩ := Query.ofText_append_of_quietSoFar h.not_blank h.stem.blankEnd
    (by simp) (by simp) hbody (h.absent .filters (by simp))
  rw [hquery]
  exact ⟨h.fits.knownEntity?, h.chains_eq_none (by simp)⟩

/-! ### The chains -/

/-- What is read of a list of chains. -/
theorem ofText_chains (h : Ready e later s) (hk : .chains ∈ later) {list : Text}
    (hlist : Text.Quiet list) :
    Query.ofText (s ++ (Keyword.chains.text ++ ' ' :: list)) =
      { Query.ofText s with
        chains := if (items list).isEmpty then none else some ((items list).map lower)
        lastKeyword := some .chains } := by
  have hbody : Text.Quiet (' ' :: list) := hlist.blank_append blank_space
  have hspace : items (' ' :: list) = items list := items_blank_append blank_space list
  have hread := Query.withClause_chains (Query.ofText s) (' ' :: list)
  rw [hspace] at hread
  rw [Query.ofText_append_clause h.not_blank h.stem.blankEnd (by simp) (by simp)
    hbody (h.absent _ hk)]
  exact congrArg (fun q : Query => { q with lastKeyword := some .chains }) hread

/-- **A list of chains that have been begun leaves a query that fits.** -/
theorem fits_chains (h : Ready e later s) (hk : .chains ∈ later) {list : Text}
    (hlist : Text.Quiet list) (hitems : ∀ x ∈ items list, Query.ChainFits (lower x)) :
    Fits e (Query.ofText (s ++ (Keyword.chains.text ++ ' ' :: list))) := by
  rw [h.ofText_chains hk hlist]
  refine ⟨h.fits.entity, h.fits.fields, h.fits.filters, fun x hx => ?_⟩
  have hmem : x ∈ (items list).map lower := by
    cases hitems' : items list with
    | nil => simp [Query.chainList, hitems'] at hx
    | cons y ys => simpa [Query.chainList, hitems'] using hx
  obtain ⟨y, hy, rfl⟩ := List.mem_map.mp hmem
  exact hitems y hy

end Ready

end Typing

end ChainQuery
