import ChainQuery.Proofs.Suggestion.Offers

/-!
# Suggestions in the order of the tables

A user finds a word in a list of suggestions by its place, and the place never changes: whatever is
left out of a table, what remains is shown in the order of the table, and once
(`ChainQuery.Suggestion.Follows`). Only while fields are typed and the entity is open there is
more than one table to choose from. Then the fields of each entity are shown side by side, the
entities in the order in which they are declared (`ChainQuery.Suggestion.candidateGroups_eq`), and
none of them with nothing (`ChainQuery.Suggestion.shownFields_ne_nil`). When a single entity remains
there is nothing to choose, and its fields are shown as a table like any other.

The tables depend on the clause in which the query ends, and on its entity if that is known:

| clause | tables |
|---|---|
| none | `GET` |
| `GET` | `FROM`; the fields of the known entity, or the featured fields of some entity |
| `FROM` | the entities; the hints of the known entity; `WHERE` and `ON` |
| `WHERE` | the filters of the known entity; the operators of one of them; `ON` |
| `ON` | the chains; `>>` |
| `>>` | the endings of files |

So whatever is offered is in one of the tables (`ChainQuery.Suggestion.listed_of_offered`), and is a
**plain** word (`ChainQuery.Suggestion.plain_of_offered`).
-/

namespace ChainQuery

open Text

namespace Suggestion

/-! ### The tables of a clause -/

/-- **The tables from which words are suggested** for a query, by the clause in which it ends. -/
inductive Table (q : Query) : Option Keyword → List Text → Prop
  /-- The keyword of the first clause. -/
  | opening : Table q none [Keyword.fields.text]
  /-- The keyword behind a list of fields. -/
  | behindFields : Table q (some .fields) [Keyword.entity.text]
  /-- The fields of the entity. -/
  | fields {e : Entity} (h : q.knownEntity? = some e) : Table q (some .fields) e.fields
  /-- The featured fields of an entity, while the entity is open. -/
  | featured (e : Entity) (h : q.knownEntity? = none) : Table q (some .fields) e.featured
  /-- The names of the entities. -/
  | names : Table q (some .entity) (Entity.all.map Entity.name)
  /-- The hints for an identifier of the entity. -/
  | hints {e : Entity} (h : q.knownEntity? = some e) : Table q (some .entity) e.hints
  /-- The keywords behind an entity. -/
  | behindEntity : Table q (some .entity) [Keyword.filters.text, Keyword.chains.text]
  /-- The fields of the filters of the entity. -/
  | filterFields {e : Entity} (h : q.knownEntity? = some e) : Table q (some .filters) e.filterFields
  /-- The operators of one filter of the entity. -/
  | operators {e : Entity} (h : q.knownEntity? = some e) {rule : FilterRule}
      (hrule : rule ∈ e.filterRules) : Table q (some .filters) (rule.operators.map Operator.text)
  /-- The keyword behind a list of filters. -/
  | behindFilters : Table q (some .filters) [Keyword.chains.text]
  /-- The chains, the wildcard first. -/
  | chains : Table q (some .chains) ChainQuery.chains
  /-- The keyword behind a list of chains. -/
  | behindChains : Table q (some .chains) [Keyword.dump.text]
  /-- The endings of files. -/
  | dumpFormats : Table q (some .dump) ChainQuery.dumpFormats

variable {q : Query} {raw t : Text} {l : List Suggestion}

/-- There is a table in every clause. -/
theorem exists_table (q : Query) (o : Option Keyword) : ∃ table, Table q o table := by
  cases o with
  | none => exact ⟨_, .opening⟩
  | some k =>
    cases k with
    | fields => exact ⟨_, .behindFields⟩
    | entity => exact ⟨_, .names⟩
    | filters => exact ⟨_, .behindFilters⟩
    | chains => exact ⟨_, .chains⟩
    | dump => exact ⟨_, .dumpFormats⟩

/-- No table holds a word twice. -/
theorem Table.nodup {o : Option Keyword} {table : List Text} (h : Table q o table) :
    table.Nodup := by
  cases h with
  | opening => decide
  | behindFields => decide
  | @fields e _ => cases e <;> decide
  | featured e _ => cases e <;> decide
  | names => decide
  | @hints e _ => cases e <;> decide
  | behindEntity => decide
  | @filterFields e _ => cases e <;> decide
  | @operators e _ rule hrule =>
    revert rule
    cases e <;> decide
  | behindFilters => decide
  | chains => decide
  | behindChains => decide
  | dumpFormats => decide

/-! ### Suggestions that follow the tables -/

/-- **Suggestions that follow the tables**: a part of one table, word by word; or, while fields are
typed and the entity is open, parts of the tables of several entities, with the wildcard or without
it before them. -/
inductive Follows (q : Query) : List Suggestion → Prop
  /-- Words of one table, in its order and without repetition. -/
  | words {table list : List Text} (h : Table q q.lastKeyword table) (hsub : list.Sublist table)
      (hnodup : list.Nodup) : Follows q (words list)
  /-- Groups of featured fields, one for each of some entities, in the order of the entities and
  of the fields. One group alone is no choice. -/
  | groups {star : List Text} {es : List Entity} {shown : Entity → List Text}
      (hlast : q.lastKeyword = some .fields) (hopen : q.knownEntity? = none)
      (hstar : star.Sublist [wildcard]) (hes : es.Sublist Entity.all) (hnodup : es.Nodup)
      (hshown : ∀ e ∈ es, shown e ≠ [] ∧ (shown e).Sublist e.featured)
      (hchoice : star = [] → es.length ≠ 1) :
      Follows q (Suggestion.words star ++ es.map fun e => .group e (shown e))

theorem Follows.of_table {table list : List Text} (h : Table q q.lastKeyword table)
    (hsub : list.Sublist table) : Follows q (Suggestion.words list) :=
  .words h hsub (h.nodup.sublist hsub)

theorem Follows.whole {table : List Text} (h : Table q q.lastKeyword table) :
    Follows q (Suggestion.words table) := .of_table h (List.Sublist.refl table)

theorem follows_nil (q : Query) : Follows q [] := by
  obtain ⟨table, h⟩ := exists_table q q.lastKeyword
  exact .of_table h (List.nil_sublist table)

theorem group_notMem_words (e : Entity) (fields list : List Text) :
    Suggestion.group e fields ∉ words list := by
  simp [words]

/-- **There is never a single group.** -/
theorem Follows.ne_group (h : Follows q l) (e : Entity) (fields : List Text) :
    l ≠ [.group e fields] := by
  intro hl
  cases h with
  | @words table list _ _ _ =>
    exact group_notMem_words e fields list (hl ▸ List.mem_singleton_self _)
  | @groups star es shown _ _ _ _ _ _ hchoice =>
    cases star with
    | cons t star => cases hl
    | nil =>
      have hlength := congrArg List.length hl
      rw [List.length_append, List.length_map] at hlength
      exact hchoice rfl (by simpa [Suggestion.words] using hlength)

/-! ### After `GET` -/

/-- An entity that could be meant has all fields of the list as featured fields, and for the last
one a featured field that begins with it. -/
def isCandidate (before : List Text) (last : Text) (e : Entity) : Bool :=
  before.all e.featured.contains && e.featured.any (beginsWith last)

/-- The fields that are shown for an entity. -/
def shownFields (last : Text) (narrow : Bool) (e : Entity) : List Text :=
  e.featured.filter fun field => !narrow || beginsWith last field

/-- **The groups for a list of fields** are those of the entities that could be meant, in the order
of the entities, and the wildcard stands before them. -/
theorem candidateGroups_eq (before : List Text) (last : Text) (narrow : Bool) :
    candidateGroups before last narrow =
      words ([wildcard].filter (beginsWith last)) ++
        (Entity.all.filter (isCandidate before last)).map fun e =>
          .group e (shownFields last narrow e) := by
  have hgroups : Entity.all.filterMap (featuredGroup? before last narrow) =
      (Entity.all.filter (isCandidate before last)).map fun e =>
        .group e (shownFields last narrow e) := by
    rw [← List.filterMap_eq_map, List.filterMap_filter]
    rfl
  rw [candidateGroups, hgroups, List.filter_singleton]
  cases beginsWith last wildcard <;> rfl

/-- **No group is empty**: where only fields are shown that begin with the last one, there are
some. -/
theorem shownFields_ne_nil {before : List Text} {last : Text} {e : Entity}
    (h : isCandidate before last e = true) (narrow : Bool) : shownFields last narrow e ≠ [] := by
  rw [isCandidate, Bool.and_eq_true, List.any_eq_true] at h
  obtain ⟨field, hmem, hbegin⟩ := h.2
  exact List.ne_nil_of_mem (List.mem_filter.mpr ⟨hmem, by rw [hbegin, Bool.or_true]⟩)

/-- A single group is shown as words, which are words of a table. -/
theorem follows_flattenSingle {star : List Text} {es : List Entity} {shown : Entity → List Text}
    (hlast : q.lastKeyword = some .fields) (hopen : q.knownEntity? = none)
    (hstar : star.Sublist [wildcard]) (hes : es.Sublist Entity.all)
    (hshown : ∀ e ∈ es, shown e ≠ [] ∧ (shown e).Sublist e.featured) :
    Follows q (flattenSingle (words star ++ es.map fun e => .group e (shown e))) := by
  unfold flattenSingle
  split
  next e fields hsingle =>
    have hmem : Suggestion.group e fields ∈ words star ++ es.map fun e => .group e (shown e) :=
      hsingle ▸ List.mem_singleton_self _
    obtain ⟨e', he, heq⟩ :=
      List.mem_map.mp ((List.mem_append.mp hmem).resolve_left (group_notMem_words e fields star))
    cases heq
    exact .of_table (hlast ▸ .featured e hopen) (hshown e he).2
  next hmany =>
    have hnodup : Entity.all.Nodup := by decide
    refine .groups hlast hopen hstar hes (hnodup.sublist hes) hshown fun hnil hlength => ?_
    obtain ⟨e, rfl⟩ := List.length_eq_one_iff.mp hlength
    exact hmany e (shown e) (by rw [hnil]; rfl)

theorem follows_featuredGroups (hlast : q.lastKeyword = some .fields)
    (hopen : q.knownEntity? = none) : Follows q featuredGroups := by
  have hshown : ∀ e ∈ Entity.all, e.featured ≠ [] ∧ e.featured.Sublist e.featured :=
    fun e _ => ⟨by cases e <;> decide, List.Sublist.refl _⟩
  have hgroups : Follows q (words [wildcard] ++ Entity.all.map fun e => .group e e.featured) :=
    .groups hlast hopen (List.Sublist.refl _) (List.Sublist.refl _) (by decide) hshown (by simp)
  exact hgroups

theorem follows_forFields (hlast : q.lastKeyword = some .fields) : Follows q (forFields q raw) := by
  have hfrom : Follows q (words [Keyword.entity.text]) :=
    .whole (hlast ▸ .behindFields)
  rw [forFields.eq_def]
  split
  · exact hfrom
  split
  · exact hfrom
  split
  · exact follows_nil q
  split
  next e hknown =>
    exact .of_table (hlast ▸ .fields hknown) (List.filter_sublist.trans List.filter_sublist)
  next hopen =>
    split
    · exact follows_featuredGroups hlast hopen
    · rw [candidateGroups_eq]
      refine follows_flattenSingle hlast hopen List.filter_sublist List.filter_sublist ?_
      intro e he
      exact ⟨shownFields_ne_nil (List.mem_filter.mp he).2 _, List.filter_sublist⟩

/-! ### After `FROM` -/

theorem openEntities_sublist (q : Query) (raw : Text) :
    (openEntities q raw).Sublist (Entity.all.map Entity.name) := by
  rw [openEntities.eq_def]
  split
  · exact List.filter_sublist.map _
  · exact List.filter_sublist

theorem nextClauses_sublist (e : Entity) (raw : Text) :
    (nextClauses e raw).Sublist [Keyword.filters.text, Keyword.chains.text] := by
  rw [nextClauses]
  split
  · exact List.sublist_cons_self _ _
  · exact List.filter_sublist

theorem follows_forEntity (hlast : q.lastKeyword = some .entity) : Follows q (forEntity q raw) := by
  rw [forEntity.eq_def]
  split
  · exact .of_table (hlast ▸ .names) (openEntities_sublist q raw)
  next e hknown =>
    split
    · exact .whole (hlast ▸ .hints hknown)
    split
    · have hname : e.name ∈ Entity.all.map Entity.name := List.mem_map_of_mem (Entity.mem_all e)
      exact .of_table (hlast ▸ .names) (List.singleton_sublist.mpr hname)
    split
    · exact .of_table (hlast ▸ .behindEntity) (nextClauses_sublist e raw)
    · exact follows_nil q

/-! ### After `WHERE` -/

theorem follows_forFilters (hlast : q.lastKeyword = some .filters)
    (hl : forFilters q raw = .ok l) : Follows q l := by
  rw [forFilters.eq_def] at hl
  split at hl
  · cases hl
  next e hknown =>
    have hfields : ∀ p : Text → Bool, Follows q (words (e.filterFields.filter p)) :=
      fun p => .of_table (hlast ▸ .filterFields hknown) List.filter_sublist
    -- the questions are asked one after the other, and each answer is a table or nothing
    dsimp only at hl
    split at hl
    · cases hl
      exact .whole (hlast ▸ .behindFilters)
    split at hl
    · cases hl
      exact follows_nil q
    split at hl
    · cases hl
      exact hfields _
    split at hl
    · cases hl
      exact follows_nil q
    split at hl
    next f _ =>
      split at hl
      next rule hrule =>
        cases hl
        have hmem : rule ∈ e.filterRules := List.mem_of_find?_eq_some hrule
        exact .whole (hlast ▸ .operators hknown hmem)
      · cases hl
    · cases hl
      exact hfields _

/-! ### After `ON` and `>>` -/

theorem unusedChains_sublist (typed : List Text) (raw : Text) :
    (unusedChains typed raw).Sublist ChainQuery.chains :=
  (List.filter_sublist.trans List.filter_sublist).trans List.filter_sublist

theorem follows_forChains (hlast : q.lastKeyword = some .chains) : Follows q (forChains q raw) := by
  rw [forChains]
  split
  · exact .whole (hlast ▸ .behindChains)
  split
  · exact .whole (hlast ▸ .chains)
  split
  · exact follows_nil q
  · exact .of_table (hlast ▸ .chains) (unusedChains_sublist _ raw)

theorem follows_forDump (hlast : q.lastKeyword = some .dump) : Follows q (forDump raw) := by
  rw [forDump]
  split
  · exact .whole (hlast ▸ .dumpFormats)
  · exact follows_nil q

/-! ### The clause in which a query ends -/

theorem follows_forQuery (hl : forQuery q raw = .ok l) : Follows q l := by
  rw [forQuery.eq_def] at hl
  split at hl
  next hlast =>
    cases hl
    exact .whole (hlast ▸ .opening)
  next hlast =>
    cases hl
    exact follows_forFields hlast
  next hlast =>
    cases hl
    exact follows_forEntity hlast
  next hlast => exact follows_forFilters hlast hl
  next hlast =>
    cases hl
    exact follows_forChains hlast
  next hlast =>
    cases hl
    exact follows_forDump hlast

/-! ### What is in the tables -/

/-- **The words that may be offered for a query**, table by table. -/
inductive Listed (q : Query) : Text → Prop
  /-- The keywords. -/
  | keyword (k : Keyword) : Listed q k.text
  /-- The wildcard. -/
  | wildcard : Listed q ChainQuery.wildcard
  /-- The fields of an entity. -/
  | field (e : Entity) {t : Text} : t ∈ e.fields → Listed q t
  /-- The names of the entities. -/
  | name (e : Entity) : Listed q e.name
  /-- The hints for the identifier of an entity. -/
  | hint (e : Entity) {t : Text} : t ∈ e.hints → Listed q t
  /-- The fields that filters of an entity compare. -/
  | filterField (e : Entity) {t : Text} : t ∈ e.filterFields → Listed q t
  /-- The operators, while filters are typed. -/
  | operator (op : Operator) : q.lastKeyword = some .filters → Listed q op.text
  /-- The chains. -/
  | chain {t : Text} : t ∈ chains → Listed q t
  /-- The endings of files. -/
  | dumpFormat {t : Text} : t ∈ dumpFormats → Listed q t

theorem Table.listed {table : List Text} (h : Table q q.lastKeyword table) (ht : t ∈ table) :
    Listed q t := by
  generalize hlast : q.lastKeyword = o at h
  cases h with
  | opening => exact List.mem_singleton.mp ht ▸ .keyword .fields
  | behindFields => exact List.mem_singleton.mp ht ▸ .keyword .entity
  | fields => exact .field _ ht
  | featured e => exact .field e (Entity.mem_fields_of_mem_featured ht)
  | names =>
    obtain ⟨e, -, rfl⟩ := List.mem_map.mp ht
    exact .name e
  | hints => exact .hint _ ht
  | behindEntity =>
    rcases List.mem_pair.mp ht with rfl | rfl
    · exact .keyword .filters
    · exact .keyword .chains
  | filterFields => exact .filterField _ ht
  | operators =>
    obtain ⟨op, -, rfl⟩ := List.mem_map.mp ht
    exact .operator op hlast
  | behindFilters => exact List.mem_singleton.mp ht ▸ .keyword .chains
  | chains => exact .chain ht
  | behindChains => exact List.mem_singleton.mp ht ▸ .keyword .dump
  | dumpFormats => exact .dumpFormat ht

theorem Follows.listed (h : Follows q l) (ht : Offered l t) : Listed q t := by
  cases h with
  | words htable hsub => exact htable.listed (hsub.subset (offered_words.mp ht))
  | groups _ _ hstar _ _ hshown =>
    rcases offered_append.mp ht with ht | ⟨s, hs, ht⟩
    · exact List.mem_singleton.mp (hstar.subset (offered_words.mp ht)) ▸ .wildcard
    · obtain ⟨e, he, rfl⟩ := List.mem_map.mp hs
      exact .field e (Entity.mem_fields_of_mem_featured ((hshown e he).2.subset ht))

/-- **Whatever is offered is in one of the tables.** -/
theorem listed_of_offered (hl : forQuery q raw = .ok l) (h : Offered l t) : Listed q t :=
  (follows_forQuery hl).listed h

/-- **Whatever is offered is a plain word.** -/
theorem plain_of_offered (hl : forQuery q raw = .ok l) (h : Offered l t) : t.Plain := by
  cases listed_of_offered hl h with
  | keyword k => exact k.plain_text
  | wildcard => exact plain_wildcard
  | field e ht => exact Entity.plain_of_mem_fields t ht
  | name e => exact e.plain_name
  | hint e ht => exact Entity.plain_of_mem_hints t ht
  | filterField e ht => exact Entity.plain_of_mem_filterFields t ht
  | operator op _ => exact op.plain_text
  | chain ht => exact plain_of_mem_chains t ht
  | dumpFormat ht => exact plain_of_mem_dumpFormats t ht

/-! ### At the end of a text -/

/-- **Suggestions follow the tables**, whatever the text may be: they are a part of one table of the
clause in which the text ends, or parts of the tables of several entities. There is never a single
group. -/
theorem follows_of_complete (hl : complete raw = .ok l) :
    Follows (Query.ofText raw) l ∧ ∀ (e : Entity) (fields : List Text), l ≠ [.group e fields] := by
  have hfollows : Follows (Query.ofText raw) l := by
    rcases complete_cases raw with hnil | ⟨-, -, hquery⟩
    · rw [hl] at hnil
      cases hnil
      exact follows_nil _
    · exact follows_forQuery (hquery ▸ hl)
  exact ⟨hfollows, hfollows.ne_group⟩

/-- Two entities have the field that has been typed, and a field that begins with the last word. -/
theorem follows_of_complete_of_groups :
    complete "GET hash, n".toList = .ok [.group .block (texts ["number"]),
        .group .transaction (texts ["nonce"])] ∧
      Follows (Query.ofText "GET hash, n".toList) [.group .block (texts ["number"]),
        .group .transaction (texts ["nonce"])] := by
  have hl : complete "GET hash, n".toList = .ok [.group .block (texts ["number"]),
      .group .transaction (texts ["nonce"])] := by decide +kernel
  exact ⟨hl, (follows_of_complete hl).1⟩

end Suggestion

end ChainQuery
