import ChainQuery.Proofs.Editor.Submission
import ChainQuery.Proofs.Query.LastKeyword
import ChainQuery.Proofs.Query.Vocabulary

/-!
# Typing the clause that names a file

Behind a query that is **finished** the answer may be sent to a file
(`ChainQuery.Typing.Finished`). The query stays complete from then on, so it is judged at every
keystroke, in the middle of a word as well as behind it. Judgement looks at the fields, the entity,
the fields of the filters and the chains, and at nothing else (`ChainQuery.Query.JudgedAlike`), and
once `>>` is there none of them changes any more: what follows is the name of the file, up to a
keyword with which it may end.

One keystroke earlier there is a single `>`, a sign like any other, and it goes to the clause that
was last. In the name of a file, in an identifier and behind the field of a filter it does no harm.
But it makes a chain another one, and where a name is still missing it *is* the name
(`ChainQuery.Typing.TakesSign`). There, and nowhere else on the way from the query to the file, a
user is told of a fault (`ChainQuery.Typing.read_of_typing_dump_iff`).
-/

namespace ChainQuery

open Text Token

namespace Typing

/-! ### Finished queries -/

/-- **A finished query**: nothing is missing from it or wrong with it, it names no file, and it
does not end in white space. -/
structure Finished (q : Text) : Prop where
  /-- Judgement lets the query pass. -/
  accepted : ∃ r, Query.read q true = .ok r
  /-- Nothing that a query must have is missing. -/
  complete : (Query.ofText q).isComplete = true
  /-- There is no keyword `>>`. -/
  no_dump : ∀ t ∈ tokenize q, t.keyword? ≠ some .dump
  /-- The last character is not white space. -/
  ends : ∀ c ∈ q.getLast?, isBlank c = false

instance (q : Text) : Decidable (Finished q) :=
  decidable_of_iff (Query.read q true = .ok (Query.ofText q) ∧
      (Query.ofText q).isComplete = true ∧ (∀ t ∈ tokenize q, t.keyword? ≠ some .dump) ∧
      ∀ c ∈ q.getLast?, isBlank c = false)
    ⟨fun ⟨hread, hcomplete, hdump, hends⟩ => ⟨⟨_, hread⟩, hcomplete, hdump, hends⟩, fun h => by
      obtain ⟨r, hr⟩ := h.accepted
      exact ⟨Query.eq_ofText_of_judge hr ▸ hr, h.complete, h.no_dump, h.ends⟩⟩

namespace Finished

variable {q w : Text}

theorem conforms (h : Finished q) : Query.Conforms q (Query.ofText q) := by
  obtain ⟨r, hr⟩ := h.accepted
  obtain rfl := Query.eq_ofText_of_judge hr
  exact (Query.judge_eq_ok_iff_of_isComplete h.complete).mp hr

theorem solid (h : Finished q) : Solid q := by
  obtain ⟨list, hlist⟩ := h.conforms.opens
  have hne : q ≠ [] := by
    rintro rfl
    cases hlist
  refine solid_iff.mpr ⟨⟨'G', ?_, by decide⟩, q.getLast hne, List.getLast?_eq_some_getLast hne, ?_⟩
  · rw [← hlist]
    rfl
  · exact h.ends _ (List.getLast?_eq_some_getLast hne)

/-- What is put behind a finished query disturbs nobody as long as the same is judged. -/
theorem read_append (h : Finished q)
    (hw : Query.JudgedAlike (Query.ofText q) (Query.ofText (q ++ w))) :
    ∃ r, Query.read (q ++ w) true = .ok r := by
  have hcomplete : (Query.ofText (q ++ w)).isComplete = true := hw.isComplete.trans h.complete
  refine ⟨_, (Query.judge_eq_ok_iff_of_isComplete hcomplete).mpr (hw.conforms h.conforms ?_)⟩
  exact h.conforms.opens.trans (List.prefix_append q w)

/-- A finished query has chains, and so a keyword by which it is divided. -/
theorem exists_dividesLast (h : Finished q) :
    ∃ (k : Keyword) (before after : Text), k.DividesLast before after q := by
  by_cases hnone : ∀ n, ¬DividedAt q n
  · have hclauses : Clauses.ofText q = ⟨lexemes (trim q), []⟩ :=
      Clauses.ofText_of_not_dividedAt (by rwa [h.solid.trim])
    have hchains := (Query.isComplete_iff.mp h.complete).2.2
    rw [Query.ofText_eq, hclauses] at hchains
    cases hchains
  · obtain ⟨n, hn⟩ := not_forall_not.mp hnone
    exact Keyword.exists_dividesLast hn

/-! ### Behind the keyword -/

/-- Whatever has been typed of the name of a file, the same is judged. -/
theorem judgedAlike_dump (h : Finished q) {f body : Text} (hf : Grammar.IsPhrase f)
    (hbody : body <+: ' ' :: f) :
    Query.JudgedAlike (Query.ofText q)
      (Query.ofText (q ++ ' ' :: (Keyword.dump.text ++ body))) := by
  have hs : ¬Blank (q ++ [' ']) := fun hcon => h.solid.not_blank (blank_append.mp hcon).1
  have hend : blankEnd (q ++ [' ']) ≠ [] := by
    rw [blankEnd_append_blank q blank_space]
    simp
  have hstart : ∀ c ∈ body.head?, isBlank c = true := by
    intro c hc
    cases body with
    | nil => cases hc
    | cons d body =>
      obtain ⟨rfl, -⟩ := List.cons_prefix_cons.mp hbody
      rw [← Option.some.inj hc]
      exact isBlank_space
  have hquiet : QuietSoFar body := by
    obtain ⟨rest, hrest⟩ := hbody
    refine quietSoFar_of_append (r := rest) ?_
    rw [hrest]
    exact Quiet.blank_append blank_space hf.quiet
  have hnew : (Clauses.ofText (q ++ [' '])).first? .dump = none := by
    rw [Clauses.ofText_append_blank q blank_space, Clauses.ofText, h.solid.trim]
    exact Clauses.first?_eq_none h.no_dump
  obtain ⟨read, l, hread, -⟩ :=
    Query.ofText_append_of_quietSoFar hs hend (by simp) hstart hquiet hnew
  have hsplit : q ++ ' ' :: (Keyword.dump.text ++ body) =
      (q ++ [' ']) ++ (Keyword.dump.text ++ body) := by simp
  rw [hsplit, hread, Query.withClause_dump, Query.ofText_append_blank q blank_space]
  exact ⟨rfl, rfl, rfl, rfl⟩

end Finished

/-! ### The sign before the file -/

/-- The first sign of `>>`, behind a space. -/
def sign : Text := " >".toList

/-- **A query whose last clause takes a sign for a word of its own.** The clause is the first of its
kind, and it holds chains, or it still lacks the name of an entity or the field of a filter. -/
inductive TakesSign (q : Text) : Prop
  /-- The text ends in the list of chains. -/
  | chains {before after : Text} (h : Keyword.chains.DividesLast before after q)
      (hnew : (Clauses.ofText before).first? .chains = none) : TakesSign q
  /-- The text ends in `FROM`. -/
  | entity {before : Text} (h : Keyword.entity.DividesLast before [] q)
      (hnew : (Clauses.ofText before).first? .entity = none) : TakesSign q
  /-- The text ends in `WHERE`, or in a comma that divides filters. -/
  | filters {before after : Text} (h : Keyword.filters.DividesLast before after q)
      (hnew : (Clauses.ofText before).first? .filters = none) (hend : IsLastFilter [] after) :
      TakesSign q

theorem quiet_sign : Text.Quiet sign := by
  unfold Text.Quiet sign
  decide

theorem blank_head_sign : ∀ c ∈ sign.head?, isBlank c = true := by decide

/-! ### What the sign does to a clause -/

section Clause

variable {q : Query} {after : Text} {e : Entity}

theorem lexemes_append_sign {v : Text} (hend : blankEnd v = []) :
    lexemes (v ++ sign) = lexemes v ++ [⟨.operator, [' '], ['>']⟩] := by
  have hsign : lexemes sign = [⟨.operator, [' '], ['>']⟩] := by decide
  have hapart : Apart v sign := apart_of_head (runsOn_of_blank_right isBlank_space)
  rw [lexemes_append hapart, hend, pad_nil_gap, hsign]

/-- **Behind a field the sign is an operator**, and behind a comparison it belongs to the value. -/
theorem field_ofTokens_sign {v : Text} (hend : blankEnd v = [])
    (hfield : (Filter.ofTokens (lexemes v)).field ∈ e.filterFields) :
    (Filter.ofTokens (lexemes (v ++ sign))).field = (Filter.ofTokens (lexemes v)).field := by
  rw [lexemes_append_sign hend]
  rcases Filter.ofTokens_cases (lexemes v) with ⟨t, u, value, op, hgroup, ht, hu⟩ | hgroup
  · rw [hgroup, List.cons_append, List.cons_append, Filter.ofTokens_of_operator ht hu,
      Filter.ofTokens_of_operator ht hu]
  · -- what was typed is one word, an identifier
    rw [hgroup, stretch_lexemes] at hfield
    have hid := (Grammar.isField_of_mem_filterFields _ hfield).identifier
    have hne := (Grammar.isField_of_mem_filterFields _ hfield).ne_nil
    have hsign : sign = [' '] ++ Operator.gt.text := rfl
    rw [← lexemes_append_sign hend, hsign, hgroup, stretch_lexemes,
      Filter.ofTokens_identifier_append .gt hne hid hend blank_space (by simp)]

/-- The name of an entity is finished when white space follows it. -/
theorem judgedAlike_entity (hafter : ¬Blank after) {o : Option Keyword} :
    Query.JudgedAlike { q.withClause .entity (lexemes after) with lastKeyword := o }
      { q.withClause .entity (lexemes (after ++ sign)) with lastKeyword := o } := by
  obtain ⟨name, i, j, hbefore, hbehind⟩ := Query.exists_readEntity_append hafter blank_head_sign
  simp only [Query.withClause, stretch_lexemes, hbefore, hbehind]
  exact ⟨rfl, rfl, rfl, rfl⟩

/-- The field of a filter is finished when something of it is there. -/
theorem judgedAlike_filters {v : Text} (hv : IsLastFilter v after) (hne : ¬Blank v)
    (hend : blankEnd v = [])
    (hfields : ∀ f ∈ after.filters, f.field ∈ e.filterFields) {o : Option Keyword} :
    Query.JudgedAlike { q.withClause .filters (lexemes after) with lastKeyword := o }
      { q.withClause .filters (lexemes (after ++ sign)) with lastKeyword := o } := by
  have hcomma : ',' ∉ sign := by decide
  have hne' : ¬Blank (v ++ sign) := fun hcon => hne (blank_append.mp hcon).1
  obtain ⟨earlier, hearlier⟩ := hv.exists_filters_append
  have hbefore := hearlier []
  rw [List.append_nil, List.append_nil, filters_of_sheltered hv.1 hne] at hbefore
  have hbehind := hearlier sign
  rw [filters_of_sheltered (hv.1.append_of_not_mem hcomma) hne'] at hbehind
  have hfield : (Filter.ofTokens (lexemes v)).field ∈ e.filterFields :=
    hfields _ (by rw [hbefore]; simp)
  refine ⟨rfl, rfl, ?_, rfl⟩
  change (q.withClause .filters (lexemes (after ++ sign))).filterList.map Filter.field =
    (q.withClause .filters (lexemes after)).filterList.map Filter.field
  rw [Query.filterList_withClause, Query.filterList_withClause, hbehind, hbefore, List.map_append,
    List.map_append, List.map_singleton, List.map_singleton, field_ofTokens_sign hend hfield]

/-- No chain has a sign in its name. -/
theorem not_chainFits_of_mem {x : Text} (h : '>' ∈ x) : ¬Query.ChainFits x := by
  rintro ⟨chain, hchain, hx⟩
  have hnone : ∀ chain ∈ ChainQuery.chains, '>' ∉ chain := by decide
  exact hnone chain hchain (hx.subset h)

/-- **Among chains the sign makes one that does not exist.** -/
theorem exists_chain_sign (q : Query) (after : Text) :
    ∃ chains, q.withClause .chains (lexemes (after ++ sign)) = { q with chains := some chains } ∧
      ∃ name ∈ chains, ¬Query.ChainFits name := by
  have hmem : '>' ∈ after ++ sign := by simp [sign]
  obtain ⟨item, hitem, hmem⟩ := exists_mem_items_of_mem (by decide) (by decide) hmem
  have hsome : (items (after ++ sign)).isEmpty = false := by simpa using List.ne_nil_of_mem hitem
  refine ⟨(items (after ++ sign)).map lower, ?_, lower item, List.mem_map_of_mem hitem, ?_⟩
  · rw [Query.withClause_chains, hsome]
    rfl
  · exact not_chainFits_of_mem (mem_lower_of_mem (by decide) (by decide) hmem)

/-- **Without the name of an entity the sign is the name.** -/
theorem withClause_entity_sign (q : Query) :
    q.withClause .entity (lexemes sign) = { q with entity := some ['>'], identifier := none } := rfl

/-- **Without the field of a filter the sign is the field.** -/
theorem mem_filterList_sign (q : Query) (hend : IsLastFilter [] after) :
    ⟨['>'], none, none⟩ ∈ (q.withClause .filters (lexemes (after ++ sign))).filterList := by
  have hsign : Text.filters ([] ++ sign) = [⟨['>'], none, none⟩] := by decide
  obtain ⟨earlier, hearlier⟩ := hend.exists_filters_append
  rw [Query.filterList_withClause, hearlier, hsign]
  exact List.mem_append_right _ (List.mem_singleton_self _)

/-- A sign is no name. -/
theorem sign_ne_name (e : Entity) : ['>'] ≠ e.name := by cases e <;> decide

theorem sign_notMem_filterFields (e : Entity) : ['>'] ∉ e.filterFields := by cases e <;> decide

end Clause

namespace Finished

variable {q : Text}

theorem exists_entity (h : Finished q) : ∃ e : Entity, (Query.ofText q).entity = some e.name := by
  obtain ⟨e, he⟩ := h.conforms.exists_fits h.complete
  exact ⟨e, he.entity⟩

theorem not_blank_of_append {s w : Text} (h : Finished q) (hq : q = s ++ w) (hne : w ≠ []) :
    ¬Blank w := by
  intro hblank
  have hend := h.solid.blankEnd
  rw [hq, blankEnd_append_blank _ hblank] at hend
  exact hne (List.append_eq_nil_iff.mp hend).2

/-- **A sign that is not taken for a word disturbs nobody.** -/
theorem judgedAlike_sign (h : Finished q) (hnot : ¬TakesSign q) :
    Query.JudgedAlike (Query.ofText q) (Query.ofText (q ++ sign)) := by
  obtain ⟨k, before, after, hlast⟩ := h.exists_dividesLast
  have hq := hlast.lastClause h.solid.trim
  have hsign := hq.append quiet_sign blank_head_sign
  by_cases hnew : (Clauses.ofText before).first? k = none
  case neg =>
    rw [hq.ofText_eq_of_repeated hnew, hsign.ofText_eq_of_repeated hnew]
    exact .refl _
  have hconforms := h.conforms
  obtain ⟨e, he⟩ := h.exists_entity
  rw [hq.ofText_eq hnew] at hconforms he ⊢
  rw [hsign.ofText_eq hnew]
  cases k with
  | fields => exact absurd rfl hq.ne_fields
  | chains => exact absurd (.chains hlast hnew) hnot
  | dump =>
    rw [Query.withClause_dump, Query.withClause_dump]
    exact ⟨rfl, rfl, rfl, rfl⟩
  | entity =>
    refine judgedAlike_entity (h.not_blank_of_append (s := before ++ Keyword.entity.text) ?_ ?_)
    · rw [hlast.eq_append, List.append_assoc]
    · rintro rfl
      exact hnot (.entity hlast hnew)
  | filters =>
    obtain ⟨v, hv⟩ := exists_isLastFilter after
    have hne : v ≠ [] := by
      rintro rfl
      exact hnot (.filters hlast hnew hv)
    obtain ⟨s, hs⟩ := hv.isSuffix.trans hlast.isSuffix
    have hblank := h.not_blank_of_append hs.symm hne
    have hend : blankEnd v = [] := by
      rw [← blankEnd_append_of_not_blank s hblank, hs, h.solid.blankEnd]
    refine judgedAlike_filters hv hblank hend fun f hf => hconforms.filters f ?_ e he
    have hlist := Query.filterList_withClause (Query.ofText before) after
    exact hlist ▸ hf

/-- **A sign that is taken for a word is none that may stand there.** -/
theorem not_conforms_sign (h : Finished q) (htakes : TakesSign q) :
    (Query.ofText (q ++ sign)).isComplete = true ∧
      ¬Query.Conforms (q ++ sign) (Query.ofText (q ++ sign)) := by
  have hcomplete := Query.isComplete_iff.mp h.complete
  obtain ⟨e, he⟩ := h.exists_entity
  cases htakes with
  | @chains before after hlast hnew =>
    have hq := hlast.lastClause h.solid.trim
    obtain ⟨chains, hchains, name, hname, hnot⟩ := exists_chain_sign (Query.ofText before) after
    rw [hq.ofText_eq hnew, Query.withClause_chains] at hcomplete
    rw [(hq.append quiet_sign blank_head_sign).ofText_eq hnew, hchains]
    exact ⟨Query.isComplete_iff.mpr ⟨hcomplete.1, hcomplete.2.1, rfl⟩,
      fun hconforms => hnot (hconforms.chains name hname)⟩
  | @entity before hlast hnew =>
    have hq := hlast.lastClause h.solid.trim
    rw [hq.ofText_eq hnew] at hcomplete
    rw [(hq.append quiet_sign blank_head_sign).ofText_eq hnew, List.nil_append,
      withClause_entity_sign]
    refine ⟨Query.isComplete_iff.mpr ⟨hcomplete.1, rfl, hcomplete.2.2⟩, fun hconforms => ?_⟩
    obtain ⟨e', he'⟩ := hconforms.entity ['>'] rfl
    exact sign_ne_name e' he'
  | @filters before after hlast hnew hend =>
    have hq := hlast.lastClause h.solid.trim
    have hmem := mem_filterList_sign (Query.ofText before) hend
    rw [hq.ofText_eq hnew, Query.withClause_filters] at hcomplete he
    rw [(hq.append quiet_sign blank_head_sign).ofText_eq hnew]
    -- the list of filters is all that the sign changes
    rw [Query.withClause_filters] at hmem ⊢
    exact ⟨Query.isComplete_iff.mpr hcomplete,
      fun hconforms => sign_notMem_filterFields e (hconforms.filters _ hmem e he)⟩

end Finished

/-! ### The whole clause -/

/-- How far the clause may have been typed: nothing of it, the space, the first sign, or the whole
keyword and some of what follows. -/
theorem typing_dump_cases {q f p : Text} (hp : p <+: q ++ (" >> ".toList ++ f))
    (hlength : q.length ≤ p.length) :
    p = q ∨ p = q ++ [' '] ∨ p = q ++ sign ∨
      ∃ body, body <+: ' ' :: f ∧ p = q ++ ' ' :: (Keyword.dump.text ++ body) := by
  rcases prefix_append_iff.mp hp with hp | ⟨r, rfl, hr⟩
  · exact Or.inl (hp.eq_of_length_le hlength)
  rcases prefix_append_iff (s := " >>".toList) (t := ' ' :: f).mp hr with hr | ⟨body, rfl, hbody⟩
  · have hsteps : r = [] ∨
        ∃ t, r = ' ' :: t ∧ (t = [] ∨ ∃ u, t = '>' :: u ∧ (u = [] ∨ u = ['>'])) := by
      simpa [List.prefix_cons_iff] using hr
    rcases hsteps with rfl | ⟨t, rfl, rfl | ⟨u, rfl, rfl | rfl⟩⟩
    · exact Or.inl (List.append_nil q)
    · exact Or.inr (Or.inl rfl)
    · exact Or.inr (Or.inr (Or.inl rfl))
    · exact Or.inr (Or.inr (Or.inr ⟨[], List.nil_prefix, rfl⟩))
  · exact Or.inr (Or.inr (Or.inr ⟨body, hbody, rfl⟩))

/-- **Typing the name of a file behind a finished query disturbs a user at one keystroke only**: at
the first sign of `>>`, if the last clause takes it for a word of its own. -/
theorem read_of_typing_dump_iff {q f p : Text} (hq : Finished q) (hf : Grammar.IsPhrase f)
    (hp : p <+: q ++ (" >> ".toList ++ f)) (hlength : q.length ≤ p.length) :
    (∃ r, Query.read p true = .ok r) ↔ ¬(p = q ++ sign ∧ TakesSign q) := by
  by_cases hsign : p = q ++ sign ∧ TakesSign q
  · obtain ⟨rfl, htakes⟩ := hsign
    obtain ⟨hcomplete, hnot⟩ := hq.not_conforms_sign htakes
    refine iff_of_false ?_ (not_not_intro ⟨rfl, htakes⟩)
    rintro ⟨r, hr⟩
    obtain rfl := Query.eq_ofText_of_judge hr
    exact hnot ((Query.judge_eq_ok_iff_of_isComplete hcomplete).mp hr)
  refine iff_of_true ?_ hsign
  rcases typing_dump_cases hp hlength with rfl | rfl | rfl | ⟨body, hbody, rfl⟩
  · exact hq.accepted
  · refine hq.read_append ?_
    rw [Query.ofText_append_blank q blank_space]
    exact .refl _
  · exact hq.read_append (hq.judgedAlike_sign fun htakes => hsign ⟨rfl, htakes⟩)
  · exact hq.read_append (hq.judgedAlike_dump hf hbody)

/-- In the middle of the name of the file. -/
theorem read_of_typing_dump_within_file :
    ∃ r, Query.read "GET * FROM block ON eth >> ou".toList true = .ok r := by
  have hq : Finished "GET * FROM block ON eth".toList := by decide +kernel
  have hf : Grammar.IsPhrase "out.json".toList := by decide +kernel
  refine (read_of_typing_dump_iff hq hf ?_ ?_).mpr ?_
  · decide
  · decide
  · rintro ⟨heq, -⟩
    exact absurd heq (by decide)

/-- **The first sign of `>>` is taken for a part of the chain** before it. -/
theorem read_of_typing_dump_sign :
    Finished "GET * FROM block ON eth".toList ∧ Grammar.IsPhrase "out.json".toList ∧
      "GET * FROM block ON eth >".toList <+:
        "GET * FROM block ON eth".toList ++ (" >> ".toList ++ "out.json".toList) ∧
      "GET * FROM block ON eth".toList.length ≤ "GET * FROM block ON eth >".toList.length ∧
      Query.read "GET * FROM block ON eth >".toList true =
        .error ⟨.unknownChain "eth >".toList, some ⟨20, 25⟩⟩ := by
  decide +kernel

/-- Behind the name of an entity the sign is an identifier. -/
example : Query.read "GET * ON eth FROM block >".toList true =
    .ok (Query.ofText "GET * ON eth FROM block >".toList) := by
  decide +kernel

end Typing

end ChainQuery
