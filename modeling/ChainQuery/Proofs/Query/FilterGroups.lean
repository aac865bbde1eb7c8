import ChainQuery.Proofs.Token.Slices
import ChainQuery.Proofs.Query.Growth

/-!
# What is read of a clause of filters

A clause of filters is divided by its commas outside parentheses, and by nothing else
(`ChainQuery.Token.DividedInto`): put back between the parts, these commas make the clause again, and
a comma that stands in a part is behind a parenthesis of that part which is still open. The groups
of the clause are its parts, but for those in which nothing stands
(`ChainQuery.Token.dividedInto_iff`).

Each group is one filter, and the filter holds all that was typed from the first token of the group
to its last one (`ChainQuery.Filter.Reads`). Of a comparison only the white space around the operator
is forgotten; what is no comparison is kept as it was typed. So whatever is wrong with a clause is
still there when the query is judged.
-/

namespace ChainQuery

open Text

namespace Token

/-! ### The parts of a clause -/

/-- **Some tokens and their parts**, when `depth` parentheses are open before the first token: the
parts are what stands between the commas outside all parentheses. -/
inductive DividedInto : Nat → List Token → List (List Token) → Prop
  /-- There is no such comma. -/
  | last {depth : Nat} {part : List Token} : ShelteredFrom depth part → DividedInto depth part [part]
  /-- The first such comma stands behind a part. -/
  | more {depth : Nat} {part later : List Token} {comma : Token} {parts : List (List Token)} :
      ShelteredFrom depth part → depthFrom depth part = 0 → comma.kind = .comma →
        DividedInto 0 later parts → DividedInto depth (part ++ comma :: later) (part :: parts)

/-- A token that is no such comma belongs to the first part. -/
theorem DividedInto.cons {depth : Nat} {t : Token} {tokens part : List Token}
    {parts : List (List Token)} (ht : ¬(t.kind = .comma ∧ depth = 0))
    (h : DividedInto (t.depthAfter depth) tokens (part :: parts)) :
    DividedInto depth (t :: tokens) ((t :: part) :: parts) := by
  cases h with
  | last hpart => exact .last (shelteredFrom_cons_iff.mpr ⟨ht, hpart⟩)
  | more hpart hdepth hcomma hlater =>
    exact .more (shelteredFrom_cons_iff.mpr ⟨ht, hpart⟩) hdepth hcomma hlater

theorem dividedInto_groupsFrom (depth : Nat) (tokens : List Token) :
    DividedInto depth tokens ((groupsFrom depth tokens).1 :: (groupsFrom depth tokens).2) := by
  induction tokens generalizing depth with
  | nil => exact .last (shelteredFrom_nil depth)
  | cons t later ih =>
    have hlater := ih (t.depthAfter depth)
    rw [groupsFrom]
    split
    · next h =>
      obtain ⟨hcomma, rfl⟩ := h
      rw [depthAfter_of_comma hcomma] at hlater ⊢
      exact .more (shelteredFrom_nil 0) rfl hcomma hlater
    · next h => exact hlater.cons h

/-- **The parts of some tokens are what the groups are made of.** -/
theorem dividedInto_iff {depth : Nat} {tokens : List Token} {parts : List (List Token)} :
    DividedInto depth tokens parts ↔
      parts = (groupsFrom depth tokens).1 :: (groupsFrom depth tokens).2 := by
  constructor
  · intro h
    induction h with
    | last hpart => rw [groupsFrom_of_sheltered hpart]
    | more hpart hdepth hcomma _ ih =>
      rw [groupsFrom_append_comma hcomma hdepth, groupsFrom_of_sheltered hpart, ih]
      rfl
  · rintro rfl
    exact dividedInto_groupsFrom depth tokens

/-- The groups of some tokens are the parts in which anything stands. -/
theorem exists_dividedInto_groups (tokens : List Token) :
    ∃ parts, DividedInto 0 tokens parts ∧ groups tokens = parts.filter fun part => !part.isEmpty :=
  ⟨_, dividedInto_iff.mpr rfl, rfl⟩

/-! ### The filter of a group -/

theorem operator?_eq_some_iff {t : Token} {op : Operator} :
    t.operator? = some op ↔ t.kind = .operator ∧ t.text = op.text := by
  rw [operator?, Option.ite_none_right_eq_some]
  refine and_congr_right fun _ => ⟨fun h => (Operator.text_of_ofText? h).symm, fun h => ?_⟩
  rw [h, Operator.ofText?_text]

end Token

open Token

/-- **How a filter reads a group of tokens**: the operator and the value are there if the tokens for
them are, and field, operator and value are all that was typed, but for the white space around the
operator. -/
structure Filter.Reads (f : Filter) (group : List Token) : Prop where
  /-- The operator is the second token, behind an identifier. -/
  operator_iff (op : Operator) : f.operator = some op ↔ ∃ field sign value,
    group = field :: sign :: value ∧ field.isIdentifier = true ∧
      sign.kind = .operator ∧ sign.text = op.text
  /-- The value begins with the third token, behind an operator. -/
  isSome_value_iff : f.value.isSome ↔ f.operator.isSome ∧ 3 ≤ group.length
  /-- With a value the group is a comparison. -/
  comparison : ∀ op ∈ f.operator, ∀ value ∈ f.value, ∃ gap gap', Blank gap ∧ Blank gap' ∧
    stretch group = comparisonText f.field gap op gap' value
  /-- Without a value the group is a comparison that has been begun. -/
  begun : ∀ op ∈ f.operator, f.value = none → ∃ gap, Blank gap ∧
    stretch group = f.field ++ (gap ++ op.text)
  /-- Without an operator the group is no comparison, and is kept. -/
  other : f.operator = none → f.field = stretch group

namespace Filter

theorem operator_ofTokens_eq_some_iff {group : List Token} {op : Operator} :
    (ofTokens group).operator = some op ↔ ∃ field sign value,
      group = field :: sign :: value ∧ field.isIdentifier = true ∧ sign.operator? = some op := by
  constructor
  · intro h
    rcases ofTokens_cases group with ⟨field, sign, value, op', rfl, hfield, hsign⟩ | hgroup
    · rw [ofTokens_of_operator hfield hsign] at h
      exact ⟨field, sign, value, rfl, hfield, hsign.trans h⟩
    · rw [hgroup] at h
      cases h
  · rintro ⟨field, sign, value, rfl, hfield, hsign⟩
    rw [ofTokens_of_operator hfield hsign]

/-- **A filter reads its group of tokens**, if these are tokens of a text. -/
theorem reads_ofTokens {group : List Token} (hgaps : ∀ t ∈ group, Blank t.gap)
    (htexts : ∀ t ∈ group, t.text ≠ []) : (ofTokens group).Reads group := by
  have hoperator (op : Operator) : (ofTokens group).operator = some op ↔ ∃ field sign value,
      group = field :: sign :: value ∧ field.isIdentifier = true ∧
        sign.kind = .operator ∧ sign.text = op.text := by
    simp only [operator_ofTokens_eq_some_iff, operator?_eq_some_iff]
  rcases ofTokens_cases group with ⟨field, sign, value, op, rfl, hfield, hsign⟩ | hgroup
  · have htext : sign.text = op.text := (operator?_eq_some_iff.mp hsign).2
    have hgap : Blank sign.gap := hgaps sign (by simp)
    cases value with
    | nil =>
      have hread : ofTokens [field, sign] = ⟨field.text, some op, none⟩ :=
        ofTokens_of_operator hfield hsign []
      rw [hread] at hoperator ⊢
      refine ⟨hoperator, by simp, by simp, fun _ hop _ => ?_, by simp⟩
      obtain rfl := Option.some.inj hop
      exact ⟨sign.gap, hgap, by simp [stretch, htext]⟩
    | cons t rest =>
      have hne : stretch (t :: rest) ≠ [] := by simp [stretch, htexts t (by simp)]
      have hread : ofTokens (field :: sign :: t :: rest) =
          ⟨field.text, some op, some (stretch (t :: rest))⟩ := by
        rw [ofTokens_of_operator hfield hsign, nonempty?_of_ne_nil hne]
      rw [hread] at hoperator ⊢
      refine ⟨hoperator, by simp, fun _ hop _ hvalue => ?_, by simp, by simp⟩
      obtain rfl := Option.some.inj hop
      obtain rfl := Option.some.inj hvalue
      refine ⟨sign.gap, t.gap, hgap, hgaps t (by simp), ?_⟩
      simp [stretch, comparisonText, htext]
  · -- what is no comparison has no operator and no value
    rw [hgroup] at hoperator ⊢
    exact ⟨hoperator, by simp, by simp, by simp, fun _ => rfl⟩

end Filter

namespace Query

/-! ### The filters of a clause -/

/-- **Every filter of a query reads a group of its clause, and nothing of the clause is lost**: the
groups are the parts between the commas outside parentheses in which anything stands, and the
filters of the query are the filters of the groups, each of which stands on a part of the text that
its filter reads. -/
theorem filterList_of_clause {raw : Text} {clause : List Token}
    (hclause : (Clauses.ofText raw).first? .filters = some clause) :
    (∃ parts, DividedInto 0 clause parts ∧
      groups clause = parts.filter fun part => !part.isEmpty) ∧
    (ofText raw).filterList = (groups clause).map Filter.ofTokens ∧
    ∀ group ∈ groups clause,
      StandOn group (stretch group) (trim raw) ∧ (Filter.ofTokens group).Reads group := by
  refine ⟨exists_dividedInto_groups clause, ?_, fun group hgroup => ?_⟩
  · have hlist := filterList_ofClauses (Clauses.ofText raw)
    rwa [hclause, Option.getD_some] at hlist
  · obtain ⟨hne, hamong⟩ := infix_of_mem_groups hgroup
    have htokens : group <:+: tokenize (trim raw) := hamong.trans (Clauses.isInfix_first? hclause)
    refine ⟨standOn_stretch hne htokens, Filter.reads_ofTokens (fun t ht => ?_) fun t ht => ?_⟩
    · exact blank_gap_of_mem_tokenize (htokens.subset ht)
    · exact (solid_text_of_mem_tokenize (htokens.subset ht)).ne_nil

/-- A comparison with a list for its value, one that has been begun, nothing between two commas, and
a letter that no identifier has: three filters, and every group is read. -/
theorem filterList_of_half_typed :
    (ofText "GET * WHERE fee >= f(1, 2), gas <,, é = 1 ON eth".toList).filterList =
        [⟨"fee".toList, some .ge, some "f(1, 2)".toList⟩, ⟨"gas".toList, some .lt, none⟩,
          { field := "é = 1".toList }] ∧
      ∀ group ∈ groups (lexemes " fee >= f(1, 2), gas <,, é = 1".toList),
        StandOn group (stretch group)
          (trim "GET * WHERE fee >= f(1, 2), gas <,, é = 1 ON eth".toList) ∧
        (Filter.ofTokens group).Reads group := by
  have hclause : (Clauses.ofText "GET * WHERE fee >= f(1, 2), gas <,, é = 1 ON eth".toList).first?
      .filters = some (lexemes " fee >= f(1, 2), gas <,, é = 1".toList) := by
    decide +kernel
  obtain ⟨-, hlist, hgroups⟩ := filterList_of_clause hclause
  have hfilters : (groups (lexemes " fee >= f(1, 2), gas <,, é = 1".toList)).map Filter.ofTokens =
      [⟨"fee".toList, some .ge, some "f(1, 2)".toList⟩, ⟨"gas".toList, some .lt, none⟩,
        { field := "é = 1".toList }] := by
    decide +kernel
  exact ⟨hlist.trans hfilters, hgroups⟩

end Query

end ChainQuery
