import ChainQuery.Query.Judgement
import ChainQuery.Proofs.Query.Reading

/-!
# How queries are written

A query that is written out in full is a **statement**: fields, and after them, each if it is
there, the clauses for the entity, the filters, the chains and the file. There are many ways to
write the same statement, since white space may stand around every comma, operator and keyword;
`ChainQuery.Grammar.Spells` is the relation between a statement and the texts that spell it.

| part | what may stand there |
|---|---|
| a field, a chain | `ChainQuery.Grammar.IsItem`: a word without commas |
| the name of an entity | `ChainQuery.Grammar.IsWord`: anything without white space that is no keyword |
| an identifier, a file | `ChainQuery.Grammar.IsPhrase`: words, none of them a keyword |
| the value of a filter | `ChainQuery.Grammar.IsValue`: a phrase with its commas in parentheses |

Reading undoes spelling: whichever way a statement is spelled, what is read is
`ChainQuery.Grammar.Statement.meaning` of it (`ChainQuery.Grammar.read_of_spells`).
-/

namespace ChainQuery

open Text Token

namespace Grammar

/-! ### The parts of a query -/

/-- **A word**: no white space, and not the spelling of a keyword between clauses. -/
structure IsWord (s : Text) : Prop where
  /-- Something is there. -/
  ne_nil : s ≠ []
  /-- There is no white space. -/
  no_blank : ∀ c ∈ s, isBlank c = false
  /-- The word is none of the keywords that divide clauses. -/
  not_keyword : ∀ k : Keyword, k ≠ .fields → s ≠ k.text

/-- **An item of a list**: a word without commas. -/
structure IsItem (s : Text) : Prop extends IsWord s where
  /-- There is no comma. -/
  no_comma : ',' ∉ s

/-- **A phrase**: words with white space between them, none of which is a keyword. -/
structure IsPhrase (s : Text) : Prop where
  /-- No white space stands at the ends. -/
  solid : Solid s
  /-- No keyword is found, even behind white space. -/
  quiet : Quiet s

/-- **The value of a filter**: a phrase that keeps its commas inside parentheses, and closes the
parentheses that it opens. -/
structure IsValue (s : Text) : Prop extends IsPhrase s where
  /-- Every comma stands inside a parenthesis. -/
  sheltered : Sheltered s
  /-- No parenthesis is left open. -/
  closed : depth s = 0

/-- **The field of a filter**: an identifier that is not the spelling of a keyword. -/
structure IsField (s : Text) : Prop where
  /-- Something is there. -/
  ne_nil : s ≠ []
  /-- There are letters, digits and underscores only. -/
  identifier : ∀ c ∈ s, isIdentifierChar c = true
  /-- The identifier is none of the keywords that divide clauses. -/
  not_keyword : ∀ k : Keyword, k ≠ .fields → s ≠ k.text

theorem forall_keyword_iff {p : Keyword → Prop} : (∀ k, p k) ↔ ∀ k ∈ Keyword.all, p k :=
  ⟨fun h k _ => h k, fun h k => h k (Keyword.mem_all k)⟩

instance (s : Text) : Decidable (IsWord s) :=
  decidable_of_iff (s ≠ [] ∧ (∀ c ∈ s, isBlank c = false) ∧
      ∀ k ∈ Keyword.all, k ≠ .fields → s ≠ k.text)
    ⟨fun ⟨hne, hblank, hk⟩ => ⟨hne, hblank, forall_keyword_iff.mpr hk⟩,
      fun h => ⟨h.ne_nil, h.no_blank, forall_keyword_iff.mp h.not_keyword⟩⟩

instance (s : Text) : Decidable (IsItem s) :=
  decidable_of_iff (IsWord s ∧ ',' ∉ s)
    ⟨fun ⟨hword, hcomma⟩ => ⟨hword, hcomma⟩, fun h => ⟨h.toIsWord, h.no_comma⟩⟩

instance (s : Text) : Decidable (IsPhrase s) :=
  decidable_of_iff (Solid s ∧ Quiet s)
    ⟨fun ⟨hsolid, hquiet⟩ => ⟨hsolid, hquiet⟩, fun h => ⟨h.solid, h.quiet⟩⟩

instance (s : Text) : Decidable (IsValue s) :=
  decidable_of_iff (IsPhrase s ∧ Sheltered s ∧ depth s = 0)
    ⟨fun ⟨hphrase, hsheltered, hclosed⟩ => ⟨hphrase, hsheltered, hclosed⟩,
      fun h => ⟨h.toIsPhrase, h.sheltered, h.closed⟩⟩

instance (s : Text) : Decidable (IsField s) :=
  decidable_of_iff (s ≠ [] ∧ (∀ c ∈ s, isIdentifierChar c = true) ∧
      ∀ k ∈ Keyword.all, k ≠ .fields → s ≠ k.text)
    ⟨fun ⟨hne, hid, hk⟩ => ⟨hne, hid, forall_keyword_iff.mpr hk⟩,
      fun h => ⟨h.ne_nil, h.identifier, forall_keyword_iff.mp h.not_keyword⟩⟩

theorem IsWord.solid {s : Text} (h : IsWord s) : Solid s := solid_of_no_blank h.ne_nil h.no_blank

theorem IsWord.quiet {s : Text} (h : IsWord s) : Quiet s := quiet_of_no_blank h.no_blank h.not_keyword

theorem IsField.isWord {s : Text} (h : IsField s) : IsWord s where
  ne_nil := h.ne_nil
  no_blank := fun c hc => by
    cases hb : isBlank c with
    | false => rfl
    | true =>
      have := ofChar?_of_isIdentifierChar (h.identifier c hc)
      rw [Kind.ofChar?_of_blank hb] at this
      cases this
  not_keyword := h.not_keyword

/-- A field, an operator and a value. -/
structure Comparison where
  /-- The field that is compared. -/
  field : Text
  /-- The comparison that is made. -/
  operator : Operator
  /-- What the field is compared with. -/
  value : Text

/-- The filter that a comparison is. -/
def Comparison.toFilter (c : Comparison) : Filter := ⟨c.field, some c.operator, some c.value⟩

/-- **A statement**: a query that is written out in full. -/
structure Statement where
  /-- The fields asked for. -/
  fields : List Text
  /-- The name of the entity, and the identifier if there is one. -/
  source : Option (Text × Option Text) := none
  /-- The comparisons of the filters. -/
  filters : Option (List Comparison) := none
  /-- The chains. -/
  chains : Option (List Text) := none
  /-- The file. -/
  dump : Option Text := none

namespace Statement

/-- The keyword of the last clause of a statement. -/
def lastKeyword (st : Statement) : Keyword :=
  if st.dump.isSome then .dump
  else if st.chains.isSome then .chains
  else if st.filters.isSome then .filters
  else if st.source.isSome then .entity
  else .fields

/-- **What a statement says.** Without the name of an entity the fields imply one, or none. -/
def meaning (st : Statement) : Query where
  fields := some st.fields
  entity :=
    match st.source with
    | some (name, _) => some (lower name)
    | none => (impliedEntity? st.fields).map Entity.name
  identifier := st.source.bind Prod.snd
  filters := st.filters.map (List.map Comparison.toFilter)
  chains := st.chains.map (List.map lower)
  dump := st.dump
  lastKeyword := some st.lastKeyword

end Statement

/-! ### Spelling -/

/-- **The spellings of a list**: items between commas, with white space around them. -/
inductive Listed {α : Type} (Item : α → Text → Prop) : List α → Text → Prop
  /-- A single item. -/
  | one {x : α} {v s w : Text} (hv : Blank v) (hx : Item x s) (hw : Blank w) :
      Listed Item [x] (v ++ s ++ w)
  /-- An item and a comma before other items. -/
  | more {x : α} {v s w : Text} {xs : List α} {t : Text} (hv : Blank v) (hx : Item x s)
      (hw : Blank w) (ht : Listed Item xs t) : Listed Item (x :: xs) (v ++ s ++ w ++ ',' :: t)

/-- The spelling of a field or a chain is the item itself. -/
def SpellsItem (x s : Text) : Prop := s = x ∧ IsItem x

/-- **The spellings of a comparison.** White space may stand around the operator, and has to
stand behind it if the value begins with a sign. -/
inductive SpellsComparison : Comparison → Text → Prop
  /-- A field, an operator and a value. -/
  | mk {c : Comparison} {gap gap' : Text} (hfield : IsField c.field) (hgap : Blank gap)
      (hgap' : Blank gap') (hseam : gap' ≠ [] ∨ ∀ d ∈ c.value.head?, Operator.isSign d = false)
      (hvalue : IsValue c.value) :
      SpellsComparison c (comparisonText c.field gap c.operator gap' c.value)

/-- **The spellings of the clause that names the entity.** -/
inductive SpellsSource : Text × Option Text → Text → Prop
  /-- A name alone. -/
  | name {name : Text} (hname : IsWord name) : SpellsSource (name, none) name
  /-- A name and an identifier. -/
  | identified {name gap identifier : Text} (hname : IsWord name) (hgap : Blank gap)
      (hne : gap ≠ []) (hid : IsPhrase identifier) :
      SpellsSource (name, some identifier) (name ++ (gap ++ identifier))

/-- The spelling of a file is its name. -/
def SpellsFile (x s : Text) : Prop := s = x ∧ IsPhrase x

/-- **The spellings of a clause** that may be missing: the keyword, with white space on both
sides, and the body. -/
inductive SpellsClause {α : Type} (k : Keyword) (Body : α → Text → Prop) :
    Option α → Text → Prop
  /-- Nothing stands there. -/
  | absent : SpellsClause k Body none []
  /-- The keyword and the body. -/
  | present {x : α} {gap gap' s : Text} (hgap : Blank gap) (hne : gap ≠ []) (hgap' : Blank gap')
      (hne' : gap' ≠ []) (hx : Body x s) :
      SpellsClause k Body (some x) (gap ++ (k.text ++ (gap' ++ s)))

/-- **The spellings of a statement**: `GET` and a space, the fields, and the clauses in their
order; white space around the whole says nothing. -/
inductive Spells : Statement → Text → Prop
  /-- The fields and four clauses, each of which may be missing. -/
  | mk {st : Statement} {v list source filters chains dump w : Text} (hv : Blank v)
      (hfields : Listed SpellsItem st.fields list)
      (hsource : SpellsClause .entity SpellsSource st.source source)
      (hfilters : SpellsClause .filters (Listed SpellsComparison) st.filters filters)
      (hchains : SpellsClause .chains (Listed SpellsItem) st.chains chains)
      (hdump : SpellsClause .dump SpellsFile st.dump dump) (hw : Blank w) :
      Spells st (v ++ (Query.opening ++ list ++ source ++ filters ++ chains ++ dump) ++ w)

/-! ### Lists are read item by item -/

theorem Listed.quiet {α : Type} {Item : α → Text → Prop} {xs : List α} {t : Text}
    (h : Listed Item xs t) (hquiet : ∀ x s, Item x s → Quiet s) : Quiet t := by
  induction h with
  | one hv hx hw => exact (Quiet.blank_append hv (hquiet _ _ hx)).append_blank hw
  | more hv hx hw _ ih =>
    exact ((Quiet.blank_append hv (hquiet _ _ hx)).append_blank hw).append_comma ih

theorem quiet_of_spellsItem {x s : Text} (h : SpellsItem x s) : Quiet s := by
  obtain ⟨rfl, hitem⟩ := h
  exact hitem.quiet

theorem items_of_listed {xs : List Text} {t : Text} (h : Listed SpellsItem xs t) :
    items t = xs := by
  induction h with
  | one hv hx hw =>
    obtain ⟨rfl, hitem⟩ := hx
    exact items_blank_solid_blank hv hitem.solid hitem.no_comma hw
  | more hv hx hw _ ih =>
    obtain ⟨rfl, hitem⟩ := hx
    rw [items_append_comma, items_blank_solid_blank hv hitem.solid hitem.no_comma hw, ih]
    rfl

theorem Listed.ne_nil {α : Type} {Item : α → Text → Prop} {xs : List α} {t : Text}
    (h : Listed Item xs t) : xs ≠ [] := by
  cases h <;> simp

/-- A comparison keeps its parts apart. -/
theorem apart_of_seam {op : Operator} {gap value : Text} (hgap : Blank gap)
    (h : gap ≠ [] ∨ ∀ d ∈ value.head?, Operator.isSign d = false) :
    Apart op.text (gap ++ value) := by
  by_cases hne : gap = []
  · subst hne
    exact apart_operator op (h.resolve_left fun hcon => hcon rfl)
  · exact apart_blank_right _ hgap hne value

theorem quiet_of_spellsComparison {c : Comparison} {s : Text} (h : SpellsComparison c s) :
    Quiet s := by
  cases h with
  | mk hfield hgap hgap' hseam hvalue =>
    exact quiet_comparisonText hfield.identifier hfield.isWord.quiet hgap hgap'
      (apart_of_seam hgap' hseam) hvalue.quiet

theorem filters_of_spellsComparison {c : Comparison} {s v w : Text} (h : SpellsComparison c s)
    (hv : Blank v) (hw : Blank w) :
    filters (v ++ s ++ w) = [c.toFilter] ∧ depth (v ++ s ++ w) = 0 := by
  cases h with
  | @mk gap gap' hfield hgap hgap' hseam hvalue =>
    have hsolid := hvalue.solid
    have hblank : ¬Blank (comparisonText c.field gap c.operator gap' c.value) := by
      intro hcon
      exact hfield.isWord.solid.not_blank (blank_append.mp hcon).1
    constructor
    · rw [filters_append_blank _ hw, filters_blank_append hv,
        filters_of_sheltered (sheltered_comparisonText hfield.identifier hgap hgap'
          hvalue.sheltered) hblank,
        Filter.ofTokens_comparison hfield.ne_nil hfield.identifier hgap hgap'
          (apart_of_seam hgap' hseam), hsolid.trim, nonempty?_of_ne_nil hsolid.ne_nil]
      rfl
    · have hdepth : depth (comparisonText c.field gap c.operator gap' c.value) = depth c.value :=
        depth_comparisonText hfield.identifier hgap hgap'
      rw [depth] at hdepth ⊢
      rw [depthFrom_append, depthFrom_append, depthFrom_of_blank hv, depthFrom_of_blank hw,
        hdepth, hvalue.closed]

theorem filters_of_listed {cs : List Comparison} {t : Text} (h : Listed SpellsComparison cs t) :
    filters t = cs.map Comparison.toFilter := by
  induction h with
  | one hv hx hw => exact (filters_of_spellsComparison hx hv hw).1
  | more hv hx hw _ ih =>
    obtain ⟨hfilters, hdepth⟩ := filters_of_spellsComparison hx hv hw
    rw [filters_append_comma hdepth, hfilters, ih]
    rfl

/-! ### Clauses are read one after the other -/

/-- **A spelled clause is read for itself**: when `tell` says what the clause tells a query,
that is what it tells, and no other clause is found in it. -/
theorem SpellsClause.ofText_append {α : Type} {k : Keyword} {Body : α → Text → Prop}
    (tell : α → Query → Query) {o : Option α} {t : Text} (h : SpellsClause k Body o t)
    (hk : k ≠ .fields) (hquiet : ∀ x s, Body x s → Quiet s)
    (htell : ∀ q x gap s, Blank gap → Body x s →
      Query.withClause q k (lexemes (gap ++ s)) = tell x q)
    {s : Text} (hs : ¬Blank s) (hnew : (Clauses.ofText s).first? k = none) :
    Query.ofText (s ++ t) =
        (match o with
          | none => Query.ofText s
          | some x => { tell x (Query.ofText s) with lastKeyword := some k }) ∧
      ¬Blank (s ++ t) ∧
      ∀ l, l ≠ k → (Clauses.ofText (s ++ t)).first? l = (Clauses.ofText s).first? l := by
  cases h with
  | absent =>
    rw [List.append_nil]
    exact ⟨rfl, hs, fun l _ => rfl⟩
  | @present x gap gap' b hgap hne hgap' hne' hx =>
    have hs' : ¬Blank (s ++ gap) := fun hcon => hs (blank_append.mp hcon).1
    have hend : blankEnd (s ++ gap) ≠ [] := by
      rw [blankEnd_append_blank s hgap]
      simp [hne]
    have hstart : ∀ c ∈ (gap' ++ b).head?, isBlank c = true := by
      intro c hc
      rw [List.head?_append_of_ne_nil _ hne'] at hc
      exact hgap' c (List.mem_of_mem_head? hc)
    have hbody : Quiet (gap' ++ b) := Quiet.blank_append hgap' (hquiet _ _ hx)
    rw [← List.append_assoc]
    refine ⟨?_, fun hcon => hs' (blank_append.mp hcon).1, fun l hl => ?_⟩
    · rw [Query.ofText_append_clause hs' hend hk hstart hbody
        (by rwa [Clauses.ofText_append_blank s hgap]), Query.ofText_append_blank s hgap,
        htell _ _ _ _ hgap' hx]
    · rw [Clauses.first?_ofText_append_clause hs' hend hk hstart hbody,
        Clauses.ofText_append_blank s hgap, if_neg fun hcon => hl hcon.symm, Option.or_none]

theorem quiet_of_spellsSource {x : Text × Option Text} {s : Text} (h : SpellsSource x s) :
    Quiet s := by
  cases h with
  | name hname => exact hname.quiet
  | identified hname hgap hne hid =>
    exact hname.quiet.append (Quiet.blank_append hgap hid.quiet) (apart_blank_right _ hgap hne _)

theorem quiet_of_spellsFile {x s : Text} (h : SpellsFile x s) : Quiet s := by
  obtain ⟨rfl, hphrase⟩ := h
  exact hphrase.quiet

theorem withClause_of_spellsSource (q : Query) {x : Text × Option Text} {gap s : Text}
    (hgap : Blank gap) (h : SpellsSource x s) :
    q.withClause .entity (lexemes (gap ++ s)) =
      { q with entity := some (lower x.1), identifier := x.2 } := by
  cases h with
  | @name name hname =>
    have hstart : ∀ c ∈ ([] : Text).head?, isBlank c = true := by simp
    have hread := Query.withClause_entity q hgap hname.ne_nil hname.no_blank hstart
    rwa [List.append_nil, trim_eq_nil_iff.mpr blank_nil] at hread
  | @identified name gap' id hname hgap' hne hid =>
    have hstart : ∀ c ∈ (gap' ++ id).head?, isBlank c = true := by
      intro c hc
      rw [List.head?_append_of_ne_nil _ hne] at hc
      exact hgap' c (List.mem_of_mem_head? hc)
    rw [Query.withClause_entity q hgap hname.ne_nil hname.no_blank hstart,
      trim_blank_append hgap', hid.solid.trim, nonempty?_of_ne_nil hid.solid.ne_nil]

theorem withClause_of_spellsComparisons (q : Query) {cs : List Comparison} {gap s : Text}
    (hgap : Blank gap) (h : Listed SpellsComparison cs s) :
    q.withClause .filters (lexemes (gap ++ s)) =
      { q with filters := some (cs.map Comparison.toFilter) } := by
  rw [Query.withClause_filters, filters_blank_append hgap, filters_of_listed h]
  simp [h.ne_nil]

theorem withClause_of_spellsChains (q : Query) {xs : List Text} {gap s : Text}
    (hgap : Blank gap) (h : Listed SpellsItem xs s) :
    q.withClause .chains (lexemes (gap ++ s)) = { q with chains := some (xs.map lower) } := by
  rw [Query.withClause_chains, items_blank_append hgap, items_of_listed h]
  simp [h.ne_nil]

theorem withClause_of_spellsFile (q : Query) {x gap s : Text} (hgap : Blank gap)
    (h : SpellsFile x s) :
    q.withClause .dump (lexemes (gap ++ s)) = { q with dump := some x } := by
  obtain ⟨rfl, hphrase⟩ := h
  rw [Query.withClause_dump, trim_blank_append hgap, hphrase.solid.trim,
    nonempty?_of_ne_nil hphrase.solid.ne_nil]

/-! ### Reading undoes spelling -/

/-- A spelled list of fields is a query of its own. -/
theorem ofText_of_listed {fields : List Text} {list : Text} (h : Listed SpellsItem fields list) :
    Query.ofText (Query.opening ++ list) =
      { fields := some fields
        entity := (impliedEntity? fields).map Entity.name
        lastKeyword := some .fields } := by
  have hne : ¬Blank list := by
    intro hcon
    exact h.ne_nil (by rw [← items_of_listed h, items_of_blank hcon])
  rw [Query.ofText_opening (h.quiet fun _ _ => quiet_of_spellsItem) hne, items_of_listed h]

/-- **Reading undoes spelling.** Whichever way a statement is written, with whatever white space
around its commas, operators and keywords, what is read is what the statement says. -/
theorem read_of_spells {st : Statement} {raw : Text} (h : Spells st raw) :
    Query.read raw false = .ok st.meaning := by
  cases h with
  | @mk v list source filters chains dump w hv hfields hsource hfilters hchains hdump hw =>
    have hlist : Quiet list := hfields.quiet fun _ _ => quiet_of_spellsItem
    have hnone : ∀ k, (Clauses.ofText (Query.opening ++ list)).first? k = none := by
      intro k
      rw [Query.clauses_opening hlist]
      rfl
    -- the clauses are read in their order, and each leaves the later ones to be found
    obtain ⟨hq₁, hb₁, hf₁⟩ := SpellsClause.ofText_append
      (fun x q => { q with entity := some (lower x.1), identifier := x.2 }) hsource (by simp)
      (fun _ _ => quiet_of_spellsSource)
      (fun q x gap s hgap hx => withClause_of_spellsSource q hgap hx)
      (Query.not_blank_opening_append list) (hnone _)
    obtain ⟨hq₂, hb₂, hf₂⟩ := SpellsClause.ofText_append
      (fun cs q => { q with filters := some (cs.map Comparison.toFilter) }) hfilters (by simp)
      (fun _ _ hx => hx.quiet fun _ _ => quiet_of_spellsComparison)
      (fun q x gap s hgap hx => withClause_of_spellsComparisons q hgap hx) hb₁
      (by rw [hf₁ _ (by simp), hnone])
    obtain ⟨hq₃, hb₃, hf₃⟩ := SpellsClause.ofText_append
      (fun xs q => { q with chains := some (xs.map lower) }) hchains (by simp)
      (fun _ _ hx => hx.quiet fun _ _ => quiet_of_spellsItem)
      (fun q x gap s hgap hx => withClause_of_spellsChains q hgap hx) hb₂
      (by rw [hf₂ _ (by simp), hf₁ _ (by simp), hnone])
    obtain ⟨hq₄, -, -⟩ := SpellsClause.ofText_append
      (fun x q => { q with dump := some x }) hdump (by simp) (fun _ _ => quiet_of_spellsFile)
      (fun q x gap s hgap hx => withClause_of_spellsFile q hgap hx) hb₃
      (by rw [hf₃ _ (by simp), hf₂ _ (by simp), hf₁ _ (by simp), hnone])
    have hread : Query.ofText (v ++ (Query.opening ++ list ++ source ++ filters ++ chains ++ dump)
        ++ w) = Query.ofText (Query.opening ++ list ++ source ++ filters ++ chains ++ dump) := by
      rw [Query.ofText_append_blank _ hw, Query.ofText, trim_blank_append hv, Query.ofText]
    rw [Query.read, hread, hq₄, hq₃, hq₂, hq₁, ofText_of_listed hfields]
    -- what is left is to collect what the clauses have told, whichever of them are there
    obtain ⟨fields, source, filters, chains, dump⟩ := st
    rcases source with _ | ⟨name, identifier⟩ <;> rcases filters with _ | filters <;>
      rcases chains with _ | chains <;> rcases dump with _ | dump <;> rfl

/-- A query with every clause, and with white space wherever it may stand. -/
theorem read_written_out :
    Query.read
        " GET  hash ,*\tFROM TX  0x, it WHERE gas>=(1, 2),to  != =b ON eth , Base >> a b.csv\n".toList
        false =
      .ok
        { fields := some ["hash".toList, "*".toList]
          entity := some "tx".toList
          identifier := some "0x, it".toList
          filters := some [⟨"gas".toList, some .ge, some "(1, 2)".toList⟩,
            ⟨"to".toList, some .ne, some "=b".toList⟩]
          chains := some ["eth".toList, "base".toList]
          dump := some "a b.csv".toList
          lastKeyword := some .dump } := by
  have hspace : Blank [' '] := by decide
  -- the fields, and one clause after the other, each with its white space
  have hfields : Listed SpellsItem ["hash".toList, "*".toList]
      ([' '] ++ "hash".toList ++ [' '] ++ ',' :: ([] ++ "*".toList ++ [])) :=
    .more hspace ⟨rfl, by decide⟩ hspace (.one blank_nil ⟨rfl, by decide⟩ blank_nil)
  have hsource : SpellsClause .entity SpellsSource (some ("TX".toList, some "0x, it".toList))
      (['\t'] ++ (Keyword.entity.text ++ ([' '] ++ ("TX".toList ++ ("  ".toList ++ "0x, it".toList))))) :=
    .present (by decide) (by decide) hspace (by decide)
      (.identified (by decide) (by decide) (by decide) (by decide))
  have hgas : SpellsComparison ⟨"gas".toList, .ge, "(1, 2)".toList⟩
      (comparisonText "gas".toList [] .ge [] "(1, 2)".toList) :=
    .mk (by decide) blank_nil blank_nil (Or.inr (by decide)) (by decide)
  have hto : SpellsComparison ⟨"to".toList, .ne, "=b".toList⟩
      (comparisonText "to".toList "  ".toList .ne [' '] "=b".toList) :=
    .mk (by decide) (by decide) hspace (Or.inl (by decide)) (by decide)
  have hfilters := SpellsClause.present (k := .filters) hspace (by decide) hspace (by decide)
    (Listed.more blank_nil hgas blank_nil (.one blank_nil hto blank_nil))
  have hchains : SpellsClause .chains (Listed SpellsItem) (some ["eth".toList, "Base".toList])
      ([' '] ++ (Keyword.chains.text ++ ([' '] ++
        ([] ++ "eth".toList ++ [' '] ++ ',' :: ([' '] ++ "Base".toList ++ []))))) :=
    .present hspace (by decide) hspace (by decide)
      (.more blank_nil ⟨rfl, by decide⟩ hspace (.one hspace ⟨rfl, by decide⟩ blank_nil))
  have hdump : SpellsClause .dump SpellsFile (some "a b.csv".toList)
      ([' '] ++ (Keyword.dump.text ++ ([' '] ++ "a b.csv".toList))) :=
    .present hspace (by decide) hspace (by decide) ⟨rfl, by decide⟩
  have hline : Blank ['\n'] := by decide
  have hspells : Spells ⟨_, _, _, _, _⟩ _ :=
    .mk hspace hfields hsource hfilters hchains hdump hline
  exact read_of_spells hspells

end Grammar

end ChainQuery
