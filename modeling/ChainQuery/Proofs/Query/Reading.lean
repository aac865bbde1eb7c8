import ChainQuery.Proofs.Query.Clauses
import ChainQuery.Proofs.Query.Filters
import ChainQuery.Proofs.Text.Items

/-!
# What the clauses of a query say

Every clause is read by a function of its own. Here stands, for each of them, what it makes of a
text that is written out – a list, a name and what follows it – with white space wherever white
space may be. A query that is put together from such texts is then known component by component:
the head by `ChainQuery.Query.ofText_opening`, and every further clause by
`ChainQuery.Query.ofText_append_clause` and one of the lemmas on
`ChainQuery.Query.withClause`.
-/

namespace ChainQuery

open Text Token

namespace Text

theorem nonempty?_of_ne_nil {s : Text} (h : s ≠ []) : nonempty? s = some s := by
  simp [nonempty?, h]

/-! ### The first word of a text -/

theorem cutAtBlank_of_no_blank {s : Text} (h : ∀ c ∈ s, isBlank c = false) :
    cutAtBlank s = (s, []) := by
  have hall : ∀ c ∈ s, (!isBlank c) = true := fun c hc => by simp [h c hc]
  rw [cutAtBlank, List.takeWhile_eq_self_iff.mpr hall, List.dropWhile_eq_nil_iff.mpr hall]
  rfl

theorem cutAtBlank_append {s : Text} (h : ∀ c ∈ s, isBlank c = false) {c : Char}
    (hc : isBlank c = true) (t : Text) : cutAtBlank (s ++ c :: t) = (s, t) := by
  have hall : ∀ d ∈ s, (!isBlank d) = true := fun d hd => by simp [h d hd]
  rw [cutAtBlank, List.takeWhile_append_of_pos hall, List.dropWhile_append_of_pos hall]
  simp [hc]

/-- A text that is not blank has a first word. -/
theorem exists_first_word {s : Text} (h : ¬Blank s) :
    ∃ v name rest, s = v ++ (name ++ rest) ∧ Blank v ∧ name ≠ [] ∧
      (∀ c ∈ name, isBlank c = false) ∧ ∀ c ∈ rest.head?, isBlank c = true := by
  obtain ⟨v, hv, hs⟩ := exists_eq_blank_append_trimStart s
  obtain ⟨c, t, hcase⟩ := List.exists_cons_of_ne_nil fun hcon => h (trimStart_eq_nil_iff.mp hcon)
  have hc := isBlank_head_trimStart hcase
  refine ⟨v, (trimStart s).takeWhile (!isBlank ·), (trimStart s).dropWhile (!isBlank ·), ?_, hv, ?_,
    ?_, ?_⟩
  · rwa [List.takeWhile_append_dropWhile]
  · simp [hcase, hc]
  · intro d hd
    simpa using List.mem_takeWhile_imp hd
  · intro d hd
    have hhead := List.head?_dropWhile_not (!isBlank ·) (trimStart s)
    rw [Option.mem_def.mp hd] at hhead
    simpa using hhead

theorem beginsWith_append (s t : Text) : beginsWith s (s ++ t) = true := by
  simp [beginsWith]

end Text

namespace Query

/-! ### The head -/

theorem not_blank_opening_append (list : Text) : ¬Blank (opening ++ list) := by
  intro h
  have hG := (blank_append.mp h).1 'G' (by decide)
  exact absurd hG (by decide)

theorem trim_opening_append {list : Text} (h : ¬Blank list) :
    trim (opening ++ list) = opening ++ trimEnd list := by
  have hstart : trimStart (opening ++ list) = opening ++ list :=
    trimStart_cons_of_not_blank (by decide) _
  rw [trim, hstart, trimEnd_append_of_not_blank _ h]

/-- **The fields are the items of what follows `GET` and a space**, the wildcard being no
exception. -/
theorem readFields_opening_append (list : Text) :
    readFields (opening ++ list) = some (items list) := by
  rw [readFields, dropOpening?_append, Option.map_some]
  simp only [items_trim]
  split
  · next hw =>
    rw [← items_trim, hw]
    rfl
  · rfl

theorem readFields_opening {list : Text} (h : ¬Blank list) :
    readFields (trim (opening ++ list)) = some (items list) := by
  rw [trim_opening_append h, readFields_opening_append, ← items_trim, trim_trimEnd, items_trim]

theorem quiet_opening_append {list : Text} (h : Text.Quiet list) :
    Text.Quiet (opening ++ list) := by
  have hopening : Text.Quiet opening := by
    unfold Text.Quiet
    decide
  refine hopening.append h ?_
  exact apart_blank_left ['G', 'E', 'T'] blank_space (by simp) list

theorem clauses_opening {list : Text} (h : Text.Quiet list) :
    Clauses.ofText (opening ++ list) = ⟨lexemes (trim (opening ++ list)), []⟩ :=
  Clauses.ofText_of_quiet (quiet_opening_append h)

/-- **A list of fields makes a query**, together with the entity that the fields imply. -/
theorem ofText_opening {list : Text} (h : Text.Quiet list) (hne : ¬Blank list) :
    ofText (opening ++ list) =
      { fields := some (items list)
        entity := (impliedEntity? (items list)).map Entity.name
        lastKeyword := some .fields } := by
  have hhead : headKeyword? (trim (opening ++ list)) = some .fields := by
    have hbegin : Text.beginsWith Keyword.fields.text (opening ++ trimEnd list) = true :=
      beginsWith_append Keyword.fields.text (' ' :: trimEnd list)
    rw [headKeyword?, trim_opening_append hne, hbegin]
    rfl
  rw [ofText_eq, clauses_opening h]
  simp only [ofClauses, stretch_lexemes, trim_trim, readFields_opening hne, hhead]
  rfl

/-! ### The entity -/

/-- **A word at the beginning of the clause is the name of an entity**, and what follows it is
an identifier. -/
theorem readEntity_name {v name rest : Text} (hv : Blank v) (hne : name ≠ [])
    (hname : ∀ c ∈ name, isBlank c = false) (hrest : ∀ c ∈ rest.head?, isBlank c = true) :
    readEntity (trim (v ++ (name ++ rest))) = some (lower name, nonempty? (trim rest)) := by
  have hsolid := solid_of_no_blank hne hname
  rw [trim_blank_append hv]
  by_cases hblank : Blank rest
  · rw [trim_append_blank _ hblank, hsolid.trim, readEntity, hsolid.trim,
      cutAtBlank_of_no_blank hname, trim_eq_nil_iff.mpr hblank]
    simp [hne, nonempty?, trim_eq_nil_iff.mpr blank_nil]
  · obtain ⟨c, r, rfl⟩ := List.exists_cons_of_ne_nil
      (fun hcon => hblank (by rw [hcon]; exact blank_nil) : rest ≠ [])
    have hc : isBlank c = true := hrest c rfl
    have hr : ¬Blank r := fun hcon => hblank (blank_cons.mpr ⟨hc, hcon⟩)
    obtain ⟨d, u, hname'⟩ := List.exists_cons_of_ne_nil hne
    have htrim : trim (name ++ c :: r) = name ++ c :: trimEnd r := by
      have hstart : trimStart (name ++ c :: r) = name ++ c :: r := by
        rw [hname', List.cons_append]
        exact trimStart_cons_of_not_blank (hname d (by simp [hname'])) _
      have hend : trimEnd ([c] ++ r) = [c] ++ trimEnd r := trimEnd_append_of_not_blank [c] hr
      rw [trim, hstart, trimEnd_append_of_not_blank _ hblank]
      exact congrArg (name ++ ·) hend
    have hrest' : trim (c :: r) = trim r := trim_blank_append (w := [c]) (by simpa using hc) r
    rw [htrim, readEntity, ← htrim, trim_trim, htrim, cutAtBlank_append hname hc]
    simp [hne, trim_trimEnd, hrest']

/-- What is put behind a clause and white space does not change the name in it. -/
theorem exists_readEntity_append {s w : Text} (hs : ¬Blank s)
    (hw : ∀ c ∈ w.head?, isBlank c = true) :
    ∃ name i j, readEntity (trim s) = some (name, i) ∧
      readEntity (trim (s ++ w)) = some (name, j) := by
  obtain ⟨v, name, rest, rfl, hv, hne, hname, hrest⟩ := exists_first_word hs
  have hrest' : ∀ c ∈ (rest ++ w).head?, isBlank c = true := by
    cases rest with
    | nil => exact hw
    | cons d rest => exact hrest
  refine ⟨lower name, nonempty? (trim rest), nonempty? (trim (rest ++ w)),
    readEntity_name hv hne hname hrest, ?_⟩
  rw [List.append_assoc, List.append_assoc]
  exact readEntity_name hv hne hname hrest'

theorem withClause_entity (q : Query) {v name rest : Text} (hv : Blank v) (hne : name ≠ [])
    (hname : ∀ c ∈ name, isBlank c = false) (hrest : ∀ c ∈ rest.head?, isBlank c = true) :
    q.withClause .entity (lexemes (v ++ (name ++ rest))) =
      { q with entity := some (lower name), identifier := nonempty? (trim rest) } := by
  rw [withClause, stretch_lexemes, readEntity_name hv hne hname hrest]

/-! ### Filters, chains and the file -/

theorem withClause_filters (q : Query) (s : Text) :
    q.withClause .filters (lexemes s) =
      { q with filters := if s.filters.isEmpty then none else some s.filters } := by
  rw [withClause, readFilters_lexemes]

theorem filterList_withClause (q : Query) (s : Text) :
    (q.withClause .filters (lexemes s)).filterList = s.filters := by
  rw [withClause_filters, filterList]
  cases s.filters <;> rfl

theorem readChains_trim (s : Text) :
    readChains (trim s) =
      if (items s).isEmpty then none else some ((items s).map lower) := by
  rw [readChains, items_trim]
  cases items s <;> rfl

theorem withClause_chains (q : Query) (s : Text) :
    q.withClause .chains (lexemes s) =
      { q with chains := if (items s).isEmpty then none else some ((items s).map lower) } := by
  rw [withClause, stretch_lexemes, readChains_trim]

theorem withClause_dump (q : Query) (s : Text) :
    q.withClause .dump (lexemes s) = { q with dump := nonempty? (trim s) } := by
  rw [withClause, stretch_lexemes, readDump, trim_trim]

end Query

end ChainQuery
