import ChainQuery.Proofs.Query.Clauses
import Mathlib.Data.List.Induction

/-!
# Clauses in any order

A query is read clause by clause, and of the clauses that one keyword opens only the first is read.
What a query says is therefore settled by its head and by the **first clause of each kind**: if two
texts have these in common, their queries agree (`ChainQuery.Query.agreesOn_ofClauses`), and can
differ in nothing but the keyword that stands last (`ChainQuery.Query.eq_of_agreesOn`).

Here a text is put together from a head and any number of **written clauses**, which may be empty or
make no sense, as long as no keyword is hidden in them (`ChainQuery.WrittenClause.IsQuiet`). Each
clause is found again with the tokens of its own body, wherever it stands
(`ChainQuery.WrittenClause.first?_written`). So the clauses may be written in any order, and those
that come second may be left out (`ChainQuery.WrittenClause.ofText_written_arranged`).
-/

namespace ChainQuery

open Text Token

namespace Query

/-! ### Queries that agree -/

variable {q q' : Query} {k : Keyword}

/-- **Two queries agree on a clause**: what the clause determines is the same in both. -/
def AgreesOn (q : Query) (k : Keyword) (q' : Query) : Prop :=
  match k with
  | .fields => q'.fields = q.fields
  | .entity => q'.entity = q.entity ∧ q'.identifier = q.identifier
  | .filters => q'.filters = q.filters
  | .chains => q'.chains = q.chains
  | .dump => q'.dump = q.dump

/-- Queries that agree on every clause differ in their last keyword at most. -/
theorem eq_of_agreesOn (h : ∀ k, q.AgreesOn k q') :
    q' = { q with lastKeyword := q'.lastKeyword } := by
  obtain ⟨hentity, hidentifier⟩ := h .entity
  have hfields : q'.fields = q.fields := h .fields
  have hfilters : q'.filters = q.filters := h .filters
  have hchains : q'.chains = q.chains := h .chains
  have hdump : q'.dump = q.dump := h .dump
  rw [← hfields, ← hentity, ← hidentifier, ← hfilters, ← hchains, ← hdump]

/-- **What a clause says is settled by the head and by the first clause of its kind.** The head
counts for the entity too, which it may imply. -/
theorem agreesOn_ofClauses {clauses clauses' : Clauses}
    (hhead : stretch clauses'.head = stretch clauses.head)
    (hfirst : clauses'.first? k = clauses.first? k) :
    (ofClauses clauses).AgreesOn k (ofClauses clauses') := by
  cases k with
  | fields => simp only [AgreesOn, ofClauses, hhead]
  | entity => simp only [AgreesOn, ofClauses, hhead, hfirst, and_self]
  | filters => simp only [AgreesOn, ofClauses, hfirst]
  | chains => simp only [AgreesOn, ofClauses, hfirst]
  | dump => simp only [AgreesOn, ofClauses, hfirst]

end Query

/-! ### Written clauses -/

/-- **A clause as it is written**: a keyword, and what stands behind it. -/
structure WrittenClause where
  /-- The keyword that opens the clause. -/
  keyword : Keyword
  /-- What stands behind the keyword and a space. -/
  body : Text
  deriving DecidableEq, Repr

/-- **A head**: a text that does not begin with white space and holds no keyword. -/
structure IsHead (head : Text) : Prop where
  /-- The first character is not white space. -/
  begins : ∃ c ∈ head.head?, isBlank c = false
  /-- None of the tokens is a keyword. -/
  quiet : ∀ t ∈ tokenize head, t.keyword? = none

instance (head : Text) : Decidable (IsHead head) :=
  decidable_of_iff ((∃ c ∈ head.head?, isBlank c = false) ∧ ∀ t ∈ tokenize head, t.keyword? = none)
    ⟨fun ⟨hbegins, hquiet⟩ => ⟨hbegins, hquiet⟩, fun h => ⟨h.begins, h.quiet⟩⟩

theorem IsHead.not_blank {head : Text} (h : IsHead head) : ¬Blank head := by
  obtain ⟨c, hc, hblank⟩ := h.begins
  intro hall
  rw [hall c (List.mem_of_mem_head? hc)] at hblank
  cases hblank

/-- A head is all that stands before the first clause. -/
theorem IsHead.clauses_eq {head : Text} (h : IsHead head) :
    Clauses.ofText head = ⟨lexemes head, []⟩ := by
  obtain ⟨c, hc, hblank⟩ := h.begins
  obtain ⟨t, rfl⟩ := List.head?_eq_some_iff.mp hc
  have hquiet : Token.Quiet (lexemes (c :: t)) := h.quiet
  rw [Clauses.ofText, tokenize_trim, trimStart_cons_of_not_blank hblank,
    markKeywords_of_quiet hquiet, Clauses.ofTokens_of_quiet (keyword?_of_quiet hquiet)]

namespace WrittenClause

/-- The keyword of a clause and its body, each behind a space. -/
def text (c : WrittenClause) : Text := ' ' :: (c.keyword.text ++ ' ' :: c.body)

/-- **A quiet clause**: it is not opened by `GET`, and no keyword is hidden in it. -/
structure IsQuiet (c : WrittenClause) : Prop where
  /-- `GET` opens no clause. -/
  ne_fields : c.keyword ≠ .fields
  /-- Behind a space the body holds no keyword. -/
  body : Text.Quiet c.body

instance (c : WrittenClause) : Decidable c.IsQuiet :=
  decidable_of_iff (c.keyword ≠ .fields ∧ Text.Quiet c.body)
    ⟨fun ⟨hfields, hbody⟩ => ⟨hfields, hbody⟩, fun h => ⟨h.ne_fields, h.body⟩⟩

/-- **The text of a head and some clauses.** -/
def written (head : Text) (clauses : List WrittenClause) : Text := head ++ clauses.flatMap text

variable {head : Text} {clauses others : List WrittenClause}

theorem written_concat (head : Text) (clauses : List WrittenClause) (c : WrittenClause) :
    written head (clauses ++ [c]) =
      (written head clauses ++ [' ']) ++ (c.keyword.text ++ ' ' :: c.body) := by
  simp [written, text]

/-- **One more clause is found behind the others** with the tokens of its own body, which do not
depend on what precedes it. -/
theorem ofText_written_concat {c : WrittenClause} (hhead : IsHead head) (hc : c.IsQuiet)
    (clauses : List WrittenClause) :
    ∃ opener, Clauses.ofText (written head (clauses ++ [c])) =
      ⟨(Clauses.ofText (written head clauses)).head,
        (Clauses.ofText (written head clauses)).rest ++
          [⟨c.keyword, opener, lexemes (' ' :: c.body)⟩]⟩ := by
  have hblank : ¬Blank (written head clauses ++ [' ']) := fun hall =>
    hhead.not_blank (blank_append.mp (blank_append.mp hall).1).1
  have hend : blankEnd (written head clauses ++ [' ']) ≠ [] := by
    simp [blankEnd_append_blank _ blank_space]
  have hbody : Text.Quiet (' ' :: c.body) := Quiet.blank_append blank_space hc.body
  refine ⟨⟨.keyword c.keyword, blankEnd (written head clauses ++ [' ']), c.keyword.text⟩, ?_⟩
  rw [written_concat, Clauses.ofText_append_clause hblank hend hc.ne_fields
    (by simp) hbody, Clauses.ofText_append_blank _ blank_space]

theorem head_written (hhead : IsHead head) (hclauses : ∀ c ∈ clauses, c.IsQuiet) :
    (Clauses.ofText (written head clauses)).head = lexemes head := by
  induction clauses using List.reverseRecOn with
  | nil => simp [written, hhead.clauses_eq]
  | append_singleton clauses c ih =>
    obtain ⟨opener, hwritten⟩ := ofText_written_concat hhead (hclauses c (by simp)) clauses
    rw [hwritten]
    exact ih fun d hd => hclauses d (List.mem_append_left _ hd)

/-- **The first clause of a kind is the first that is written**, read for itself. -/
theorem first?_written (hhead : IsHead head) (hclauses : ∀ c ∈ clauses, c.IsQuiet) (k : Keyword) :
    (Clauses.ofText (written head clauses)).first? k =
      (clauses.find? fun c => c.keyword == k).map fun c => lexemes (' ' :: c.body) := by
  induction clauses using List.reverseRecOn with
  | nil => simp [written, hhead.clauses_eq, Clauses.first?]
  | append_singleton clauses c ih =>
    obtain ⟨opener, hwritten⟩ := ofText_written_concat hhead (hclauses c (by simp)) clauses
    rw [hwritten, Clauses.first?_concat, ih fun d hd => hclauses d (List.mem_append_left _ hd),
      List.find?_append]
    by_cases hk : c.keyword = k
    · cases clauses.find? fun c => c.keyword == k <;> simp [hk]
    · simp [hk]

/-! ### Arranging clauses -/

/-- **The same clauses in another order**, in which clauses with the same keyword keep theirs. -/
structure Rearranged (clauses others : List WrittenClause) : Prop where
  /-- They are the same clauses. -/
  perm : others.Perm clauses
  /-- Those of one keyword stand in the same order. -/
  keeps : ∀ k, (others.filter fun c => c.keyword == k) = clauses.filter fun c => c.keyword == k

instance (clauses others : List WrittenClause) : Decidable (Rearranged clauses others) :=
  decidable_of_iff (others.Perm clauses ∧ ∀ k ∈ Keyword.all,
      (others.filter fun c => c.keyword == k) = clauses.filter fun c => c.keyword == k)
    ⟨fun ⟨hperm, hkeeps⟩ => ⟨hperm, fun k => hkeeps k (Keyword.mem_all k)⟩,
      fun h => ⟨h.perm, fun k _ => h.keeps k⟩⟩

theorem Rearranged.find?_eq (h : Rearranged clauses others) (k : Keyword) :
    (others.find? fun c => c.keyword == k) = clauses.find? fun c => c.keyword == k := by
  rw [← List.head?_filter, ← List.head?_filter, h.keeps k]

/-- **The clauses without those whose keyword has occurred earlier.** -/
def firsts : List WrittenClause → List WrittenClause
  | [] => []
  | c :: later => c :: (firsts later).filter fun d => d.keyword != c.keyword

theorem sublist_firsts (clauses : List WrittenClause) : (firsts clauses).Sublist clauses := by
  induction clauses with
  | nil => exact List.Sublist.slnil
  | cons c later ih => exact (List.filter_sublist.trans ih).cons_cons c

/-- What is left out is never the first clause of its kind. -/
theorem find?_firsts (k : Keyword) (clauses : List WrittenClause) :
    ((firsts clauses).find? fun c => c.keyword == k) = clauses.find? fun c => c.keyword == k := by
  induction clauses with
  | nil => rfl
  | cons c later ih =>
    rw [firsts, List.find?_cons, List.find?_cons]
    cases hk : c.keyword == k with
    | true => rfl
    | false =>
      -- a clause of this kind has another keyword than the first clause
      have hne : k ≠ c.keyword := Ne.symm (beq_eq_false_iff_ne.mp hk)
      have hkept : ∀ d : WrittenClause,
          decide ((d.keyword != c.keyword) = true ∧ (d.keyword == k) = true) =
            (d.keyword == k) := by
        intro d
        by_cases hd : d.keyword = k
        · simp [hd, hne]
        · simp [hd]
      simp only [List.find?_filter, hkept, ih]

/-- Two texts with the same head and the same first clause of every kind say the same. -/
theorem ofText_written_of_find?_eq (hhead : IsHead head) (hclauses : ∀ c ∈ clauses, c.IsQuiet)
    (hothers : ∀ c ∈ others, c.IsQuiet)
    (hfind : ∀ k, (others.find? fun c => c.keyword == k) = clauses.find? fun c => c.keyword == k) :
    Query.ofText (written head others) =
      { Query.ofText (written head clauses) with
        lastKeyword := (Query.ofText (written head others)).lastKeyword } := by
  refine Query.eq_of_agreesOn fun k => ?_
  rw [Query.ofText_eq, Query.ofText_eq]
  refine Query.agreesOn_ofClauses ?_ ?_
  · rw [head_written hhead hothers, head_written hhead hclauses]
  · rw [first?_written hhead hothers, first?_written hhead hclauses, hfind k]

/-- **The order of clauses says nothing, and neither do clauses that repeat a keyword.** Of the
query that is read, only the last keyword tells whether the clauses have been rearranged, and
whether those whose keyword has occurred before have been left out. -/
theorem ofText_written_arranged (hhead : IsHead head) (hclauses : ∀ c ∈ clauses, c.IsQuiet) :
    (∀ others, Rearranged clauses others →
      Query.ofText (written head others) =
        { Query.ofText (written head clauses) with
          lastKeyword := (Query.ofText (written head others)).lastKeyword }) ∧
    Query.ofText (written head (firsts clauses)) =
      { Query.ofText (written head clauses) with
        lastKeyword :=
          (Query.ofText (written head (firsts clauses))).lastKeyword } := by
  constructor
  · intro others h
    exact ofText_written_of_find?_eq hhead hclauses
      (fun c hc => hclauses c (h.perm.mem_iff.mp hc)) h.find?_eq
  · exact ofText_written_of_find?_eq hhead hclauses
      (fun c hc => hclauses c ((sublist_firsts clauses).subset hc)) fun k => find?_firsts k clauses

/-- The chains in front of the entity, and a second list of chains that makes no sense and is not
read. -/
theorem ofText_written_chains_first :
    (Query.ofText "GET nonce FROM tx 0x1 ON eth ON asdf,".toList).entity = some "tx".toList ∧
      (Query.ofText "GET nonce FROM tx 0x1 ON eth ON asdf,".toList).identifier =
        some "0x1".toList ∧
      (Query.ofText "GET nonce FROM tx 0x1 ON eth ON asdf,".toList).chains =
        some ["eth".toList] ∧
      Query.ofText "GET nonce ON eth FROM tx 0x1 ON asdf,".toList =
        { Query.ofText "GET nonce FROM tx 0x1 ON eth ON asdf,".toList with
          lastKeyword := some .chains } ∧
      Query.ofText "GET nonce FROM tx 0x1 ON eth".toList =
        { Query.ofText "GET nonce FROM tx 0x1 ON eth ON asdf,".toList with
          lastKeyword := some .chains } := by
  let clauses : List WrittenClause :=
    [⟨.entity, "tx 0x1".toList⟩, ⟨.chains, "eth".toList⟩, ⟨.chains, "asdf,".toList⟩]
  let others : List WrittenClause :=
    [⟨.chains, "eth".toList⟩, ⟨.entity, "tx 0x1".toList⟩, ⟨.chains, "asdf,".toList⟩]
  have hhead : IsHead "GET nonce".toList := by decide
  have hclauses : ∀ c ∈ clauses, c.IsQuiet := by decide
  have hothers : Rearranged clauses others := by decide
  obtain ⟨hrearranged, hfirsts⟩ := ofText_written_arranged hhead hclauses
  have hlast : (Query.ofText (written "GET nonce".toList others)).lastKeyword =
      some .chains := by decide +kernel
  have hlast' : (Query.ofText (written "GET nonce".toList (firsts clauses))).lastKeyword =
      some .chains := by decide +kernel
  have hall := hrearranged others hothers
  rw [hlast] at hall
  rw [hlast'] at hfirsts
  exact ⟨by decide +kernel, by decide +kernel, by decide +kernel, hall, hfirsts⟩

end WrittenClause

end ChainQuery
