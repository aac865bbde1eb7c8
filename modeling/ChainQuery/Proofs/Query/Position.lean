import ChainQuery.Proofs.Query.Judgement
import ChainQuery.Proofs.Query.Passages

/-!
# Where a fault shows

A diagnostic marks a stretch of the text that was typed. What it marks is either the whole text,
when the text opens in the wrong way, or the **first occurrence** of the word that the message
quotes (`ChainQuery.Diagnostic.FirstOccurrence`), which is found by searching the text from its
beginning (`ChainQuery.Diagnostic.firstOccurrence?_eq_some_iff`).

The search is for the word as it is *judged*, not as it was typed, and therein lies the one way in
which it fails. Fields and filters are judged as they stand in the text, and so they are always
found. Entities and chains are judged in lower case, and are found exactly when the text happens to
have them in lower case somewhere (`ChainQuery.Query.position_of_read_judging`).
-/

namespace ChainQuery

open Text

namespace Text

/-! ### Searching a text -/

/-- **The search finds the first place** at which a text goes on with what is sought. -/
theorem indexOf?_eq_some_iff {sought s : Text} {n : Nat} :
    indexOf? sought s = some n ↔
      n ≤ s.length ∧ sought <+: s.drop n ∧ ∀ m < n, ¬sought <+: s.drop m := by
  induction s generalizing n with
  | nil =>
    cases sought with
    | nil => cases n <;> simp [indexOf?]
    | cons c sought => simp [indexOf?]
  | cons c s ih =>
    by_cases hbegin : sought <+: c :: s
    · -- the search ends at once, and no place behind the first is the first
      have hfound : indexOf? sought (c :: s) = some 0 := by
        simp [indexOf?, beginsWith, hbegin]
      rw [hfound]
      constructor
      · rintro ⟨rfl⟩
        exact ⟨Nat.zero_le _, hbegin, by simp⟩
      · rintro ⟨-, -, hfirst⟩
        cases n with
        | zero => rfl
        | succ n => exact absurd hbegin (hfirst 0 n.succ_pos)
    · have hnext : indexOf? sought (c :: s) = (indexOf? sought s).map (· + 1) := by
        simp [indexOf?, beginsWith, hbegin]
      rw [hnext]
      cases n with
      | zero => simp [hbegin]
      | succ n =>
        simp only [Option.map_eq_some_iff, Nat.add_right_cancel_iff, exists_eq_right, ih,
          List.length_cons, Nat.add_le_add_iff_right, List.drop_succ_cons]
        refine and_congr_right fun _ => and_congr_right fun _ => ⟨fun hfirst m hm => ?_,
          fun hfirst m hm => hfirst (m + 1) (Nat.succ_lt_succ hm)⟩
        cases m with
        | zero => exact hbegin
        | succ m => exact hfirst m (Nat.lt_of_succ_lt_succ hm)

/-- The search fails exactly when what is sought stands nowhere. -/
theorem isSome_indexOf?_iff {sought s : Text} : (indexOf? sought s).isSome ↔ sought <:+: s := by
  induction s with
  | nil => cases sought <;> simp [indexOf?]
  | cons c s ih =>
    rw [List.infix_cons_iff, ← ih]
    by_cases hbegin : sought <+: c :: s <;> simp [indexOf?, beginsWith, hbegin]

end Text

namespace Diagnostic

/-! ### The first occurrence of a word -/

/-- **The first occurrence of a word** in a text, counted in characters. -/
structure FirstOccurrence (raw word : Text) (span : Span) : Prop where
  /-- The span is as long as the word. -/
  stop_eq : span.stop = span.start + word.length
  /-- The span lies in the text. -/
  stop_le : span.stop ≤ raw.length
  /-- The word stands there. -/
  extract_eq : raw.extract span.start span.stop = word
  /-- The word stands nowhere before. -/
  first : ∀ n < span.start, raw.extract n (n + word.length) ≠ word

theorem prefix_drop_iff {raw word : Text} {n : Nat} :
    word <+: raw.drop n ↔ raw.extract n (n + word.length) = word := by
  rw [List.prefix_iff_eq_take, List.extract_eq_take_drop, Nat.add_sub_cancel_left, eq_comm]

theorem firstOccurrence?_eq_some_iff {raw word : Text} {span : Span} :
    firstOccurrence? raw word = some span ↔ FirstOccurrence raw word span := by
  obtain ⟨start, stop⟩ := span
  simp only [firstOccurrence?, Option.map_eq_some_iff, indexOf?_eq_some_iff, Span.mk.injEq]
  constructor
  · rintro ⟨_, ⟨hle, hword, hfirst⟩, rfl, rfl⟩
    refine ⟨rfl, ?_, prefix_drop_iff.mp hword, fun n hn h =>
      hfirst n hn (prefix_drop_iff.mpr h)⟩
    have hlength := hword.length_le
    rw [List.length_drop] at hlength
    dsimp only
    omega
  · rintro ⟨hstop, hle, hword, hfirst⟩
    dsimp only at hstop hle hword hfirst
    subst hstop
    exact ⟨start, ⟨by omega, prefix_drop_iff.mpr hword, fun n hn h =>
      hfirst n hn (prefix_drop_iff.mp h)⟩, rfl, rfl⟩

theorem isSome_firstOccurrence?_iff {raw word : Text} :
    (firstOccurrence? raw word).isSome ↔ word <:+: raw := by
  rw [firstOccurrence?, Option.isSome_map, isSome_indexOf?_iff]

/-- A fault of one word shows where the word occurs first. -/
theorem position_locate {raw word : Text} {fault : Fault} (h : fault.culprit? = some word) :
    (locate raw fault).position = firstOccurrence? raw word := by
  cases fault <;> cases h <;> rfl

end Diagnostic

namespace Query

/-! ### The word that is quoted -/

/-- The parts of a query of which one word can be at fault. -/
inductive Part
  /-- The name of the entity. -/
  | entity
  /-- One of the fields. -/
  | field
  /-- The field that one of the filters compares. -/
  | filter
  /-- One of the chains. -/
  | chain
  deriving DecidableEq, Repr

/-- **What a message quotes**: a word that a query has in one of its parts. -/
inductive Quotes (q : Query) : Part → Text → Text → Prop
  /-- The name of an entity that does not exist. -/
  | entity {name : Text} (h : q.entity = some name) (hunknown : ∀ e : Entity, name ≠ e.name) :
      Quotes q .entity name ("Invalid entity \"".toList ++ name ++ "\"".toList)
  /-- A field. -/
  | field {field : Text} (h : field ∈ q.fieldList) :
      Quotes q .field field ("Invalid field \"".toList ++ field ++ "\"".toList ++ q.forEntity)
  /-- What a filter compares. -/
  | filter {f : Filter} (h : f ∈ q.filterList) :
      Quotes q .filter f.field
        ("Invalid filter \"".toList ++ f.field ++ "\"".toList ++ q.forEntity)
  /-- A chain. -/
  | chain {name : Text} (h : name ∈ q.chainList) :
      Quotes q .chain name ("Invalid chain \"".toList ++ name ++ "\"".toList)

variable {raw : Text} {q : Query}

theorem culprit?_of_fieldFault? {entity : Option Entity} {field : Text} {fault : Fault}
    (h : fieldFault? entity field = some fault) : fault.culprit? = some field := by
  rw [fieldFault?.eq_def] at h
  repeat' split at h
  all_goals cases h
  all_goals rfl

theorem culprit?_of_filterFault? {entity : Option Entity} {f : Filter} {fault : Fault}
    (h : filterFault? entity f = some fault) : fault.culprit? = some f.field := by
  rw [filterFault?.eq_def] at h
  repeat' split at h
  all_goals cases h
  rfl

theorem culprit?_of_chainFault? {name : Text} {fault : Fault} (h : chainFault? name = some fault) :
    fault.culprit? = some name := by
  rw [chainFault?] at h
  obtain ⟨-, hfault⟩ := Option.ite_none_left_eq_some.mp h
  rw [← Option.some.inj hfault]
  rfl

/-- The fault of a query, if it is not the opening of the text, is of a word that is quoted. -/
theorem quotes_of_fault? {fault : Fault} (h : q.fault? raw = some fault) :
    fault = .noOpening ∨
      ∃ part word, fault.culprit? = some word ∧ q.Quotes part word fault.message := by
  simp only [fault?, Option.or_eq_some_iff, Option.or_eq_none_iff, openingFault?_eq_none_iff,
    entityFault?_eq_none_iff, List.findSome?_eq_some_iff] at h
  -- one case for each of the checks
  rcases h with ((((hraw | ⟨-, hentity⟩) | ⟨⟨-, hentity⟩, hfields⟩) |
    ⟨⟨⟨-, hentity⟩, -⟩, hfilters⟩) | ⟨-, hchains⟩)
  · exact Or.inl (openingFault?_eq_some_iff.mp hraw).2
  · obtain ⟨name, hname, hne, rfl⟩ := entityFault?_eq_some_iff.mp hentity
    refine Or.inr ⟨.entity, name, rfl, ?_⟩
    rw [Fault.message_unknownEntity]
    exact .entity hname hne
  · obtain ⟨before, field, after, hlist, hfield, -⟩ := hfields
    refine Or.inr ⟨.field, field, culprit?_of_fieldFault? hfield, ?_⟩
    rw [fieldFault?_message hentity hfield]
    exact .field (by simp [hlist])
  · obtain ⟨before, f, after, hlist, hfilter, -⟩ := hfilters
    refine Or.inr ⟨.filter, f.field, culprit?_of_filterFault? hfilter, ?_⟩
    rw [filterFault?_message hentity hfilter]
    exact .filter (by simp [hlist])
  · obtain ⟨before, name, after, hlist, hchain, -⟩ := hchains
    refine Or.inr ⟨.chain, name, culprit?_of_chainFault? hchain, ?_⟩
    rw [chainFault?_message hchain]
    exact .chain (by simp [hlist])

/-- **A word that is quoted stands in the text**, and only of an entity or a chain it may be that
it stands there in capitals. -/
theorem Quotes.exists_excerpt {part : Part} {word message : Text}
    (h : (ofText raw).Quotes part word message) :
    ∃ w, Excerpt w raw ∧ (word = w ∨ (part = .entity ∨ part = .chain) ∧ word = lower w) := by
  cases h with
  | entity h hunknown =>
    rcases excerpt_of_entity h with ⟨w, hw, -, hname⟩ | ⟨e, hname⟩
    · exact ⟨w, hw, Or.inr ⟨Or.inl rfl, hname⟩⟩
    · exact absurd hname (hunknown e)
  | field h => exact ⟨_, (excerpt_of_mem_fieldList h).1, Or.inl rfl⟩
  | filter h => exact ⟨_, excerpt_of_mem_filterList h, Or.inl rfl⟩
  | chain h =>
    obtain ⟨w, hw, -, hname⟩ := excerpt_of_mem_chainList h
    exact ⟨w, hw, Or.inr ⟨Or.inr rfl, hname⟩⟩

theorem Quotes.exists_passage {part : Part} {word message : Text}
    (h : (ofText raw).Quotes part word message) :
    ∃ w, Passage w raw ∧ (word = w ∨ (part = .entity ∨ part = .chain) ∧ word = lower w) := by
  obtain ⟨w, hw, hword⟩ := h.exists_excerpt
  exact ⟨w, hw.passage, hword⟩

/-- **No white space is around a word that is quoted.** -/
theorem Quotes.solid {part : Part} {word message : Text}
    (h : (ofText raw).Quotes part word message) : Solid word := by
  obtain ⟨w, hw, rfl | ⟨-, rfl⟩⟩ := h.exists_excerpt
  · exact hw.solid
  · exact hw.solid.lower

theorem Quotes.message_ne_opening {part : Part} {word message : Text}
    (h : q.Quotes part word message) : message ≠ "Query must start with GET".toList := by
  cases h <;> simp

/-! ### What is marked -/

theorem exists_fault?_of_judge {d : Diagnostic} (h : judge raw = .error d) :
    ∃ fault, (ofText raw).fault? raw = some fault ∧ d = .locate raw fault := by
  rw [judge] at h
  split at h
  · next fault hfault =>
    exact ⟨fault, (Option.ite_none_right_eq_some.mp hfault).2, (Except.error.inj h).symm⟩
  · cases h

/-- **What a diagnostic marks.** When the text opens in the wrong way, all of it is marked.
Otherwise the message quotes a word, and the word is marked where it stands first, if it stands in
the text at all. A field or a filter always does; an entity or a chain may not, when it was typed in
capitals and quoted in lower case. -/
theorem position_of_read_judging {d : Diagnostic} (h : read raw true = .error d) :
    (d.message = "Query must start with GET".toList → d.position = some ⟨0, raw.length⟩) ∧
      (d.message ≠ "Query must start with GET".toList →
        ∃ part word, (ofText raw).Quotes part word d.message ∧ word ≠ [] ∧
          (d.position.isSome ↔ word <:+: raw) ∧
          (∀ span ∈ d.position, Diagnostic.FirstOccurrence raw word span) ∧
          (part = .field ∨ part = .filter → d.position.isSome) ∧
          (d.position = none → (part = .entity ∨ part = .chain) ∧
            ∃ w, Passage w raw ∧ word = lower w ∧ ¬lower w <:+: raw)) := by
  obtain ⟨fault, hfault, rfl⟩ := exists_fault?_of_judge h
  rcases quotes_of_fault? hfault with rfl | ⟨part, word, hculprit, hquotes⟩
  · exact ⟨fun _ => rfl, fun hne => absurd rfl hne⟩
  have hposition : (Diagnostic.locate raw fault).position =
      Diagnostic.firstOccurrence? raw word := Diagnostic.position_locate hculprit
  refine ⟨fun heq => absurd heq hquotes.message_ne_opening, fun _ => ?_⟩
  obtain ⟨w, hw, hword⟩ := hquotes.exists_passage
  rw [hposition]
  refine ⟨part, word, hquotes, ?_, Diagnostic.isSome_firstOccurrence?_iff,
    fun span hspan => Diagnostic.firstOccurrence?_eq_some_iff.mp hspan, ?_, ?_⟩
  · rcases hword with rfl | ⟨-, rfl⟩
    · exact hw.ne_nil
    · exact lower_ne_nil hw.ne_nil
  · intro hpart
    rcases hword with rfl | ⟨hpart', -⟩
    · exact Diagnostic.isSome_firstOccurrence?_iff.mpr hw.isInfix
    · rcases hpart with rfl | rfl <;> simp at hpart'
  · intro hnone
    have hnot : ¬word <:+: raw := by
      rw [← Diagnostic.isSome_firstOccurrence?_iff, hnone]
      simp
    rcases hword with rfl | ⟨hpart, rfl⟩
    · exact absurd hw.isInfix hnot
    · exact ⟨hpart, w, hw, rfl, hnot⟩

/-- An entity that does not exist and was typed in capitals is not found. -/
theorem position_of_capitals :
    read "GET é FROM ÉA ".toList true = .error ⟨.unknownEntity "éa".toList, none⟩ ∧
      ∃ part word,
        (ofText "GET é FROM ÉA ".toList).Quotes part word "Invalid entity \"éa\"".toList ∧
          word ≠ [] ∧ (part = .entity ∨ part = .chain) ∧ ¬word <:+: "GET é FROM ÉA ".toList := by
  have h : read "GET é FROM ÉA ".toList true = .error ⟨.unknownEntity "éa".toList, none⟩ := by
    decide +kernel
  obtain ⟨part, word, hquotes, hne, hfound, -, -, hnone⟩ :=
    (position_of_read_judging h).2 (by decide)
  refine ⟨h, part, word, hquotes, hne, (hnone rfl).1, ?_⟩
  rw [← hfound]
  simp

end Query

end ChainQuery
