import ChainQuery.Proofs.Suggestion.Offers
import ChainQuery.Proofs.Typing.Prefixes

/-!
# What is offered up to the name of the entity

While the head of a canonical query and the name of its entity are being typed, one kind of word is
expected, and putting another in its place would be a fault. So for each of the three kinds it is
shown that what is offered is of that kind, and that the text with it is sound:

* a **field**, where the entity may still be open, and is inferred anew from the fields together
  with the one that was accepted;
* `FROM`, which is all that is offered behind a finished list of fields;
* the **name** of an entity, where nothing may be offered that stands behind one.
-/

namespace ChainQuery

open Text Token Grammar Suggestion

namespace Typing

variable {e : Entity} {s w t : Text} {l : List Suggestion}

theorem fragment_stem (hs : Stem s) (hw : ' ' ∉ w) : Cursor.fragment (s ++ w) = w :=
  getLastD_pieces_stem hs hw

theorem atSpace_iff {raw : Text} : Cursor.atSpace raw = true ↔ Stem raw :=
  Query.lastIs_space_iff

/-- Before a space, a text does not end in another if their last characters differ. -/
theorem endsIn_space_eq_false {u r : Text} (hne : u ≠ []) (h : r.getLast? ≠ u.getLast?) :
    endsIn (u ++ [' ']) (r ++ [' ']) = false := by
  rw [← Bool.not_eq_true, endsIn, List.isSuffixOf_iff_suffix]
  rintro ⟨v, hv⟩
  rw [← List.append_assoc] at hv
  obtain rfl : v ++ u = r := (List.append_inj' hv rfl).1
  exact h (List.getLast?_append_of_ne_nil v hne)

/-- A space that does not stand behind a comma is a pause. -/
theorem atPause_of_last (h : s.getLast? ≠ some ',') : Cursor.atPause (s ++ [' ']) = true := by
  have hcomma : Cursor.atCommaSpace (s ++ [' ']) = false :=
    endsIn_space_eq_false (u := [',']) (by simp) h
  rw [Cursor.atPause, atSpace_iff.mpr (stem_concat s), hcomma]
  rfl

/-- What is no stem does not end in a text with a space behind it. -/
theorem endsIn_eq_false_of_not_stem {raw : Text} (h : ¬Stem raw) (u : Text) :
    endsIn (u ++ [' ']) raw = false := by
  rw [← Bool.not_eq_true, endsIn, List.isSuffixOf_iff_suffix]
  exact fun hsuffix => h ((List.suffix_append u [' ']).trans hsuffix)

/-! ### A field -/

/-- **What is offered behind finished fields can be put there.** -/
theorem sound_of_offered_field {done : List Text} {x : Text} (hdone : ∀ y ∈ done, y ∈ e.fields)
    (hx : IsTableWord x) (hw : w <+: x ++ [','])
    (hl : complete (Query.opening ++ closed done ++ w) = .ok l) (ht : Offered l t) :
    Sound (Query.opening ++ closed done ++ t) := by
  have hwords : ∀ y ∈ done, IsTableWord y := fun y hy => isTableWord_of_mem_fields y (hdone y hy)
  have hsaid := saysFields_word hwords hx hw
  have hstem : Stem (Query.opening ++ closed done) :=
    Stem.append_closed (stem_concat "GET".toList) done
  have hfragment := fragment_stem hstem (hx.notMem_space_of_isPrefix hw)
  obtain ⟨-, hquery⟩ := forQuery_of_offered hl ht
  rw [forQuery, hsaid.lastKeyword] at hquery
  cases hquery
  rcases offered_forFields ht with rfl | ⟨hsettled, hoffer⟩
  · exact (sound_closed hwords (coherent_of_mem hdone)).append_keyword hstem (by simp) (by simp)
  -- the word that is being typed is no field, and its comma is missing
  rw [fieldsSettled, hfragment, Bool.or_eq_false_iff, Bool.or_eq_false_iff] at hsettled
  obtain ⟨⟨hcomma, hunknown⟩, -⟩ := hsettled
  have hfresh : ∀ e' : Entity, w ∉ e'.fields := by
    intro e' hmem
    rw [Query.isKnownField_iff.mpr ⟨e', hmem⟩] at hunknown
    cases hunknown
  have himplied : impliedEntity? (done ++ items w) = impliedEntity? done := by
    rcases hx.items_of_isPrefix hw with rfl | ⟨-, -, hitems⟩ | ⟨rfl, -⟩
    · rw [items_nil, List.append_nil]
    · rw [hitems, impliedEntity?_concat_of_unknown hfresh]
    · rw [← List.append_assoc, lastIs, List.getLast?_append] at hcomma
      cases hcomma
  rw [hsaid.knownEntity?, himplied] at hoffer
  rcases hoffer with rfl | ⟨e', he', hmem⟩ | ⟨hnone, e', hmem⟩
  · exact sound_fields hwords isTableWord_wildcard (coherent_concat hdone (Or.inl rfl))
  · rw [impliedEntity?_of_mem hdone he'] at hmem
    exact sound_fields hwords (isTableWord_of_mem_fields t hmem)
      (coherent_concat hdone (Or.inr (Or.inl hmem)))
  · exact sound_fields hwords (isTableWord_of_mem_fields t hmem)
      (coherent_concat hdone (Or.inr (Or.inr ⟨hnone, e', hmem⟩)))

/-! ### The keyword behind the fields -/

section Whole

variable {fields : List Text}

/-- A whole head ends in the last of its fields. -/
theorem Whole.exists_last (h : Whole e fields s) :
    ∃ r x, s = r ++ ' ' :: x ∧ IsTableWord x := by
  obtain ⟨done, x, rfl, hjoined⟩ := exists_joined_eq h.fit.ne_nil
  obtain ⟨r, hr⟩ := (Stem.append_closed (stem_concat "GET".toList) done).exists_eq
  refine ⟨r, x, ?_, h.fit.isTableWord x (by simp)⟩
  have hopening : Query.opening ++ closed done = r ++ [' '] := hr
  rw [h.eq, hjoined, ← List.append_assoc, hopening]
  simp

theorem IsTableWord.getLast?_ne_comma {x : Text} (h : IsTableWord x) (r : Text) :
    (r ++ x).getLast? ≠ some ',' := by
  rw [List.getLast?_append_of_ne_nil r h.ne_nil]
  exact fun hlast => h.no_comma (List.mem_of_getLast? hlast)

theorem Whole.atPause (h : Whole e fields s) : Cursor.atPause (s ++ [' ']) = true := by
  obtain ⟨r, x, rfl, hx⟩ := h.exists_last
  refine atPause_of_last ?_
  simpa using IsTableWord.getLast?_ne_comma hx (r ++ [' '])

/-- **A word behind a whole head may become `FROM`.** -/
theorem Whole.mayBecomeFrom (h : Whole e fields s) (hne : w ≠ []) (hw : w <+: "FROM".toList) :
    mayBecomeFrom (s ++ [' '] ++ w) = true := by
  obtain ⟨r, x, rfl, hx⟩ := h.exists_last
  have hspace : ' ' ∉ w :=
    notMem_space_of_no_blank (no_blank_of_prefix_keyword (k := .entity) hw)
  have hspace' : ' ' ∉ x := notMem_space_of_no_blank hx.no_blank
  have hfragment := fragment_stem (stem_concat (r ++ ' ' :: x)) hspace
  -- the word before is the last of the fields
  have hprevious : Cursor.previousWord? (r ++ ' ' :: x ++ [' '] ++ w) = some x := by
    have hpieces : pieces ' ' (r ++ ' ' :: x ++ [' '] ++ w) = pieces ' ' r ++ [x] ++ [w] := by
      rw [List.append_assoc, List.singleton_append, pieces_append_sep, pieces_append_sep,
        pieces_of_not_mem hspace, pieces_of_not_mem hspace']
    obtain ⟨first, pieces', hfirst⟩ := List.exists_cons_of_ne_nil
      (fun hcon => pieces_ne_nil ' ' r (List.reverse_eq_nil_iff.mp hcon) :
        (pieces ' ' r).reverse ≠ [])
    rw [Cursor.previousWord?, hpieces, List.reverse_append, List.reverse_append, hfirst]
    rfl
  have hcomma : lastIs (· == ',') x = false := by
    rw [← Bool.not_eq_true, lastIs, Option.any_eq_true]
    rintro ⟨c, hc, hcomma⟩
    rw [beq_iff_eq] at hcomma
    exact hx.no_comma (hcomma ▸ List.mem_of_getLast? hc)
  have hbecome : beginsWith (lower w) (lower Keyword.entity.text) = true := by
    have hmem : w ∈ "FROM".toList.inits := (List.mem_inits _ _).mpr hw
    have hall : ∀ w ∈ "FROM".toList.inits,
        beginsWith (lower w) (lower Keyword.entity.text) = true := by decide
    exact hall w hmem
  rw [Suggestion.mayBecomeFrom, hprevious, Cursor.mayBecome, hfragment, hbecome]
  simp [hcomma, hne, hx.ne_nil]

/-- Behind a finished list of fields, only `FROM` is offered. -/
theorem Whole.eq_from_of_offered (h : Whole e fields s) (hw : w <+: "FROM".toList)
    (hl : complete (s ++ [' '] ++ w) = .ok l) (ht : Offered l t) : t = Keyword.entity.text := by
  have hblank : ∀ c ∈ w, isBlank c = false := no_blank_of_prefix_keyword (k := .entity) hw
  obtain ⟨hkeyword, hquery⟩ := forQuery_of_offered hl ht
  rw [fragment_stem (stem_concat s) (notMem_space_of_no_blank hblank)] at hkeyword
  have hk : ∀ k : Keyword, w ≠ k.text := by
    rintro k rfl
    rw [Keyword.isKeyword_iff.mpr ⟨k, rfl⟩] at hkeyword
    cases hkeyword
  by_cases hne : w = []
  · -- a list that is not empty is at a pause
    subst hne
    rw [List.append_nil, forQuery, h.ofText_space.lastKeyword] at hquery
    cases hquery
    have hlist : (Query.ofText (s ++ [' '])).fieldList ≠ [] := by
      rw [h.ofText_space.fieldList]
      exact h.fit.ne_nil
    rw [forFields, h.atPause] at ht
    simpa [hlist] using ht
  · -- the word is read as a part of the last field, but it may become `FROM`
    obtain ⟨fields', hsaid⟩ := h.saysFields_word hblank hk
    rw [forQuery, hsaid.lastKeyword] at hquery
    cases hquery
    have hpause : Cursor.atPause (s ++ [' '] ++ w) = false := by
      have hspace : Cursor.atSpace (s ++ [' '] ++ w) = false := by
        rw [← Bool.not_eq_true, atSpace_iff]
        exact not_stem_append hne (notMem_space_of_no_blank hblank)
      rw [Cursor.atPause, hspace, Bool.false_and]
    rw [forFields, hpause, h.mayBecomeFrom hne hw] at ht
    simpa using ht

/-! ### The name of the entity -/

/-- **An entity that is offered has everything that is asked for.** -/
theorem Whole.of_openEntities {raw : Text} {q : Query} (h : Whole e fields s)
    (hq : q.fieldList = fields) (ht : t ∈ openEntities q raw) :
    ∃ e' : Entity, t = e'.name ∧ Whole e' fields s := by
  obtain ⟨e', rfl, hmem⟩ := mem_openEntities ht
  refine ⟨e', rfl, ?_, h.eq⟩
  rw [Query.hasWildcard, hq] at hmem
  rcases h.fit with hwild | ⟨hne, hfields⟩
  · exact Or.inl hwild
  · rcases hmem with hwild | hmem
    · have hwild : wildcard ∈ fields := by simpa using hwild
      exact absurd (hfields wildcard hwild) e.wildcard_notMem_fields
    · exact Or.inr ⟨hne, hmem⟩

/-- The name of an entity that has everything that is asked for can be put behind `FROM`. -/
theorem Whole.sound_name (h : Whole e fields s) :
    Sound (s ++ [' '] ++ (Keyword.entity.text ++ [' ']) ++ e.name ++ [' ']) := by
  have hready := ready_source h (quiet_of_blank blank_space) (List.suffix_refl _)
    (by simp)
  rw [← withSource_eq] at hready
  simpa using hready.sound

/-- Behind `FROM` and a space no identifier is expected. -/
theorem atIdentifier_from (e' : Entity) (r : Text) :
    atIdentifier e' (r ++ (Keyword.entity.text ++ [' '])) = false := by
  have hlast : (r ++ Keyword.entity.text).getLast? = some 'M' := by
    rw [List.getLast?_append_of_ne_nil r (by decide)]
    decide
  have hname : endsIn (e'.name ++ [' ']) (r ++ (Keyword.entity.text ++ [' '])) = false := by
    rw [← List.append_assoc]
    refine endsIn_space_eq_false e'.plain_name.ne_nil ?_
    rw [hlast]
    cases e' <;> decide
  have hcomma : Cursor.atCommaSpace (r ++ (Keyword.entity.text ++ [' '])) = false := by
    rw [← List.append_assoc]
    refine endsIn_space_eq_false (u := [',']) (by simp) ?_
    rw [hlast]
    decide
  have hname' : endsIn (e'.name ++ " ".toList) (r ++ (Keyword.entity.text ++ [' '])) = false := hname
  rw [atIdentifier, hname', hcomma]
  rfl

/-- Nothing is offered behind the name of an entity that is not followed by a space. -/
theorem not_offered_behind_name {raw : Text} {q : Query} (hq : q.knownEntity? = some e)
    (hspace : Cursor.atSpace raw = false) (hlast : Cursor.lastWord raw = e.name)
    (hfragment : Cursor.fragment raw = e.name) : ¬Offered (forEntity q raw) t := by
  have hraw : ¬Stem raw := fun hstem => by
    rw [atSpace_iff.mpr hstem] at hspace
    cases hspace
  have hidentifier : atIdentifier e raw = false := by
    have hname : endsIn (e.name ++ " ".toList) raw = false := endsIn_eq_false_of_not_stem hraw _
    have hcomma : Cursor.atCommaSpace raw = false := endsIn_eq_false_of_not_stem hraw [',']
    rw [atIdentifier, hname, hcomma]
    rfl
  have hnext : (entitySettled raw || mayBecomeNextClause raw) = false := by
    rw [entitySettled, mayBecomeNextClause, Cursor.mayBecome, Cursor.mayBecome, hspace, hlast,
      hfragment]
    cases e <;> decide
  have hfrom : Cursor.lastWord raw ≠ Keyword.entity.text := by
    rw [hlast]
    cases e <;> decide
  intro ht
  rcases offered_forEntity ht with ⟨hnone, -⟩ | ⟨e', he', ⟨hat, -⟩ | ⟨-, hcon, -⟩ | ⟨hcon, -⟩⟩
  · rw [hq] at hnone
    cases hnone
  · rw [hq, Option.some.injEq] at he'
    rw [← he', hidentifier] at hat
    cases hat
  · exact hfrom hcon
  · rw [hnext] at hcon
    cases hcon

/-- Where a stem is opened as it must be, the word behind it is the last. -/
theorem lastWord_stem (hopens : Query.opening <+: s) (hs : Stem s) (hne : w ≠ [])
    (hw : ∀ c ∈ w, isBlank c = false) : Cursor.lastWord (s ++ w) = w := by
  obtain ⟨r, rfl⟩ := hopens
  have hsolid := solid_of_no_blank hne hw
  have hblank : ¬Blank (r ++ w) := fun hcon => hsolid.not_blank (blank_append.mp hcon).2
  have htrim : trim (Query.opening ++ r ++ w) = Query.opening ++ r ++ w := by
    rw [List.append_assoc, Query.trim_opening_append hblank,
      trimEnd_append_of_not_blank r hsolid.not_blank, hsolid.trimEnd]
  rw [Cursor.lastWord, htrim]
  exact getLastD_pieces_stem hs (notMem_space_of_no_blank hw)

/-- The fields imply the entity that is meant, or none. -/
theorem Whole.eq_of_implied (h : Whole e fields s) {e' : Entity}
    (h' : impliedEntity? fields = some e') : e' = e := by
  rcases h.fit with rfl | ⟨-, hmem⟩
  · have hnone : impliedEntity? [wildcard] = none := by decide
    rw [hnone] at h'
    cases h'
  · exact impliedEntity?_of_mem hmem h'

theorem Whole.ofText_from (h : Whole e fields s) :
    Query.ofText (s ++ [' '] ++ (Keyword.entity.text ++ [' '])) =
      { Query.ofText s with lastKeyword := some .entity } := by
  have hblank : ¬Blank (s ++ [' ']) :=
    not_blank_of_opens (h.opens.trans (List.prefix_append s _))
  rw [← List.append_assoc, Query.ofText_append_blank _ blank_space,
    Query.ofText_append_keyword hblank (stem_concat s).blankEnd (by simp),
    Query.ofText_append_blank s blank_space]

/-- **What is offered behind `FROM` can be put there.** -/
theorem Whole.sound_of_offered_name (h : Whole e fields s) (hw : w <+: e.name)
    (hl : complete (s ++ [' '] ++ (Keyword.entity.text ++ [' ']) ++ w) = .ok l)
    (ht : Offered l t) : Sound (s ++ [' '] ++ (Keyword.entity.text ++ [' ']) ++ t ++ [' ']) := by
  obtain ⟨-, hquery⟩ := forQuery_of_offered hl ht
  have hstem : Stem (s ++ [' '] ++ (Keyword.entity.text ++ [' '])) :=
    (stem_concat Keyword.entity.text).append _
  by_cases hne : w = []
  · -- nothing has been typed, and the entity is the one that the fields imply, if they do
    subst hne
    rw [List.append_nil, forQuery, h.ofText_from] at hquery
    cases hquery
    rcases offered_forEntity ht with
      ⟨-, hopen⟩ | ⟨e', he', ⟨hat, -⟩ | ⟨-, -, rfl⟩ | ⟨-, hkeyword⟩⟩
    · obtain ⟨e', rfl, h'⟩ := h.of_openEntities h.saysFields.fieldList hopen
      exact h'.sound_name
    · rw [atIdentifier_from] at hat
      cases hat
    · have himplied : impliedEntity? fields = some e' := by
        rw [← h.saysFields.knownEntity?]
        exact he'
      rw [h.eq_of_implied himplied]
      exact h.sound_name
    · have hknown : (Query.ofText (s ++ [' '] ++ (Keyword.entity.text ++ [' ']))).knownEntity? =
          some e' := by
        rw [h.ofText_from]
        exact he'
      rcases hkeyword with rfl | rfl
      · exact (h.sound_from.append_keyword hstem (by simp) fun _ => ⟨e', hknown⟩).append_blank
          blank_space
      · exact (h.sound_from.append_keyword hstem (by simp) (by simp)).append_blank blank_space
  · have hword := isTableWord_name e
    have hblank : ∀ c ∈ w, isBlank c = false := fun c hc => hword.no_blank c (hw.subset hc)
    have hspace : ' ' ∉ w := notMem_space_of_no_blank hblank
    rw [forQuery, h.ofText_name hne hw] at hquery
    cases hquery
    rcases offered_forEntity ht with ⟨-, hopen⟩ | ⟨e', he', -⟩
    · obtain ⟨e', rfl, h'⟩ := h.of_openEntities h.saysFields.fieldList hopen
      exact h'.sound_name
    · -- the name is finished, and behind it nothing is offered
      have hname : w = e'.name := Option.some.inj (Query.knownEntity?_eq_some_iff.mp he')
      have hopens : Query.opening <+: s ++ [' '] ++ (Keyword.entity.text ++ [' ']) := by
        rw [List.append_assoc]
        exact h.opens.trans (List.prefix_append s _)
      have hend : Cursor.atSpace (s ++ [' '] ++ (Keyword.entity.text ++ [' ']) ++ w) = false := by
        rw [← Bool.not_eq_true, atSpace_iff]
        exact not_stem_append hne hspace
      refine absurd ht (not_offered_behind_name he' hend ?_ ?_)
      · rw [lastWord_stem hopens hstem hne hblank, hname]
      · rw [fragment_stem hstem hspace, hname]

end Whole

end Typing

end ChainQuery
