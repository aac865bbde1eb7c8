import ChainQuery.Proofs.Query.Position
import ChainQuery.Proofs.Typing.Soundness

/-!
# What an editor hands in

Only a query that can be answered leaves the editor. Three things are asked of the input, and they
are asked of different texts: whether the query is **complete** and whether it **conforms** to the
tables is seen in the trimmed input, but that it opens with `GET` is asked of the input as it was
typed. All three are needed, and nothing else is (`ChainQuery.Editor.submit_eq_ok_iff`).

What is handed in is the trimmed input. Nothing is lost by that, since white space around a text
says nothing, and the trimmed input still opens as it must: a complete query does not end with its
opening. So what was handed in can be handed in again
(`ChainQuery.Editor.submit_trim_of_submit`).

A query is complete when fields, entity and chains have been **read**, and it is here that the
three differ. A list of chains in which nothing stands is not read at all, but a list of fields is,
and so a query may be handed in that asks for no field. That happens exactly when nothing but commas
and white space stands in the list (`ChainQuery.Editor.fieldList_of_submit_ne_nil_iff`).
-/

namespace ChainQuery

open Text

namespace Query

variable {raw : Text} {q : Query}

/-! ### Complete queries -/

theorem isComplete_iff :
    q.isComplete = true ↔ q.fields.isSome ∧ q.entity.isSome ∧ q.chains.isSome := by
  rw [isComplete, Bool.and_eq_true, Bool.and_eq_true, and_assoc]

/-- In a blank text there is no query. -/
theorem not_blank_of_isComplete (h : (ofText raw).isComplete = true) : ¬Blank raw := by
  intro hblank
  rw [← ofText_trim, trim_eq_nil_iff.mpr hblank] at h
  cases h

/-- A complete query is judged wherever its text ends. -/
theorem judge_eq_ok_iff_of_isComplete (h : (ofText raw).isComplete = true) :
    judge raw = .ok (ofText raw) ↔ Conforms raw (ofText raw) := by
  have hdue : Due raw := ⟨not_blank_of_isComplete h, Or.inl h⟩
  exact ⟨Typing.conforms_of_judge hdue, judge_of_conforms⟩

theorem Conforms.trim (h : Conforms raw (ofText raw)) (hcomplete : (ofText raw).isComplete = true) :
    Conforms (trim raw) (ofText (trim raw)) := by
  rw [ofText_trim]
  exact ⟨opening_isPrefix_trim (isComplete_iff.mp hcomplete).1, h.entity, h.fields,
    h.filters, h.chains⟩

/-- **A complete query that conforms fits an entity.** -/
theorem Conforms.exists_fits (h : Conforms raw q) (hcomplete : q.isComplete = true) :
    ∃ e, Typing.Fits e q := by
  obtain ⟨name, hname⟩ := Option.isSome_iff_exists.mp (isComplete_iff.mp hcomplete).2.1
  obtain ⟨e, rfl⟩ := h.entity name hname
  refine ⟨e, hname, fun x hx => ?_, fun f hf => h.filters f hf e hname, h.chains⟩
  refine (h.fields x hx).imp_right fun ⟨e', hmeans, hx⟩ => ?_
  rwa [(means_iff hname).mp hmeans] at hx

/-! ### The place of a fault -/

/-- What a message quotes can be read off it. -/
theorem Quotes.word_eq {part part' : Part} {word word' message message' : Text}
    (h : q.Quotes part word message) (h' : q.Quotes part' word' message')
    (hmessage : message = message') : word = word' := by
  cases h <;> cases h' <;> simp_all

theorem Quotes.message_ne_incomplete {part : Part} {word message : Text}
    (h : q.Quotes part word message) :
    message ≠ "Query needs fields, an entity and at least one chain".toList := by
  cases h <;> simp

/-- **A fault shows nowhere exactly when the word that is quoted stands nowhere** in the text. -/
theorem position_eq_none_iff_of_judge {d : Diagnostic} (h : judge raw = .error d) :
    d.message ≠ "Query needs fields, an entity and at least one chain".toList ∧
      (d.position = none ↔
        ∃ part word, (ofText raw).Quotes part word d.message ∧ ¬word <:+: raw) := by
  obtain ⟨fault, hfault, rfl⟩ := exists_fault?_of_judge h
  rcases quotes_of_fault? hfault with rfl | ⟨part, word, hculprit, hquotes⟩
  · -- the whole text is marked, and no word is quoted
    refine ⟨show "Query must start with GET".toList ≠ _ by simp, ?_⟩
    constructor
    · intro hnone
      cases hnone
    · rintro ⟨part, word, hquotes, -⟩
      exact absurd rfl hquotes.message_ne_opening
  · refine ⟨hquotes.message_ne_incomplete, ?_⟩
    rw [Diagnostic.position_locate hculprit, ← Option.not_isSome_iff_eq_none,
      Diagnostic.isSome_firstOccurrence?_iff]
    constructor
    · exact fun hnot => ⟨part, word, hquotes, hnot⟩
    · rintro ⟨part', word', hquotes', hnot⟩
      rwa [hquotes.word_eq hquotes' rfl]

end Query

namespace Editor

variable {editor : Editor} {q : Text}

/-! ### What is handed in -/

/-- **Exactly the complete queries that conform are handed in**, without the white space around
them. -/
theorem submit_eq_ok_iff :
    editor.submit = .ok q ↔
      q = trim editor.input ∧ (Query.ofText editor.input).isComplete = true ∧
        Query.Conforms editor.input (Query.ofText editor.input) := by
  rw [submit]
  cases hjudge : Query.judge editor.input with
  | error d =>
    constructor
    · intro h
      cases h
    · rintro ⟨-, hcomplete, hconforms⟩
      rw [(Query.judge_eq_ok_iff_of_isComplete hcomplete).mpr hconforms] at hjudge
      cases hjudge
  | ok p =>
    obtain rfl := Query.eq_ofText_of_judge hjudge
    by_cases hcomplete : (Query.ofText editor.input).isComplete = true
    · have hconforms := (Query.judge_eq_ok_iff_of_isComplete hcomplete).mp hjudge
      simp [hcomplete, hconforms, eq_comm]
    · simp [hcomplete]

/-- **What was handed in can be handed in again.** -/
theorem submit_trim_of_submit (h : editor.submit = .ok q) {later : Editor} (hlater : later.input = q) :
    later.submit = .ok q := by
  obtain ⟨rfl, hcomplete, hconforms⟩ := submit_eq_ok_iff.mp h
  refine submit_eq_ok_iff.mpr ⟨by rw [hlater, trim_trim], ?_, ?_⟩
  · rwa [hlater, Query.ofText_trim]
  · rw [hlater]
    exact hconforms.trim hcomplete

/-- **A query that is handed in** for an input: nothing is missing from it, everything in it
exists, and it would be handed in again as it is. -/
structure HandsIn (input q : Text) : Prop where
  /-- It is the input without the white space around it. -/
  eq_trim : q = trim input
  /-- It begins with `GET` and a space. -/
  opens : Query.opening <+: q
  /-- It says what the input says. -/
  ofText_eq : Query.ofText q = Query.ofText input
  /-- It has fields. -/
  fields : (Query.ofText q).fields.isSome
  /-- It has an entity that exists, and its fields, filters and chains go with it. -/
  fits : ∃ e, Typing.Fits e (Query.ofText q)
  /-- It has chains, and at least one of them. -/
  chains : ∃ chains, (Query.ofText q).chains = some chains ∧ chains ≠ []
  /-- It is handed in again when it is the input. -/
  again : ∀ later : Editor, later.input = q → later.submit = .ok q

theorem handsIn_of_submit (h : editor.submit = .ok q) : HandsIn editor.input q := by
  obtain ⟨rfl, hcomplete, hconforms⟩ := submit_eq_ok_iff.mp h
  have hsame : Query.ofText (trim editor.input) = Query.ofText editor.input :=
    Query.ofText_trim editor.input
  obtain ⟨hfields, -, hchains⟩ := Query.isComplete_iff.mp hcomplete
  obtain ⟨chains, hchains⟩ := Option.isSome_iff_exists.mp hchains
  refine ⟨rfl, (hconforms.trim hcomplete).opens, hsame, ?_, ?_, ⟨chains, ?_, ?_⟩, fun later =>
    submit_trim_of_submit h⟩
  · rwa [hsame]
  · rw [hsame]
    exact hconforms.exists_fits hcomplete
  · rwa [hsame]
  · exact Query.chains_ne_nil hchains

/-- **A refusal** of an input: there is a reason for it, and it shows where the fault is unless no
word is at fault or the word stands nowhere. -/
structure Refuses (input : Text) (d : Diagnostic) : Prop where
  /-- The query of the input is not complete, or it does not conform. -/
  reason : ¬((Query.ofText input).isComplete = true ∧
    Query.Conforms input (Query.ofText input))
  /-- No place is marked if a part is missing, or if the word that is quoted stands nowhere. -/
  position : d.position = none ↔
    d.message = "Query needs fields, an entity and at least one chain".toList ∨
      ∃ part word, (Query.ofText input).Quotes part word d.message ∧ ¬word <:+: input

theorem refuses_of_submit {d : Diagnostic} (h : editor.submit = .error d) :
    Refuses editor.input d := by
  have hreason : ¬((Query.ofText editor.input).isComplete = true ∧
      Query.Conforms editor.input (Query.ofText editor.input)) := by
    rintro hok
    rw [submit_eq_ok_iff.mpr ⟨rfl, hok⟩] at h
    cases h
  refine ⟨hreason, ?_⟩
  rw [submit] at h
  cases hjudge : Query.judge editor.input with
  | error d' =>
    rw [hjudge] at h
    obtain rfl := Except.error.inj h
    obtain ⟨hne, hposition⟩ := Query.position_eq_none_iff_of_judge hjudge
    rw [hposition]
    exact (or_iff_right hne).symm
  | ok p =>
    rw [hjudge] at h
    dsimp only at h
    split at h
    · cases h
    · rw [← Except.error.inj h]
      exact iff_of_true rfl (Or.inl rfl)

/-- **An editor hands in a query that can be answered, or refuses.** What it hands in is the
trimmed input, complete and made of what exists, and it would be handed in again; a refusal has a
reason, and marks a place whenever there is one to mark. -/
theorem submit_handsIn_or_refuses (editor : Editor) :
    (∃ q, editor.submit = .ok q ∧ HandsIn editor.input q) ∨
      ∃ d, editor.submit = .error d ∧ Refuses editor.input d := by
  cases h : editor.submit with
  | ok q => exact Or.inl ⟨q, rfl, handsIn_of_submit h⟩
  | error d => exact Or.inr ⟨d, rfl, refuses_of_submit h⟩

/-! ### Queries that ask for no field -/

/-- **A query that is handed in names a field exactly when something other than commas and white
space stands in its list of fields.** -/
theorem fieldList_of_submit_ne_nil_iff (h : editor.submit = .ok q) :
    ∃ list, Token.stretch (Clauses.ofText q).head = Query.opening ++ list ∧
      ((Query.ofText q).fieldList ≠ [] ↔ ∃ c ∈ list, isBlank c = false ∧ c ≠ ',') := by
  obtain ⟨fields, hfields⟩ := Option.isSome_iff_exists.mp (handsIn_of_submit h).fields
  obtain ⟨list, hhead, rfl⟩ := Query.exists_list_of_fields hfields
  refine ⟨list, hhead, ?_⟩
  rw [Query.fieldList, hfields, Option.getD_some, ne_eq, items_eq_nil_iff]
  simp only [not_forall, not_or, Bool.not_eq_true, exists_prop]

/-- Behind the comma stands a field. -/
theorem fieldList_of_submit_of_comma :
    submit { input := "GET ,hash FROM tx ON eth\n".toList } =
        .ok "GET ,hash FROM tx ON eth".toList ∧
      ∃ list, Token.stretch (Clauses.ofText "GET ,hash FROM tx ON eth".toList).head =
          Query.opening ++ list ∧
        list = ",hash".toList ∧
        ((Query.ofText "GET ,hash FROM tx ON eth".toList).fieldList ≠ [] ↔
          ∃ c ∈ list, isBlank c = false ∧ c ≠ ',') := by
  have h : submit { input := "GET ,hash FROM tx ON eth\n".toList } =
      .ok "GET ,hash FROM tx ON eth".toList := by decide +kernel
  obtain ⟨list, hlist, hfields⟩ := fieldList_of_submit_ne_nil_iff h
  refine ⟨h, list, hlist, ?_, hfields⟩
  have hhead : Token.stretch (Clauses.ofText "GET ,hash FROM tx ON eth".toList).head =
      Query.opening ++ ",hash".toList := by decide +kernel
  exact List.append_cancel_left (hlist.symm.trans hhead)

/-- A list of fields in which only a comma stands. -/
theorem submit_without_fields :
    submit { input := "GET , FROM account ON eth".toList } =
        .ok "GET , FROM account ON eth".toList ∧
      (Query.ofText "GET , FROM account ON eth".toList).fields = some [] := by
  decide +kernel

end Editor

end ChainQuery
