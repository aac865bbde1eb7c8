import ChainQuery.Editor
import ChainQuery.Proofs.Query.Inference
import ChainQuery.Proofs.Query.Judgement
import ChainQuery.Proofs.Query.Reading
import ChainQuery.Proofs.Text.Joined

/-!
# Texts at which nothing is wrong

Someone who is typing is disturbed in two ways: the text is judged to be at fault, or suggestions
for it are asked for and cannot be made. A text at which neither happens is **welcome**
(`ChainQuery.Typing.Welcome`).

There are two reasons for a text to be welcome. It may not be due, so that it is not judged at
all; or it is **sound**, and no judgement finds anything (`ChainQuery.Typing.Sound`). The latter
is the more useful notion, since it does not depend on where the text stops: white space may be
put behind a sound text, and so may a keyword (`ChainQuery.Typing.Sound.append_keyword`).
-/

namespace ChainQuery

open Text

namespace Typing

/-! ### Welcome texts -/

/-- **A welcome text**: it is read without a fault, and suggestions can be made at its end. -/
def Welcome (raw : Text) : Prop :=
  (∃ q, Query.read raw true = .ok q) ∧ ∃ suggestions, complete raw = .ok suggestions

/-- Where filters are being typed, the entity is known. -/
def Named (q : Query) : Prop := q.lastKeyword = some .filters → ∃ e, q.knownEntity? = some e

/-- **A sound text**: the query it holds conforms, wherever the text may be cut off. -/
structure Sound (raw : Text) : Prop where
  /-- The query conforms. -/
  conforms : Query.Conforms raw (Query.ofText raw)
  /-- The entity is known where it has to be. -/
  named : Named (Query.ofText raw)

variable {raw : Text}

theorem lastKeyword_of_blank (h : Blank raw) : (Query.ofText raw).lastKeyword = none := by
  have hblank : Query.ofText ([] ++ raw) = Query.ofText [] := Query.ofText_append_blank [] h
  rw [List.nil_append] at hblank
  rw [hblank]
  rfl

theorem conforms_of_judge (hdue : Query.Due raw) (h : Query.judge raw = .ok (Query.ofText raw)) :
    Query.Conforms raw (Query.ofText raw) := by
  rw [Query.judge_of_due hdue] at h
  rw [← Query.fault?_eq_none_iff]
  split at h
  · cases h
  · assumption

/-- **In a clause that ends in a space nothing is wrong**, if judgement lets the text pass: behind a
space it is due. -/
theorem conforms_of_atSpace {k : Keyword} (h : Query.judge raw = .ok (Query.ofText raw))
    (hlast : (Query.ofText raw).lastKeyword = some k) (hspace : Cursor.atSpace raw = true) :
    Query.Conforms raw (Query.ofText raw) := by
  refine conforms_of_judge ⟨fun hblank => ?_, Or.inr (Query.lastIs_space_iff.mp hspace)⟩ h
  rw [lastKeyword_of_blank hblank] at hlast
  cases hlast

/-- Suggestions for filters can be made once there is an entity that has the filter behind which
operators are asked for. -/
theorem exists_forFilters {q : Query} {e : Entity} (hq : q.knownEntity? = some e)
    (hlast : Cursor.atSpace raw = true → ∀ f, q.filterList.getLast? = some f →
      f.field ∈ e.filterFields) :
    ∃ suggestions, Suggestion.forFilters q raw = .ok suggestions := by
  rw [Suggestion.forFilters.eq_def, hq]
  dsimp only
  split
  · exact ⟨_, rfl⟩
  split
  · exact ⟨_, rfl⟩
  split
  · exact ⟨_, rfl⟩
  split
  · exact ⟨_, rfl⟩
  split
  next f hf =>
    obtain ⟨hlastf, hspace⟩ := Option.filter_eq_some_iff.mp hf
    rw [Bool.and_eq_true] at hspace
    have hrule := Query.isSome_filterRule?_iff.mpr (hlast hspace.1 f hlastf)
    obtain ⟨rule, hrule⟩ := Option.isSome_iff_exists.mp hrule
    rw [hrule]
    exact ⟨_, rfl⟩
  · exact ⟨_, rfl⟩

/-- **A text that is judged without fault has suggestions**, if the entity is known where it has
to be: the filter behind which operators are asked for has been judged. -/
theorem welcome_of_judge (h : Query.judge raw = .ok (Query.ofText raw))
    (hnamed : Named (Query.ofText raw)) : Welcome raw := by
  refine ⟨⟨_, h⟩, ?_⟩
  rw [complete, h]
  dsimp only
  split
  · exact ⟨_, rfl⟩
  cases hlast : (Query.ofText raw).lastKeyword with
  | none => exact ⟨_, by rw [Suggestion.forQuery, hlast]⟩
  | some k =>
    rw [Suggestion.forQuery, hlast]
    cases k with
    | filters =>
      -- operators are only asked for behind a space, where the text is due
      obtain ⟨e, he⟩ := hnamed hlast
      refine exists_forFilters he fun hspace f hf => ?_
      have hconforms := conforms_of_atSpace h hlast hspace
      exact hconforms.filters f (List.mem_of_getLast? hf) e (Query.knownEntity?_eq_some_iff.mp he)
    | fields => exact ⟨_, rfl⟩
    | entity => exact ⟨_, rfl⟩
    | chains => exact ⟨_, rfl⟩
    | dump => exact ⟨_, rfl⟩

/-- **A sound text is welcome.** -/
theorem Sound.welcome (h : Sound raw) : Welcome raw :=
  welcome_of_judge (Query.judge_of_conforms h.conforms) h.named

/-- **A text without chains that does not end in a space is welcome**: it is not due. -/
theorem welcome_of_not_stem (hchains : (Query.ofText raw).chains = none) (hraw : ¬Stem raw)
    (hnamed : Named (Query.ofText raw)) : Welcome raw := by
  refine welcome_of_judge (Query.judge_of_not_due ?_) hnamed
  rintro ⟨-, hcomplete | hspace⟩
  · simp [Query.isComplete, hchains] at hcomplete
  · exact hraw hspace

/-! ### What may be put behind a sound text -/

theorem not_blank_of_opens {s : Text} (h : Query.opening <+: s) : ¬Blank s := by
  obtain ⟨t, rfl⟩ := h
  exact Query.not_blank_opening_append t

theorem Sound.append_blank {w : Text} (h : Sound raw) (hw : Blank w) : Sound (raw ++ w) := by
  obtain ⟨⟨hopens, hentity, hfields, hfilters, hchains⟩, hnamed⟩ := h
  have hread : Query.ofText (raw ++ w) = Query.ofText raw := Query.ofText_append_blank raw hw
  refine ⟨⟨hopens.trans (List.prefix_append raw w), ?_, ?_, ?_, ?_⟩, ?_⟩ <;>
    rw [hread] <;> assumption

/-- **A keyword may be put behind a sound text and a space.** Of `WHERE` this is only true when
the entity is known. -/
theorem Sound.append_keyword {k : Keyword} (h : Sound raw) (hstem : Stem raw) (hk : k ≠ .fields)
    (hfilters : k = .filters → ∃ e, (Query.ofText raw).knownEntity? = some e) :
    Sound (raw ++ k.text) := by
  have hopens := h.conforms.opens
  have hread : Query.ofText (raw ++ k.text) = { Query.ofText raw with lastKeyword := some k } :=
    Query.ofText_append_keyword (not_blank_of_opens hopens) hstem.blankEnd hk
  refine ⟨?_, ?_⟩
  · rw [hread]
    exact ⟨hopens.trans (List.prefix_append raw _), h.conforms.entity, h.conforms.fields,
      h.conforms.filters, h.conforms.chains⟩
  · rw [hread]
    intro hlast
    exact hfilters (Option.some.inj hlast)

/-! ### Queries that fit an entity -/

/-- **A query that fits an entity**: it names the entity, and everything in it belongs to it. -/
structure Fits (e : Entity) (q : Query) : Prop where
  /-- The entity is named. -/
  entity : q.entity = some e.name
  /-- The fields are fields of the entity. -/
  fields : ∀ x ∈ q.fieldList, x = wildcard ∨ x ∈ e.fields
  /-- The filters are filters of the entity. -/
  filters : ∀ f ∈ q.filterList, f.field ∈ e.filterFields
  /-- The chains exist. -/
  chains : ∀ x ∈ q.chainList, Query.ChainFits x

theorem Fits.knownEntity? {e : Entity} {q : Query} (h : Fits e q) : q.knownEntity? = some e :=
  Query.knownEntity?_eq_some_iff.mpr h.entity

/-- **A text whose query fits an entity is sound.** -/
theorem Fits.sound {e : Entity} (h : Fits e (Query.ofText raw)) (hopens : Query.opening <+: raw) :
    Sound raw := by
  refine ⟨⟨hopens, ?_, ?_, ?_, h.chains⟩, fun _ => ⟨e, h.knownEntity?⟩⟩
  · intro name hname
    rw [h.entity] at hname
    exact ⟨e, (Option.some.inj hname).symm⟩
  · intro x hx
    refine (h.fields x hx).imp_right fun hx => ⟨e, ?_, hx⟩
    exact (Query.means_iff h.entity).mpr rfl
  · intro f hf e' he'
    rw [h.entity, Option.some.injEq] at he'
    have hname := congrArg Entity.ofName? he'
    simp only [Entity.ofName?_name, Option.some.injEq] at hname
    exact hname ▸ h.filters f hf

/-- **What a list of fields alone says**: there is an entity if the fields imply one. -/
structure SaysFields (fields : List Text) (q : Query) : Prop where
  /-- The fields. -/
  fieldList : q.fieldList = fields
  /-- The entity that they imply. -/
  entity : q.entity = (impliedEntity? fields).map Entity.name
  /-- There are no filters. -/
  filters : q.filters = none
  /-- There are no chains. -/
  chains : q.chains = none
  /-- Fields are being typed. -/
  lastKeyword : q.lastKeyword = some .fields

theorem SaysFields.knownEntity? {fields : List Text} {q : Query} (h : SaysFields fields q) :
    q.knownEntity? = impliedEntity? fields := by
  rw [Query.knownEntity?, h.entity]
  cases impliedEntity? fields <;> simp

/-- **A text that is a coherent list of fields is sound.** -/
theorem SaysFields.sound {fields : List Text} (h : SaysFields fields (Query.ofText raw))
    (hopens : Query.opening <+: raw) (hfields : Coherent fields) : Sound raw := by
  refine ⟨⟨hopens, ?_, ?_, ?_, ?_⟩, ?_⟩
  · intro name hname
    rw [h.entity, Option.mem_def, Option.map_eq_some_iff] at hname
    obtain ⟨e, -, rfl⟩ := hname
    exact ⟨e, rfl⟩
  · intro x hx
    rw [h.fieldList] at hx
    refine (hfields x hx).imp_right fun ⟨e, he, hx⟩ => ⟨e, ?_, hx⟩
    intro name hname
    rw [h.entity, Option.mem_def, Option.map_eq_some_iff] at hname
    obtain ⟨e', he', rfl⟩ := hname
    rw [he e' he']
  · intro f hf
    simp [Query.filterList, h.filters] at hf
  · intro x hx
    simp [Query.chainList, h.chains] at hx
  · intro hlast
    rw [h.lastKeyword] at hlast
    cases hlast

end Typing

end ChainQuery
