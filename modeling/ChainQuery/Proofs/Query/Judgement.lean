import ChainQuery.Query.Judgement
import ChainQuery.Proofs.Text.Trimming

/-!
# What is wrong with a query

The judgement of `ChainQuery.Query.judge` is described here without the checks that arrive at it.
A query **conforms** to the tables when its text opens as it must and everything in it that has
to exist does exist (`ChainQuery.Query.Conforms`); while no entity is named, a field may be one
of any entity, and filters are not judged.

A query that does not conform is objected to, and what is objected to is what comes **first**:
first among the five things that are asked for, and first in its list
(`ChainQuery.Query.Objection`). So there is one objection to a query that does not conform, and
none to a query that does, and a text that is due is judged accordingly
(`ChainQuery.Query.read_judging_exact`).
-/

namespace ChainQuery

open Text

namespace Fault

/-! ### What a user is told -/

variable (word : Text) (e : Entity)

theorem message_unknownEntity :
    (unknownEntity word).message = "Invalid entity \"".toList ++ word ++ "\"".toList := by
  have hquote : "Invalid entity \"".toList = "Invalid entity ".toList ++ "\"".toList := by decide
  change "Invalid entity ".toList ++ quoted word = _
  rw [hquote, quoted]
  simp only [List.append_assoc]

theorem message_unknownField :
    (unknownField word).message = "Invalid field \"".toList ++ word ++ "\"".toList := by
  have hquote : "Invalid field \"".toList = "Invalid field ".toList ++ "\"".toList := by decide
  change "Invalid field ".toList ++ quoted word = _
  rw [hquote, quoted]
  simp only [List.append_assoc]

theorem message_foreignField :
    (foreignField word e).message =
      "Invalid field \"".toList ++ word ++ "\"".toList ++
        (" for entity \"".toList ++ e.name ++ "\"".toList) := by
  have hentity : " for entity \"".toList = " for entity ".toList ++ "\"".toList := by decide
  change (unknownField word).message ++ " for entity ".toList ++ quoted e.name = _
  rw [message_unknownField, hentity, quoted]
  simp only [List.append_assoc]

theorem message_foreignFilter :
    (foreignFilter word e).message =
      "Invalid filter \"".toList ++ word ++ "\"".toList ++
        (" for entity \"".toList ++ e.name ++ "\"".toList) := by
  have hquote : "Invalid filter \"".toList = "Invalid filter ".toList ++ "\"".toList := by decide
  have hentity : " for entity \"".toList = " for entity ".toList ++ "\"".toList := by decide
  change "Invalid filter ".toList ++ quoted word ++ " for entity ".toList ++ quoted e.name = _
  rw [hquote, hentity, quoted, quoted]
  simp only [List.append_assoc]

theorem message_unknownChain :
    (unknownChain word).message = "Invalid chain \"".toList ++ word ++ "\"".toList := by
  have hquote : "Invalid chain \"".toList = "Invalid chain ".toList ++ "\"".toList := by decide
  change "Invalid chain ".toList ++ quoted word = _
  rw [hquote, quoted]
  simp only [List.append_assoc]

end Fault

namespace Query

/-! ### Queries that conform -/

/-- The entity could be the one that is meant: no other is named. -/
def Means (q : Query) (e : Entity) : Prop := ∀ name ∈ q.entity, name = e.name

/-- The entity exists, if one is named. -/
def EntityExists (q : Query) : Prop := ∀ name ∈ q.entity, ∃ e : Entity, name = e.name

/-- A field is the wildcard, or a field of the entity that is named, or of any entity if none
is. -/
def FieldFits (q : Query) (field : Text) : Prop :=
  field = wildcard ∨ ∃ e : Entity, q.Means e ∧ field ∈ e.fields

/-- A filter compares a field by which the entity is filtered, if there is one. -/
def FilterFits (q : Query) (f : Filter) : Prop :=
  ∀ e : Entity, q.entity = some e.name → f.field ∈ e.filterFields

/-- A text is the beginning of the name of a chain. -/
def ChainFits (name : Text) : Prop := ∃ chain ∈ ChainQuery.chains, name <+: chain

/-- **A query that conforms** to the tables, and whose text opens as it must. -/
structure Conforms (raw : Text) (q : Query) : Prop where
  /-- The text begins with `GET` and a space. -/
  opens : opening <+: raw
  /-- The entity exists. -/
  entity : q.EntityExists
  /-- The fields fit. -/
  fields : ∀ field ∈ q.fieldList, q.FieldFits field
  /-- The filters fit. -/
  filters : ∀ f ∈ q.filterList, q.FilterFits f
  /-- The chains fit. -/
  chains : ∀ name ∈ q.chainList, ChainFits name

/-! ### The objection to a query that does not -/

/-- How the entity is named behind a field or a filter. -/
def forEntity (q : Query) : Text :=
  match q.entity with
  | some name => " for entity \"".toList ++ name ++ "\"".toList
  | none => []

/-- **The objection to a query**, in the words in which it is raised: everything that is asked
for earlier is as it should be, and so is what stands before the offending item in its list. -/
inductive Objection (raw : Text) (q : Query) : Text → Prop
  /-- The text does not begin with `GET` and a space. -/
  | opening (h : ¬opening <+: raw) : Objection raw q "Query must start with GET".toList
  /-- The entity does not exist. -/
  | entity {name : Text} (hraw : Query.opening <+: raw) (hname : q.entity = some name)
      (h : ∀ e : Entity, name ≠ e.name) :
      Objection raw q ("Invalid entity \"".toList ++ name ++ "\"".toList)
  /-- A field does not fit. -/
  | field {before after : List Text} {field : Text} (hraw : Query.opening <+: raw)
      (hentity : q.EntityExists) (hlist : q.fieldList = before ++ field :: after)
      (hbefore : ∀ x ∈ before, q.FieldFits x) (h : ¬q.FieldFits field) :
      Objection raw q ("Invalid field \"".toList ++ field ++ "\"".toList ++ q.forEntity)
  /-- A filter does not fit. -/
  | filter {before after : List Filter} {f : Filter} (hraw : Query.opening <+: raw)
      (hentity : q.EntityExists) (hfields : ∀ x ∈ q.fieldList, q.FieldFits x)
      (hlist : q.filterList = before ++ f :: after) (hbefore : ∀ x ∈ before, q.FilterFits x)
      (h : ¬q.FilterFits f) :
      Objection raw q ("Invalid filter \"".toList ++ f.field ++ "\"".toList ++ q.forEntity)
  /-- A chain does not fit. -/
  | chain {before after : List Text} {name : Text} (hraw : Query.opening <+: raw)
      (hentity : q.EntityExists) (hfields : ∀ x ∈ q.fieldList, q.FieldFits x)
      (hfilters : ∀ x ∈ q.filterList, q.FilterFits x)
      (hlist : q.chainList = before ++ name :: after) (hbefore : ∀ x ∈ before, ChainFits x)
      (h : ¬ChainFits name) :
      Objection raw q ("Invalid chain \"".toList ++ name ++ "\"".toList)

/-! ### Each of the checks -/

variable {raw : Text} {q : Query}

theorem openingFault?_eq_none_iff : openingFault? raw = none ↔ opening <+: raw := by
  rw [openingFault?, beginsWith]
  simp

theorem openingFault?_eq_some_iff {fault : Fault} :
    openingFault? raw = some fault ↔ ¬opening <+: raw ∧ fault = .noOpening := by
  rw [← openingFault?_eq_none_iff, openingFault?]
  split
  · simp
  · simp [eq_comm]

theorem isSome_ofName?_iff {name : Text} :
    (Entity.ofName? name).isSome = true ↔ ∃ e : Entity, name = e.name := by
  simp [Option.isSome_iff_exists, Entity.ofName?_eq_some_iff]

theorem entityFault?_eq_none_iff : q.entityFault? = none ↔ q.EntityExists := by
  rw [entityFault?, EntityExists]
  cases h : q.entity with
  | none => simp
  | some name => simp [← isSome_ofName?_iff, Option.isSome_iff_ne_none]

theorem entityFault?_eq_some_iff {fault : Fault} :
    q.entityFault? = some fault ↔
      ∃ name, q.entity = some name ∧ (∀ e : Entity, name ≠ e.name) ∧
        fault = .unknownEntity name := by
  have hne (name : Text) : (∀ e : Entity, name ≠ e.name) ↔ (Entity.ofName? name).isSome = false := by
    rw [← Bool.not_eq_true, isSome_ofName?_iff]
    simp
  rw [entityFault?]
  cases h : q.entity with
  | none => simp
  | some name =>
    simp only [Option.some.injEq, exists_eq_left', hne]
    cases (Entity.ofName? name).isSome <;> simp [eq_comm]

theorem knownEntity?_eq_some_iff {e : Entity} :
    q.knownEntity? = some e ↔ q.entity = some e.name := by
  rw [knownEntity?]
  cases h : q.entity with
  | none => simp
  | some name => simp [Entity.ofName?_eq_some_iff]

/-- No entity is known exactly when none is named, or none that exists. -/
theorem knownEntity?_eq_none_iff : q.knownEntity? = none ↔ ∀ e : Entity, q.entity ≠ some e.name := by
  simp only [Option.eq_none_iff_forall_ne_some, ne_eq, knownEntity?_eq_some_iff]

/-- An entity that exists is known, and only it is meant. -/
theorem EntityExists.cases (h : q.EntityExists) :
    (q.entity = none ∧ q.knownEntity? = none) ∨
      ∃ e : Entity, q.entity = some e.name ∧ q.knownEntity? = some e := by
  cases hq : q.entity with
  | none => exact Or.inl ⟨rfl, by rw [knownEntity?, hq]; rfl⟩
  | some name =>
    obtain ⟨e, rfl⟩ := h name hq
    exact Or.inr ⟨e, rfl, knownEntity?_eq_some_iff.mpr hq⟩

theorem means_iff {e e' : Entity} (h : q.entity = some e.name) : q.Means e' ↔ e' = e := by
  rw [Means, h]
  constructor
  · intro hmeans
    have hname := congrArg Entity.ofName? (hmeans e.name rfl)
    simpa using hname.symm
  · rintro rfl
    simp

theorem isKnownField_iff {field : Text} :
    isKnownField field = true ↔ ∃ e : Entity, field ∈ e.fields := by
  simp [isKnownField, Entity.hasField, Entity.mem_all]

theorem fieldFault?_eq_none_iff (hq : q.EntityExists) {field : Text} :
    fieldFault? q.knownEntity? field = none ↔ q.FieldFits field := by
  rw [fieldFault?.eq_def, FieldFits]
  by_cases hw : field = wildcard
  · simp [hw]
  rcases hq.cases with ⟨hnone, hknown⟩ | ⟨e, he, hknown⟩
  · have hmeans (e : Entity) : q.Means e := by simp [Means, hnone]
    simp [hknown, hw, hmeans, isKnownField_iff]
  · simp [hknown, hw, means_iff he, Entity.hasField]

theorem fieldFault?_message (hq : q.EntityExists) {field : Text} {fault : Fault}
    (h : fieldFault? q.knownEntity? field = some fault) :
    fault.message = "Invalid field \"".toList ++ field ++ "\"".toList ++ q.forEntity := by
  rw [fieldFault?.eq_def] at h
  split at h
  · cases h
  rcases hq.cases with ⟨hnone, hknown⟩ | ⟨e, he, hknown⟩
  · rw [hknown] at h
    obtain ⟨-, hfault⟩ := Option.ite_none_left_eq_some.mp h
    rw [← Option.some.inj hfault, forEntity, hnone, List.append_nil, Fault.message_unknownField]
  · rw [hknown] at h
    obtain ⟨-, hfault⟩ := Option.ite_none_left_eq_some.mp h
    rw [← Option.some.inj hfault, forEntity, he, Fault.message_foreignField]

theorem isSome_filterRule?_iff {e : Entity} {field : Text} :
    (e.filterRule? field).isSome = true ↔ field ∈ e.filterFields := by
  simp [Entity.filterRule?, Entity.filterFields]

theorem filterFault?_eq_none_iff (hq : q.EntityExists) {f : Filter} :
    filterFault? q.knownEntity? f = none ↔ q.FilterFits f := by
  rw [filterFault?.eq_def, FilterFits]
  rcases hq.cases with ⟨hnone, hknown⟩ | ⟨e, he, hknown⟩
  · simp [hknown, hnone]
  · have hname (e' : Entity) : q.entity = some e'.name ↔ e' = e := by
      rw [← knownEntity?_eq_some_iff, hknown, Option.some.injEq, eq_comm]
    simp [hknown, hname, ← isSome_filterRule?_iff, Option.isSome_iff_ne_none]

theorem filterFault?_message (hq : q.EntityExists) {f : Filter} {fault : Fault}
    (h : filterFault? q.knownEntity? f = some fault) :
    fault.message = "Invalid filter \"".toList ++ f.field ++ "\"".toList ++ q.forEntity := by
  rw [filterFault?.eq_def] at h
  rcases hq.cases with ⟨hnone, hknown⟩ | ⟨e, he, hknown⟩
  · rw [hknown] at h
    cases h
  · rw [hknown] at h
    obtain ⟨-, hfault⟩ := Option.ite_none_left_eq_some.mp h
    rw [← Option.some.inj hfault, forEntity, he, Fault.message_foreignFilter]

theorem chainFault?_eq_none_iff {name : Text} : chainFault? name = none ↔ ChainFits name := by
  rw [chainFault?, ChainFits, abbreviatesChain]
  simp [beginsWith]

theorem chainFault?_message {name : Text} {fault : Fault} (h : chainFault? name = some fault) :
    fault.message = "Invalid chain \"".toList ++ name ++ "\"".toList := by
  rw [chainFault?] at h
  obtain ⟨-, hfault⟩ := Option.ite_none_left_eq_some.mp h
  rw [← Option.some.inj hfault, Fault.message_unknownChain]

/-! ### All of them -/

theorem findSome?_eq_none_iff_of {α : Type} {check : α → Option Fault} {fits : α → Prop}
    (h : ∀ x, check x = none ↔ fits x) {l : List α} :
    l.findSome? check = none ↔ ∀ x ∈ l, fits x := by
  simp only [List.findSome?_eq_none_iff, h]

/-- A list is at fault in its first item that does not fit. -/
theorem findSome?_eq_some_iff_of {α : Type} {check : α → Option Fault} {fits : α → Prop}
    (h : ∀ x, check x = none ↔ fits x) {l : List α} {fault : Fault} :
    l.findSome? check = some fault ↔
      ∃ before x after, l = before ++ x :: after ∧ (∀ y ∈ before, fits y) ∧ ¬fits x ∧
        check x = some fault := by
  rw [List.findSome?_eq_some_iff]
  constructor
  · rintro ⟨before, x, after, hl, hx, hbefore⟩
    refine ⟨before, x, after, hl, fun y hy => (h y).mp (hbefore y hy), ?_, hx⟩
    rw [← h x, hx]
    simp
  · rintro ⟨before, x, after, hl, hbefore, -, hx⟩
    exact ⟨before, x, after, hl, hx, fun y hy => (h y).mpr (hbefore y hy)⟩

/-- **A query has no fault exactly when it conforms.** -/
theorem fault?_eq_none_iff : q.fault? raw = none ↔ Conforms raw q := by
  simp only [fault?, Option.or_eq_none_iff, openingFault?_eq_none_iff, entityFault?_eq_none_iff]
  constructor
  · rintro ⟨⟨⟨⟨hraw, hentity⟩, hfields⟩, hfilters⟩, hchains⟩
    exact ⟨hraw, hentity,
      (findSome?_eq_none_iff_of fun _ => fieldFault?_eq_none_iff hentity).mp hfields,
      (findSome?_eq_none_iff_of fun _ => filterFault?_eq_none_iff hentity).mp hfilters,
      (findSome?_eq_none_iff_of fun _ => chainFault?_eq_none_iff).mp hchains⟩
  · rintro ⟨hraw, hentity, hfields, hfilters, hchains⟩
    exact ⟨⟨⟨⟨hraw, hentity⟩,
      (findSome?_eq_none_iff_of fun _ => fieldFault?_eq_none_iff hentity).mpr hfields⟩,
      (findSome?_eq_none_iff_of fun _ => filterFault?_eq_none_iff hentity).mpr hfilters⟩,
      (findSome?_eq_none_iff_of fun _ => chainFault?_eq_none_iff).mpr hchains⟩

/-- The fault of a query is objected to. -/
theorem objection_of_fault? {fault : Fault} (h : q.fault? raw = some fault) :
    Objection raw q fault.message := by
  simp only [fault?, Option.or_eq_some_iff, Option.or_eq_none_iff, openingFault?_eq_none_iff,
    entityFault?_eq_none_iff] at h
  -- one case for each of the checks, in which the checks before it find nothing
  rcases h with ((((hraw | ⟨hraw, hentity⟩) | ⟨⟨hraw, hentity⟩, hfields⟩) |
    ⟨⟨⟨hraw, hentity⟩, hfields⟩, hfilters⟩) | ⟨⟨⟨⟨hraw, hentity⟩, hfields⟩, hfilters⟩, hchains⟩)
  · obtain ⟨hnot, rfl⟩ := openingFault?_eq_some_iff.mp hraw
    exact .opening hnot
  · obtain ⟨name, hname, hne, rfl⟩ := entityFault?_eq_some_iff.mp hentity
    rw [Fault.message_unknownEntity]
    exact .entity hraw hname hne
  · obtain ⟨before, field, after, hlist, hbefore, hnot, hfield⟩ :=
      (findSome?_eq_some_iff_of fun _ => fieldFault?_eq_none_iff hentity).mp hfields
    rw [fieldFault?_message hentity hfield]
    exact .field hraw hentity hlist hbefore hnot
  · obtain ⟨before, f, after, hlist, hbefore, hnot, hfilter⟩ :=
      (findSome?_eq_some_iff_of fun _ => filterFault?_eq_none_iff hentity).mp hfilters
    rw [filterFault?_message hentity hfilter]
    exact .filter hraw hentity
      ((findSome?_eq_none_iff_of fun _ => fieldFault?_eq_none_iff hentity).mp hfields)
      hlist hbefore hnot
  · obtain ⟨before, name, after, hlist, hbefore, hnot, hchain⟩ :=
      (findSome?_eq_some_iff_of fun _ => chainFault?_eq_none_iff).mp hchains
    rw [chainFault?_message hchain]
    exact .chain hraw hentity
      ((findSome?_eq_none_iff_of fun _ => fieldFault?_eq_none_iff hentity).mp hfields)
      ((findSome?_eq_none_iff_of fun _ => filterFault?_eq_none_iff hentity).mp hfilters)
      hlist hbefore hnot

/-- An item that does not fit is at fault. -/
theorem exists_findSome?_of {α : Type} {check : α → Option Fault} {fits : α → Prop}
    (h : ∀ x, check x = none ↔ fits x) {l before after : List α} {x : α}
    (hl : l = before ++ x :: after) (hbefore : ∀ y ∈ before, fits y) (hx : ¬fits x) :
    ∃ fault, l.findSome? check = some fault ∧ check x = some fault := by
  rw [← h x, ← ne_eq, Option.ne_none_iff_exists'] at hx
  obtain ⟨fault, hfault⟩ := hx
  refine ⟨fault, (findSome?_eq_some_iff_of h).mpr ⟨before, x, after, hl, hbefore, ?_, hfault⟩,
    hfault⟩
  rw [← h x, hfault]
  simp

/-- Only the fault of a query is objected to. -/
theorem Objection.exists_fault? {m : Text} (h : Objection raw q m) :
    ∃ fault, q.fault? raw = some fault ∧ fault.message = m := by
  -- an objection says of every earlier check that it has been passed
  cases h with
  | opening h =>
    refine ⟨.noOpening, ?_, rfl⟩
    rw [fault?, openingFault?_eq_some_iff.mpr ⟨h, rfl⟩]
    rfl
  | @entity name hraw hname h =>
    refine ⟨.unknownEntity name, ?_, Fault.message_unknownEntity name⟩
    rw [fault?, openingFault?_eq_none_iff.mpr hraw,
      entityFault?_eq_some_iff.mpr ⟨name, hname, h, rfl⟩]
    rfl
  | field hraw hentity hlist hbefore h =>
    obtain ⟨fault, hlist, hfault⟩ :=
      exists_findSome?_of (fun _ => fieldFault?_eq_none_iff hentity) hlist hbefore h
    refine ⟨fault, ?_, fieldFault?_message hentity hfault⟩
    rw [fault?, openingFault?_eq_none_iff.mpr hraw, entityFault?_eq_none_iff.mpr hentity, hlist]
    rfl
  | filter hraw hentity hfields hlist hbefore h =>
    obtain ⟨fault, hlist, hfault⟩ :=
      exists_findSome?_of (fun _ => filterFault?_eq_none_iff hentity) hlist hbefore h
    refine ⟨fault, ?_, filterFault?_message hentity hfault⟩
    rw [fault?, openingFault?_eq_none_iff.mpr hraw, entityFault?_eq_none_iff.mpr hentity,
      (findSome?_eq_none_iff_of fun _ => fieldFault?_eq_none_iff hentity).mpr hfields, hlist]
    rfl
  | chain hraw hentity hfields hfilters hlist hbefore h =>
    obtain ⟨fault, hlist, hfault⟩ :=
      exists_findSome?_of (fun _ => chainFault?_eq_none_iff) hlist hbefore h
    refine ⟨fault, ?_, chainFault?_message hfault⟩
    rw [fault?, openingFault?_eq_none_iff.mpr hraw, entityFault?_eq_none_iff.mpr hentity,
      (findSome?_eq_none_iff_of fun _ => fieldFault?_eq_none_iff hentity).mpr hfields,
      (findSome?_eq_none_iff_of fun _ => filterFault?_eq_none_iff hentity).mpr hfilters, hlist]
    rfl

/-! ### Judgement -/

/-- **A text that is due**: it is not blank, and it holds a complete query or ends in a space. -/
def Due (raw : Text) : Prop :=
  ¬Blank raw ∧ ((ofText raw).isComplete = true ∨ [' '] <:+ raw)

theorem lastIs_space_iff : lastIs (· == ' ') raw = true ↔ [' '] <:+ raw := by
  rw [lastIs, Option.any_eq_true]
  constructor
  · rintro ⟨c, hc, hspace⟩
    obtain ⟨s, rfl⟩ := List.getLast?_eq_some_iff.mp hc
    exact ⟨s, by simp_all⟩
  · rintro ⟨s, rfl⟩
    exact ⟨' ', by simp, rfl⟩

theorem isDue_iff : (ofText raw).isDue raw = true ↔ Due raw := by
  have hblank : (trim raw).isEmpty = false ↔ ¬Blank raw := by
    rw [← trim_eq_nil_iff, List.isEmpty_eq_false_iff]
  rw [isDue, Due, Bool.and_eq_true, Bool.not_eq_true', hblank, Bool.or_eq_true, lastIs_space_iff]

/-- A text that is due is judged by the faults of what it holds. -/
theorem judge_of_due (h : Due raw) :
    judge raw =
      match (ofText raw).fault? raw with
      | some fault => .error (.locate raw fault)
      | none => .ok (ofText raw) := by
  rw [judge, isDue_iff.mpr h]
  rfl

theorem judge_of_not_due (h : ¬Due raw) : judge raw = .ok (ofText raw) := by
  have hdue : (ofText raw).isDue raw = false := by
    rw [← Bool.not_eq_true, isDue_iff]
    exact h
  rw [judge, hdue]
  rfl

/-- A text that holds a conforming query is let pass, due or not. -/
theorem judge_of_conforms (h : Conforms raw (ofText raw)) : judge raw = .ok (ofText raw) := by
  by_cases hdue : Due raw
  · rw [judge_of_due hdue, fault?_eq_none_iff.mpr h]
  · exact judge_of_not_due hdue

/-- Judgement changes nothing in a query that it lets pass. -/
theorem eq_ofText_of_judge {raw : Text} {q : Query} (h : judge raw = .ok q) : q = ofText raw := by
  rw [judge] at h
  split at h
  · cases h
  · exact (Except.ok.inj h).symm

/-- **Judgement is exact.** A text that is not due is taken as it is. A text that is due is
accepted exactly when the query it holds conforms, and otherwise refused with the one objection
there is to the query: the earliest thing that is not as it should be, and of the items of a
list the leftmost. -/
theorem read_judging_exact (raw : Text) :
    read raw false = .ok (ofText raw) ∧
      (¬Due raw → read raw true = .ok (ofText raw)) ∧
      (Due raw →
        (read raw true = .ok (ofText raw) ↔ Conforms raw (ofText raw)) ∧
        (¬Conforms raw (ofText raw) →
          ∃ d : Diagnostic, read raw true = .error d ∧
            ∀ m, Objection raw (ofText raw) m ↔ d.message = m)) := by
  refine ⟨rfl, judge_of_not_due, fun hdue => ?_⟩
  have hjudge : read raw true = _ := judge_of_due hdue
  rw [hjudge, ← fault?_eq_none_iff]
  cases hfault : (ofText raw).fault? raw with
  | none => simp
  | some fault =>
    -- there is no second objection, since the first fault is one and messages are of faults
    refine ⟨by simp, fun _ => ⟨.locate raw fault, rfl, fun m => ?_⟩⟩
    constructor
    · intro h
      obtain ⟨fault', hfault', hm⟩ := h.exists_fault?
      rw [hfault, Option.some.injEq] at hfault'
      rw [← hm, ← hfault']
      rfl
    · rintro rfl
      exact objection_of_fault? hfault

/-! ### Queries of which the same is judged -/

/-- **Two queries of which the same is judged**: they have the same fields, entity and chains, and
their filters compare the same fields. Values, identifiers and files are not judged. -/
structure JudgedAlike (q q' : Query) : Prop where
  /-- The fields are the same. -/
  fields : q'.fields = q.fields
  /-- The entity is the same. -/
  entity : q'.entity = q.entity
  /-- The filters compare the same fields. -/
  filters : q'.filterList.map Filter.field = q.filterList.map Filter.field
  /-- The chains are the same. -/
  chains : q'.chains = q.chains

namespace JudgedAlike

variable {q' : Query} {raw' : Text}

theorem refl (q : Query) : JudgedAlike q q := ⟨rfl, rfl, rfl, rfl⟩

theorem isComplete (h : JudgedAlike q q') : q'.isComplete = q.isComplete := by
  rw [Query.isComplete, Query.isComplete, h.fields, h.entity, h.chains]

theorem conforms (h : JudgedAlike q q') (hq : Conforms raw q) (hopens : opening <+: raw') :
    Conforms raw' q' where
  opens := hopens
  entity := by
    rw [EntityExists, h.entity]
    exact hq.entity
  fields := by
    rw [fieldList, h.fields]
    intro x hx
    simpa only [FieldFits, Means, h.entity] using hq.fields x hx
  filters := by
    intro f hf e he
    have hmem : f.field ∈ q.filterList.map Filter.field := h.filters ▸ List.mem_map_of_mem hf
    obtain ⟨g, hg, hfield⟩ := List.mem_map.mp hmem
    exact hfield ▸ hq.filters g hg e (h.entity ▸ he)
  chains := by
    rw [chainList, h.chains]
    exact hq.chains

end JudgedAlike

end Query

end ChainQuery
