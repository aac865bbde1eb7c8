import ChainQuery.Service.Encoding
import Mathlib.Data.List.Forall2

/-!
# What a JSON value shows

A query leaves the library as a JSON value, and so does what is wrong with a text. This file says
what whoever receives such a value can see in it, by the names of its members and not by the way in
which it was made.

| what is shown | what can be seen |
|---|---|
| something missing | `null` (`ChainQuery.Json.ShowsOption`) |
| a list | an array with as many items, each of which shows its own (`ChainQuery.Json.ShowsList`) |
| a query | a member for each component (`ChainQuery.Json.ShowsQuery`) |
| what is wrong | the message, and the place of it (`ChainQuery.Json.ShowsDiagnostic`) |

The values that are made do show this, and a query can be told from what is shown of it: nothing is
lost on the way (`ChainQuery.Json.tells_query`).
-/

namespace ChainQuery

namespace Json

/-! ### Parts of a value -/

/-- **An object has a member** of that name, and it shows something. -/
def HasMember (value : Json) (name : String) (Shows : Json → Prop) : Prop :=
  ∃ shown, value.member? name.toList = some shown ∧ Shows shown

/-- What is missing is shown as `null`. -/
inductive ShowsOption {α : Type} (Shows : α → Json → Prop) : Option α → Json → Prop
  /-- Nothing is there. -/
  | missing : ShowsOption Shows none .null
  /-- Something is there. -/
  | present {a : α} {shown : Json} (h : Shows a shown) : ShowsOption Shows (some a) shown

/-- A list is shown as an array, item by item. -/
inductive ShowsList {α : Type} (Shows : α → Json → Prop) : List α → Json → Prop
  /-- The items stand in the order of the list. -/
  | array {list : List α} {items : List Json} (h : List.Forall₂ Shows list items) :
      ShowsList Shows list (.array items)

/-- A text is shown as a string. -/
def ShowsText (s : Text) (shown : Json) : Prop := shown = .string s

/-- A filter is shown with its parts. -/
structure ShowsFilter (f : Filter) (shown : Json) : Prop where
  /-- The field. -/
  field : shown.HasMember "field" (ShowsText f.field)
  /-- The operator, as it is written. -/
  operator : shown.HasMember "operator" (ShowsOption (fun op => ShowsText op.text) f.operator)
  /-- The value. -/
  value : shown.HasMember "value" (ShowsOption ShowsText f.value)

/-- **A query is shown** with all its components. -/
structure ShowsQuery (q : Query) (shown : Json) : Prop where
  /-- The name of the entity. -/
  entity : shown.HasMember "entity" (ShowsOption ShowsText q.entity)
  /-- Which record of it is asked for. -/
  identifier : shown.HasMember "entityId" (ShowsOption ShowsText q.identifier)
  /-- The fields. -/
  fields : shown.HasMember "fields" (ShowsOption (ShowsList ShowsText) q.fields)
  /-- The filters. -/
  filters : shown.HasMember "filters" (ShowsOption (ShowsList ShowsFilter) q.filters)
  /-- The chains. -/
  chains : shown.HasMember "chains" (ShowsOption (ShowsList ShowsText) q.chains)
  /-- The file. -/
  dump : shown.HasMember "dump" (ShowsOption ShowsText q.dump)
  /-- The last keyword, as it is written. -/
  lastKeyword : shown.HasMember "lastKeyword"
    (ShowsOption (fun k => ShowsText k.text) q.lastKeyword)

/-- A stretch of a text is shown by its ends. -/
structure ShowsSpan (span : Span) (shown : Json) : Prop where
  /-- Where it starts. -/
  start : shown.HasMember "start" (· = .number span.start)
  /-- Where it stops. -/
  stop : shown.HasMember "end" (· = .number span.stop)

/-- **What is wrong is shown** with what a user is told, and with the place. -/
structure ShowsDiagnostic (d : Diagnostic) (shown : Json) : Prop where
  /-- What a user is told. -/
  message : shown.HasMember "message" (ShowsText d.message)
  /-- The stretch that is marked. -/
  position : shown.HasMember "position" (ShowsOption ShowsSpan d.position)

/-! ### What is made shows this -/

section Made

variable {α : Type} {Shows : α → Json → Prop} {encode : α → Json}

theorem hasMember_ofMembers {members : List (String × Json)} {name : String} {value : Json}
    {Shown : Json → Prop} (h : (members.find? fun m => m.1 == name).map Prod.snd = some value)
    (hvalue : Shown value) : (ofMembers members).HasMember name Shown :=
  ⟨value, (member?_ofMembers name members).trans h, hvalue⟩

theorem showsOption_orNull (h : ∀ a, Shows a (encode a)) (o : Option α) :
    ShowsOption Shows o (orNull encode o) := by
  cases o with
  | none => exact .missing
  | some a => exact .present (h a)

theorem showsList_map (h : ∀ a, Shows a (encode a)) (list : List α) :
    ShowsList Shows list (.array (list.map encode)) := by
  refine .array (List.forall₂_map_right_iff.mpr ?_)
  exact List.forall₂_same.mpr fun a _ => h a

theorem showsText_string (s : Text) : ShowsText s (.string s) := rfl

theorem showsList_ofTexts (list : List Text) : ShowsList ShowsText list (ofTexts list) :=
  showsList_map showsText_string list

theorem showsFilter_ofFilter (f : Filter) : ShowsFilter f (ofFilter f) where
  field := hasMember_ofMembers rfl (showsText_string f.field)
  operator := hasMember_ofMembers rfl
    (showsOption_orNull (fun op => showsText_string op.text) f.operator)
  value := hasMember_ofMembers rfl (showsOption_orNull showsText_string f.value)

/-- **The value of a query shows it.** -/
theorem showsQuery_ofQuery (q : Query) : ShowsQuery q (ofQuery q) where
  entity := hasMember_ofMembers rfl (showsOption_orNull showsText_string q.entity)
  identifier := hasMember_ofMembers rfl (showsOption_orNull showsText_string q.identifier)
  fields := hasMember_ofMembers rfl (showsOption_orNull showsList_ofTexts q.fields)
  filters := hasMember_ofMembers rfl
    (showsOption_orNull (showsList_map showsFilter_ofFilter) q.filters)
  chains := hasMember_ofMembers rfl (showsOption_orNull showsList_ofTexts q.chains)
  dump := hasMember_ofMembers rfl (showsOption_orNull showsText_string q.dump)
  lastKeyword := hasMember_ofMembers rfl
    (showsOption_orNull (fun k => showsText_string k.text) q.lastKeyword)

theorem showsSpan_ofSpan (span : Span) : ShowsSpan span (ofSpan span) where
  start := hasMember_ofMembers rfl rfl
  stop := hasMember_ofMembers rfl rfl

/-- **The value of a diagnostic shows it.** -/
theorem showsDiagnostic_ofDiagnostic (d : Diagnostic) : ShowsDiagnostic d (ofDiagnostic d) where
  message := hasMember_ofMembers rfl (showsText_string d.message)
  position := hasMember_ofMembers rfl (showsOption_orNull showsSpan_ofSpan d.position)

end Made

/-! ### Nothing is lost -/

section Told

variable {α : Type} {Shows : α → Json → Prop}

/-- **What is shown can be told**: one value does not show two things. -/
def Tells (Shows : α → Json → Prop) : Prop :=
  ∀ ⦃a b : α⦄ ⦃shown : Json⦄, Shows a shown → Shows b shown → a = b

theorem HasMember.eq {value : Json} {name : String} {a b : α} (hshows : Tells Shows)
    (ha : value.HasMember name (Shows a)) (hb : value.HasMember name (Shows b)) : a = b := by
  obtain ⟨shown, hmember, ha⟩ := ha
  obtain ⟨shown', hmember', hb⟩ := hb
  obtain rfl : shown = shown' := Option.some.inj (hmember.symm.trans hmember')
  exact hshows ha hb

/-- What is there is told from what is missing if it is not shown as `null`. -/
theorem Tells.option (h : Tells Shows) (hnull : ∀ a, ¬Shows a .null) :
    Tells (ShowsOption Shows) := by
  intro o o' shown ho ho'
  cases ho with
  | missing =>
    cases ho' with
    | missing => rfl
    | present h' => exact absurd h' (hnull _)
  | present ha =>
    cases ho' with
    | missing => exact absurd ha (hnull _)
    | present hb => rw [h ha hb]

theorem Tells.list (h : Tells Shows) : Tells (ShowsList Shows) := by
  rintro list list' _ ⟨hlist⟩ ⟨hlist'⟩
  -- by induction on the first list, as it is shown: the items of the array decide on the second
  induction hlist generalizing list' with
  | nil =>
    cases hlist'
    rfl
  | cons ha _ ih =>
    cases hlist' with
    | cons hb hrest => rw [h ha hb, ih hrest]

theorem tells_text : Tells ShowsText := by
  rintro s t _ rfl h
  exact Json.string.inj h

theorem tells_text_of_injective {text : α → Text} (h : ∀ ⦃a b⦄, text a = text b → a = b) :
    Tells fun a => ShowsText (text a) := fun _ _ _ ha hb => h (tells_text ha hb)

theorem ShowsText.ne_null {s : Text} : ¬ShowsText s .null := by
  intro h
  cases h

theorem tells_filter : Tells ShowsFilter := by
  intro f g shown hf hg
  have hoperator : Tells fun op : Operator => ShowsText op.text :=
    tells_text_of_injective fun _ _ => Operator.text_injective
  obtain ⟨field, operator, value⟩ := f
  rw [Filter.mk.injEq]
  exact ⟨hf.field.eq tells_text hg.field,
    hf.operator.eq (hoperator.option fun _ => ShowsText.ne_null) hg.operator,
    hf.value.eq (tells_text.option fun _ => ShowsText.ne_null) hg.value⟩

theorem ShowsList.ne_null {list : List α} : ¬ShowsList Shows list .null := by
  intro h
  cases h

/-- **A query can be told from what is shown of it.** -/
theorem tells_query : Tells ShowsQuery := by
  intro q r shown hq hr
  have htext : Tells (ShowsOption ShowsText) := tells_text.option fun _ => ShowsText.ne_null
  have htexts : Tells (ShowsOption (ShowsList ShowsText)) :=
    tells_text.list.option fun _ => ShowsList.ne_null
  have hfilters : Tells (ShowsOption (ShowsList ShowsFilter)) :=
    tells_filter.list.option fun _ => ShowsList.ne_null
  have hkeyword : Tells fun k : Keyword => ShowsText k.text :=
    tells_text_of_injective fun _ _ => Keyword.text_injective
  obtain ⟨fields, entity, identifier, filters, chains, dump, lastKeyword⟩ := q
  rw [Query.mk.injEq]
  exact ⟨hq.fields.eq htexts hr.fields, hq.entity.eq htext hr.entity,
    hq.identifier.eq htext hr.identifier, hq.filters.eq hfilters hr.filters,
    hq.chains.eq htexts hr.chains, hq.dump.eq htext hr.dump,
    hq.lastKeyword.eq (hkeyword.option fun _ => ShowsText.ne_null) hr.lastKeyword⟩

end Told

end Json

end ChainQuery
