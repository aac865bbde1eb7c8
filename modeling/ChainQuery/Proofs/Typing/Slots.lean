import ChainQuery.Proofs.Typing.Reading

/-!
# Where in a canonical query someone is typing

What has been typed of a canonical query is a stem and, behind it, a word that is not finished.
The pairs that occur are the **slots** (`ChainQuery.Typing.Slot`): a stem says what kind of word
is being typed, and the second text how far it has got.

| slot | the stem | the word |
|---|---|---|
| `opening` | nothing | `GET` |
| `wildcard`, `field` | `GET` and finished fields | a field |
| `whole` | a whole head | `FROM` |
| `name` | the same with `FROM` | the name of the entity |
| `source` | an entity, and what follows it | an identifier, `WHERE` or `ON` |
| `filter`, `operator`, `value` | filters, of which the last is not finished | a part of a filter, or `ON` |
| `chain` | chains | a chain |

Every beginning of a canonical query is at one of the slots
(`ChainQuery.Typing.atSlot_of_isPrefix`). The slots say more than the query from which they
come: of a value only the words matter that have been typed, and of everything before the filters
or the chains only that the text is ready for them.
-/

namespace ChainQuery

open Text Token Grammar

/-! ### Comparisons that have been typed -/

namespace Grammar

section Comparison

variable {e : Entity} {c : Comparison} {cs : List Comparison}

theorem Comparison.Fits.spells (h : c.Fits e) : SpellsComparison c c.text :=
  .mk (isField_of_mem_filterFields _ h.field) blank_space blank_space (Or.inl (by simp)) h.value

theorem Comparison.Fits.quiet (h : c.Fits e) : Text.Quiet c.text :=
  quiet_of_spellsComparison h.spells

/-- Comparisons behind which a list goes on. -/
def closedFilters (cs : List Comparison) : Text := closed (cs.map Comparison.text)

theorem quiet_closedFilters_append (h : ∀ c ∈ cs, c.Fits e) {s : Text} (hs : Text.Quiet s) :
    Text.Quiet (closedFilters cs ++ s) := by
  refine quiet_closed_append (fun x hx => ?_) hs
  obtain ⟨c, hc, rfl⟩ := List.mem_map.mp hx
  exact (h c hc).quiet

theorem quietSoFar_closedFilters_append (h : ∀ c ∈ cs, c.Fits e) {s : Text} (hs : QuietSoFar s) :
    QuietSoFar (closedFilters cs ++ s) := by
  by_cases hne : cs = []
  · subst hne
    exact hs
  · have hquiet := quiet_closedFilters_append h (quiet_of_blank blank_nil)
    rw [List.append_nil] at hquiet
    exact hs.quiet_append hquiet (stem_closed (by simpa using hne)).blankEnd

/-- Finished comparisons are read one after the other. -/
theorem filters_closedFilters_append (h : ∀ c ∈ cs, c.Fits e) (s : Text) :
    (closedFilters cs ++ s).filters = cs.map Comparison.toFilter ++ s.filters := by
  induction cs with
  | nil => rfl
  | cons c cs ih =>
    have hread := filters_of_spellsComparison (h c List.mem_cons_self).spells blank_nil blank_nil
    rw [List.nil_append, List.append_nil] at hread
    have hlater : Text.filters (' ' :: (closedFilters cs ++ s)) = (closedFilters cs ++ s).filters :=
      filters_blank_append blank_space _
    have hsplit : closedFilters (c :: cs) ++ s =
        c.text ++ ',' :: (' ' :: (closedFilters cs ++ s)) := by
      simp [closedFilters]
    rw [hsplit, filters_append_comma hread.2, hread.1, hlater,
      ih fun d hd => h d (List.mem_cons_of_mem c hd)]
    rfl

/-- Behind finished filters of an entity there may stand others. -/
theorem field_closedFilters_append (h : ∀ c ∈ cs, c.Fits e) {s : Text}
    (hs : ∀ f ∈ s.filters, f.field ∈ e.filterFields) :
    ∀ f ∈ (closedFilters cs ++ s).filters, f.field ∈ e.filterFields := by
  intro f hf
  rw [filters_closedFilters_append h] at hf
  rcases List.mem_append.mp hf with hf | hf
  · obtain ⟨c, hc, rfl⟩ := List.mem_map.mp hf
    exact (h c hc).field
  · exact hs f hf

end Comparison

end Grammar

namespace Typing

/-! ### Slots -/

/-- **The slots of canonical queries for an entity**: a stem, and a word behind it that has been
typed so far. -/
inductive Slot (e : Entity) : Text → Text → Prop
  /-- The query is being opened. -/
  | opening {w : Text} (hw : w <+: "GET".toList) : Slot e [] w
  /-- Everything is asked for. -/
  | wildcard {w : Text} (hw : w <+: wildcard ++ [',']) : Slot e Query.opening w
  /-- A field is being typed behind others. -/
  | field {done : List Text} {x w : Text} (hdone : ∀ y ∈ done, y ∈ e.fields) (hx : x ∈ e.fields)
      (hw : w <+: x ++ [',']) : Slot e (Query.opening ++ closed done) w
  /-- The keyword behind a whole head is being typed. -/
  | whole {fields : List Text} {s w : Text} (hs : Whole e fields s) (hw : w <+: "FROM".toList) :
      Slot e (s ++ [' ']) w
  /-- The name of the entity is being typed. -/
  | name {fields : List Text} {s w : Text} (hs : Whole e fields s) (hw : w <+: e.name) :
      Slot e (s ++ [' '] ++ (Keyword.entity.text ++ [' '])) w
  /-- A word behind the name of the entity is being typed. -/
  | source {fields : List Text} {s later w : Text} (hs : Whole e fields s)
      (hlater : Text.Quiet later) (hstem : Stem later)
      (hstart : ∀ c ∈ later.head?, isBlank c = true) (hw : ∀ c ∈ w, isBlank c = false) :
      Slot e (withSource s e.name later) w
  /-- The field of a filter is being typed. -/
  | filter {s w : Text} {done : List Comparison} {c : Comparison}
      (hs : Ready e [.filters, .chains] s) (hdone : ∀ d ∈ done, d.Fits e) (hc : c.Fits e)
      (hw : w <+: c.field) :
      Slot e (s ++ (Keyword.filters.text ++ ' ' :: closedFilters done)) w
  /-- The operator of a filter is being typed. -/
  | operator {s w : Text} {done : List Comparison} {c : Comparison}
      (hs : Ready e [.filters, .chains] s) (hdone : ∀ d ∈ done, d.Fits e) (hc : c.Fits e)
      (hw : w <+: c.operator.text) :
      Slot e (s ++ (Keyword.filters.text ++ ' ' :: (closedFilters done ++ (c.field ++ [' '])))) w
  /-- A word of a value is being typed, or the keyword behind it. -/
  | value {s v w : Text} {done : List Comparison} {c : Comparison}
      (hs : Ready e [.filters, .chains] s) (hdone : ∀ d ∈ done, d.Fits e) (hc : c.Fits e)
      (hv : Text.Quiet v) (hstem : v = [] ∨ Stem v) (hsheltered : Sheltered v) (hw : ' ' ∉ w)
      (hquiet : QuietSoFar (v ++ w)) :
      Slot e (s ++ (Keyword.filters.text ++
        ' ' :: (closedFilters done ++ (c.field ++ ' ' :: (c.operator.text ++ ' ' :: v))))) w
  /-- A chain is being typed behind others. -/
  | chain {s w : Text} {done : List Text} {x : Text} (hs : Ready e [.chains] s)
      (hdone : ∀ y ∈ done, y ∈ ChainQuery.chains) (hx : x ∈ ChainQuery.chains)
      (hw : w <+: x ++ [',']) :
      Slot e (s ++ (Keyword.chains.text ++ ' ' :: closed done)) w

/-! ### Stems -/

section Stems

variable {done : List Comparison}

/-- A stem at which filters are being typed. -/
theorem stem_filters (s : Text) {b : Text} (hb : b = [] ∨ Stem b) :
    Stem (s ++ (Keyword.filters.text ++ ' ' :: (closedFilters done ++ b))) := by
  have hstem : Stem (s ++ (Keyword.filters.text ++ [' ']) ++ closedFilters done ++ b) := by
    rcases hb with rfl | hb
    · rw [List.append_nil]
      exact Stem.append_closed ((stem_concat Keyword.filters.text).append s) _
    · exact hb.append _
  simpa using hstem

/-- A comparison of which a part of the value has been typed. -/
theorem stem_comparison (c : Comparison) {v : Text} (hv : v = [] ∨ Stem v) :
    Stem (c.field ++ ' ' :: (c.operator.text ++ ' ' :: v)) := by
  have hstem : Stem (c.field ++ ' ' :: (c.operator.text ++ [' ']) ++ v) := by
    rcases hv with rfl | hv
    · simpa using (stem_concat c.operator.text).append (c.field ++ [' '])
    · exact hv.append _
  simpa using hstem

/-- A stem at which chains are being typed. -/
theorem stem_chains (s : Text) (done : List Text) :
    Stem (s ++ (Keyword.chains.text ++ ' ' :: closed done)) := by
  have hstem : Stem (s ++ (Keyword.chains.text ++ [' '])) :=
    (stem_concat Keyword.chains.text).append s
  simpa using hstem.append_closed done

end Stems

theorem no_blank_of_prefix_keyword {k : Keyword} {p : Text} (h : p <+: k.text) :
    ∀ c ∈ p, isBlank c = false :=
  fun c hc => k.plain_text.no_blank c (h.subset hc)

theorem no_blank_of_prefix_operator {op : Operator} {p : Text} (h : p <+: op.text) :
    ∀ c ∈ p, isBlank c = false :=
  fun c hc => op.plain_text.no_blank c (h.subset hc)

/-- **Before the word of a slot stands a stem**, unless there is nothing. -/
theorem Slot.stem {e : Entity} {s w : Text} (h : Slot e s w) : s = [] ∨ Stem s := by
  have hopening : Stem Query.opening := stem_concat "GET".toList
  cases h with
  | opening hw => exact Or.inl rfl
  | wildcard hw => exact Or.inr hopening
  | field hdone hx hw => exact Or.inr (hopening.append_closed _)
  | whole hs hw => exact Or.inr (stem_concat _)
  | name hs hw => exact Or.inr ((stem_concat Keyword.entity.text).append _)
  | source hs hlater hstem hstart hw => exact Or.inr (ready_source hs hlater hstem hstart).stem
  | filter hs hdone hc hw => exact Or.inr (by simpa using stem_filters _ (Or.inl rfl))
  | operator hs hdone hc hw => exact Or.inr (stem_filters _ (Or.inr (stem_concat _)))
  | value hs hdone hc hv hstem hsheltered hw hquiet =>
    exact Or.inr (stem_filters _ (Or.inr (stem_comparison _ hstem)))
  | chain hs hdone hx hw => exact Or.inr (stem_chains _ _)

theorem Slot.notMem_space {e : Entity} {s w : Text} (h : Slot e s w) : ' ' ∉ w := by
  cases h with
  | opening hw => exact notMem_space_of_no_blank (no_blank_of_prefix_keyword (k := .fields) hw)
  | wildcard hw => exact isTableWord_wildcard.notMem_space_of_isPrefix hw
  | field hdone hx hw => exact (isTableWord_of_mem_fields _ hx).notMem_space_of_isPrefix hw
  | whole hs hw => exact notMem_space_of_no_blank (no_blank_of_prefix_keyword (k := .entity) hw)
  | name hs hw =>
    exact (isTableWord_name e).notMem_space_of_isPrefix (hw.trans (List.prefix_append _ _))
  | source hs hlater hstem hstart hw => exact notMem_space_of_no_blank hw
  | filter hs hdone hc hw =>
    exact (isTableWord_of_mem_filterFields _ hc.field).notMem_space_of_isPrefix
      (hw.trans (List.prefix_append _ _))
  | operator hs hdone hc hw => exact notMem_space_of_no_blank (no_blank_of_prefix_operator hw)
  | value hs hdone hc hv hstem hsheltered hw hquiet => exact hw
  | chain hs hdone hx hw => exact (isTableWord_of_mem_chains _ hx).notMem_space_of_isPrefix hw

/-- A text is at a slot. -/
def AtSlot (e : Entity) (p : Text) : Prop := ∃ s w, p = s ++ w ∧ Slot e s w

section Coverage

variable {e : Entity}

/-! ### Every beginning is at a slot -/

/-- A beginning of a word and what follows it behind a space. -/
theorem prefix_append_space_iff {p s t : Text} :
    p <+: s ++ ' ' :: t ↔ p <+: s ∨ ∃ u, p = s ++ ' ' :: u ∧ u <+: t := by
  rw [prefix_append_iff]
  constructor
  · rintro (h | ⟨u, rfl, hu⟩)
    · exact Or.inl h
    · cases u with
      | nil => exact Or.inl (by simp)
      | cons c u =>
        obtain ⟨rfl, hrest⟩ := List.cons_prefix_cons.mp hu
        exact Or.inr ⟨u, rfl, hrest⟩
  · rintro (h | ⟨u, rfl, hu⟩)
    · exact Or.inl h
    · exact Or.inr ⟨' ' :: u, rfl, List.cons_prefix_cons.mpr ⟨rfl, hu⟩⟩

theorem atSlot_fields {fields : List Text} (h : IsFieldList e fields) {p : Text}
    (hp : p <+: joined fields) : AtSlot e (Query.opening ++ p) := by
  rcases h with rfl | ⟨hne, hmem⟩
  · rw [joined_singleton] at hp
    exact ⟨_, p, rfl, .wildcard (hp.trans (List.prefix_append _ _))⟩
  · obtain ⟨done, x, later, w, rfl, rfl, hw⟩ := exists_of_prefix_joined hne hp
    refine ⟨Query.opening ++ closed done, w, by simp, .field (fun y hy => ?_) ?_ hw⟩
    · exact hmem y (List.mem_append_left _ hy)
    · exact hmem x (by simp)

theorem atSlot_chains {s : Text} (hs : Ready e [.chains] s) {chains : List Text}
    (hne : chains ≠ []) (hmem : ∀ x ∈ chains, x ∈ ChainQuery.chains) {p : Text}
    (hp : p <+: joined chains) : AtSlot e (s ++ (Keyword.chains.text ++ ' ' :: p)) := by
  obtain ⟨done, x, later, w, rfl, rfl, hw⟩ := exists_of_prefix_joined hne hp
  refine ⟨s ++ (Keyword.chains.text ++ ' ' :: closed done), w, by simp,
    .chain hs (fun y hy => ?_) ?_ hw⟩
  · exact hmem y (List.mem_append_left _ hy)
  · exact hmem x (by simp)

section Filters

variable {s : Text} {done : List Comparison} {c : Comparison}

/-- A value is being typed. -/
theorem atSlot_value (hs : Ready e [.filters, .chains] s) (hdone : ∀ d ∈ done, d.Fits e)
    (hc : c.Fits e) {p : Text} (hp : p <+: c.value ++ [',']) :
    AtSlot e (s ++ (Keyword.filters.text ++
      ' ' :: (closedFilters done ++ (c.field ++ ' ' :: (c.operator.text ++ ' ' :: p))))) := by
  -- of what has been typed of the value, the last word may still change
  obtain ⟨v, w, rfl, hstem, hw⟩ := exists_stem_append p
  have hv : v <+: c.value := by
    rcases List.prefix_concat_iff.mp ((List.prefix_append v w).trans hp) with hv | hv
    · -- a stem does not end in a comma
      rcases hstem with rfl | hstem
      · simp
      · obtain ⟨r, hr⟩ := hstem.exists_eq
        rw [hr] at hv
        exact absurd (List.append_inj' hv rfl).2 (by decide)
    · exact hv
  obtain ⟨rest, hrest⟩ := hv
  obtain ⟨rest', hrest'⟩ := hp
  have hquiet : Text.Quiet v := by
    rcases hstem with rfl | hstem
    · exact quiet_of_blank blank_nil
    · refine quiet_of_append_of_blankEnd (r := rest) ?_ (blankEnd_append_ne_nil [' '] hstem.blankEnd)
      rw [hrest]
      exact hc.value.quiet
  have hsheltered : Sheltered v := by
    refine Sheltered.of_append (t := rest) ?_
    rw [hrest]
    exact hc.value.sheltered
  have hsofar : QuietSoFar (v ++ w) := by
    refine quietSoFar_of_append (r := rest') ?_
    rw [hrest']
    exact hc.value.quiet.append_comma (quiet_of_blank blank_nil)
  exact ⟨_, w, by simp, .value hs hdone hc hquiet hstem hsheltered hw hsofar⟩

/-- The keyword behind a value is being typed. -/
theorem atSlot_behind_value (hs : Ready e [.filters, .chains] s) (hdone : ∀ d ∈ done, d.Fits e)
    (hc : c.Fits e) {p : Text} (hp : ∀ d ∈ p, isBlank d = false) :
    AtSlot e (s ++ (Keyword.filters.text ++
      ' ' :: (closedFilters done ++ (c.text ++ ' ' :: p)))) := by
  have hquiet : Text.Quiet (c.value ++ [' ']) := hc.value.quiet.append_blank blank_space
  have hstem : Stem (c.value ++ [' ']) := stem_concat c.value
  have hsheltered : Sheltered (c.value ++ [' ']) := hc.value.sheltered.append_of_not_mem (by simp)
  refine ⟨_, p, ?_, .value hs hdone hc hquiet (Or.inr hstem) hsheltered
    (notMem_space_of_no_blank hp) (hquiet.append_word hstem.blankEnd hp)⟩
  simp [Comparison.text, comparisonText]

/-- A comparison is being typed. -/
theorem atSlot_comparison (hs : Ready e [.filters, .chains] s) (hdone : ∀ d ∈ done, d.Fits e)
    (hc : c.Fits e) {p : Text} (hp : p <+: c.text ++ [',']) :
    AtSlot e (s ++ (Keyword.filters.text ++ ' ' :: (closedFilters done ++ p))) := by
  have htext : c.text ++ [','] =
      c.field ++ ' ' :: (c.operator.text ++ ' ' :: (c.value ++ [','])) := by
    simp [Comparison.text, comparisonText]
  rw [htext, prefix_append_space_iff] at hp
  rcases hp with hp | ⟨p, rfl, hp⟩
  · exact ⟨_, p, by simp, .filter hs hdone hc hp⟩
  rcases prefix_append_space_iff.mp hp with hp | ⟨p, rfl, hvalue⟩
  · exact ⟨_, p, by simp, .operator hs hdone hc hp⟩
  · exact atSlot_value hs hdone hc hvalue

theorem atSlot_filters (hs : Ready e [.filters, .chains] s) {filters : List Comparison}
    (hne : filters ≠ []) (hfits : ∀ c ∈ filters, c.Fits e) {p : Text}
    (hp : p <+: joined (filters.map Comparison.text)) :
    AtSlot e (s ++ (Keyword.filters.text ++ ' ' :: p)) := by
  obtain ⟨done, x, later, w, htexts, rfl, hw⟩ := exists_of_prefix_joined (by simpa using hne) hp
  obtain ⟨cs, cs', rfl, rfl, hcs'⟩ := List.map_eq_append_iff.mp htexts
  obtain ⟨c, cs'', rfl, rfl, -⟩ := List.map_eq_cons_iff.mp hcs'
  refine atSlot_comparison hs (fun d hd => ?_) ?_ hw
  · exact hfits d (List.mem_append_left _ hd)
  · exact hfits c (by simp)

/-- What is read of finished filters and a space. -/
theorem filters_finished (hc : c.Fits e) : (c.text ++ [' ']).filters = [c.toFilter] :=
  (filters_of_spellsComparison hc.spells blank_nil blank_space).1

/-- **Behind finished filters and a space a text is ready for chains.** -/
theorem Ready.ready_finished (hs : Ready e [.filters, .chains] s) (hdone : ∀ d ∈ done, d.Fits e)
    (hc : c.Fits e) :
    Ready e [.chains] (s ++ (Keyword.filters.text ++
      ' ' :: (closedFilters done ++ (c.text ++ [' '])))) :=
  hs.ready_filters (quiet_closedFilters_append hdone (hc.quiet.append_blank blank_space))
    ((stem_concat c.text).append _) (field_closedFilters_append hdone fun f hf => by
      rw [filters_finished hc, List.mem_singleton] at hf
      exact hf ▸ hc.field)

/-- A list of filters, of which the last is not closed. -/
theorem joined_filters_concat (done : List Comparison) (c : Comparison) :
    joined ((done ++ [c]).map Comparison.text) = closedFilters done ++ c.text := by
  rw [List.map_append, List.map_cons, List.map_nil, joined_concat, closedFilters]

end Filters

/-! ### Filters and chains behind an entity -/

/-- Someone is typing behind the list of filters. -/
theorem atSlot_behind_filters {s : Text} (hs : Ready e [.filters, .chains] s)
    {filters : List Comparison} (hne : filters ≠ []) (hfits : ∀ c ∈ filters, c.Fits e)
    {chains : List Text} (hchains : chains ≠ []) (hmem : ∀ x ∈ chains, x ∈ ChainQuery.chains)
    {p : Text} (hp : p <+: Keyword.chains.text ++ ' ' :: joined chains) :
    AtSlot e (s ++ (Keyword.filters.text ++
      ' ' :: (joined (filters.map Comparison.text) ++ ' ' :: p))) := by
  obtain ⟨done, c, rfl⟩ := (List.eq_nil_or_concat' filters).resolve_left hne
  have hdone : ∀ d ∈ done, d.Fits e := fun d hd => hfits d (List.mem_append_left _ hd)
  have hc : c.Fits e := hfits c (by simp)
  rw [joined_filters_concat]
  rcases prefix_append_space_iff.mp hp with hp | ⟨p, rfl, hlist⟩
  · have hslot := atSlot_behind_value hs hdone hc (no_blank_of_prefix_keyword hp)
    simpa using hslot
  · have hslot := atSlot_chains (hs.ready_finished hdone hc) hchains hmem hlist
    simpa using hslot

/-- Someone is typing behind the name of the entity, or behind the identifier. -/
theorem atSlot_behind_source (c : Canonical) {head later : Text}
    (hs : Whole c.entity c.fields head) (hlater : Text.Quiet later)
    (hstart : ∀ d ∈ later.head?, isBlank d = true) {p : Text} (hne : p ≠ [])
    (hp : p <+: c.filterText ++ c.chainText) :
    AtSlot c.entity (withSource head c.entity.name (later ++ p)) := by
  have hquiet : Text.Quiet (later ++ [' ']) := hlater.append_blank blank_space
  have hstem : Stem (later ++ [' ']) := stem_concat later
  have hstart' : ∀ d ∈ (later ++ [' ']).head?, isBlank d = true := by
    cases later with
    | nil => simp
    | cons d later => exact hstart
  have hready := ready_source hs hquiet hstem hstart'
  have hsplit (t : Text) : withSource head c.entity.name (later ++ ' ' :: t) =
      withSource head c.entity.name (later ++ [' ']) ++ t := by
    simp [withSource]
  -- a word that may become a keyword
  have hword (w : Text) (hw : ∀ d ∈ w, isBlank d = false) :
      AtSlot c.entity (withSource head c.entity.name (later ++ [' ']) ++ w) :=
    ⟨_, w, rfl, .source hs hquiet hstem hstart' hw⟩
  by_cases hfilters : c.filters = []
  · by_cases hchains : c.chains = []
    · rw [Canonical.filterText, if_pos hfilters, Canonical.chainText, if_pos hchains] at hp
      exact absurd (List.prefix_nil.mp hp) hne
    · have htext : c.filterText ++ c.chainText =
          ' ' :: (Keyword.chains.text ++ ' ' :: joined c.chains) := by
        rw [Canonical.filterText, if_pos hfilters, Canonical.chainText, if_neg hchains]
        rfl
      obtain ⟨p, rfl, hbehind⟩ := (List.prefix_cons_iff.mp (htext ▸ hp)).resolve_left hne
      rw [hsplit]
      rcases prefix_append_space_iff.mp hbehind with hp | ⟨p, rfl, hlist⟩
      · exact hword p (no_blank_of_prefix_keyword hp)
      · have hready' : Ready c.entity [.chains] _ :=
          ⟨hready.stem, hready.opens, hready.fits, fun k hk => hready.absent k (List.mem_cons_of_mem _ hk)⟩
        exact atSlot_chains hready' hchains c.chains_fit hlist
  · have htext : c.filterText ++ c.chainText =
        ' ' :: (Keyword.filters.text ++
          ' ' :: (joined (c.filters.map Comparison.text) ++ c.chainText)) := by
      rw [Canonical.filterText, if_neg hfilters, Canonical.clauseText]
      simp only [List.append_assoc, List.cons_append]
    obtain ⟨p, rfl, hbehind⟩ := (List.prefix_cons_iff.mp (htext ▸ hp)).resolve_left hne
    rw [hsplit]
    rcases prefix_append_space_iff.mp hbehind with hp | ⟨p, rfl, hlist⟩
    · exact hword p (no_blank_of_prefix_keyword hp)
    by_cases hchains : c.chains = []
    · rw [Canonical.chainText, if_pos hchains, List.append_nil] at hlist
      exact atSlot_filters hready hfilters c.filters_fit hlist
    · have htext' : c.chainText = ' ' :: (Keyword.chains.text ++ ' ' :: joined c.chains) := by
        rw [Canonical.chainText, if_neg hchains, Canonical.clauseText]
      rw [htext', prefix_append_space_iff] at hlist
      rcases hlist with hlist | ⟨p, rfl, hlist⟩
      · exact atSlot_filters hready hfilters c.filters_fit hlist
      · exact atSlot_behind_filters hready hfilters c.filters_fit hchains c.chains_fit hlist

/-- Someone is typing behind `FROM`. -/
theorem atSlot_source (c : Canonical) {head : Text} (hs : Whole c.entity c.fields head) {p : Text}
    (hp : p <+: c.sourceText ++ (c.filterText ++ c.chainText)) :
    AtSlot c.entity (head ++ [' '] ++ (Keyword.entity.text ++ ' ' :: p)) := by
  have hname (p : Text) (hp : p <+: c.entity.name) :
      AtSlot c.entity (head ++ [' '] ++ (Keyword.entity.text ++ ' ' :: p)) :=
    ⟨_, p, by simp, .name hs hp⟩
  cases hidentifier : c.identifier with
  | none =>
    rw [Canonical.sourceText, hidentifier] at hp
    rcases prefix_append_iff.mp hp with hp | ⟨p, rfl, hlater⟩
    · exact hname p hp
    by_cases hne : p = []
    · rw [hne, List.append_nil]
      exact hname _ List.prefix_rfl
    · exact atSlot_behind_source c hs (quiet_of_blank blank_nil) (by simp) hne hlater
  | some identifier =>
    have hword := c.identifier_fits identifier hidentifier
    rw [Canonical.sourceText, hidentifier] at hp
    dsimp only at hp
    rw [List.append_assoc, List.cons_append, prefix_append_space_iff] at hp
    rcases hp with hp | ⟨p, rfl, hlater⟩
    · exact hname p hp
    have hbegun (p : Text) (hp : p <+: identifier) :
        AtSlot c.entity (withSource head c.entity.name (' ' :: p)) :=
      ⟨withSource head c.entity.name [' '], p, by simp [withSource],
        .source hs (quiet_of_blank blank_space) (List.suffix_refl _) (by simp)
          fun d hd => hword.no_blank d (hp.subset hd)⟩
    rcases prefix_append_iff.mp hlater with hp | ⟨p, rfl, hbehind⟩
    · exact hbegun p hp
    by_cases hne : p = []
    · rw [hne, List.append_nil]
      exact hbegun identifier List.prefix_rfl
    · have hquiet : Text.Quiet (' ' :: identifier) := hword.quiet.blank_append blank_space
      exact atSlot_behind_source c hs hquiet (by simp) hne hbehind

/-- **Every beginning of a canonical query is at a slot.** -/
theorem atSlot_of_isPrefix (c : Canonical) {p : Text} (hp : p <+: c.text) : AtSlot c.entity p := by
  have htext : c.text = "GET".toList ++ ' ' :: (joined c.fields ++ ' ' :: (Keyword.entity.text ++
      ' ' :: (c.sourceText ++ (c.filterText ++ c.chainText)))) := by
    have hget : Query.opening = "GET".toList ++ [' '] := by decide
    rw [Canonical.text, hget, Canonical.clauseText]
    simp only [List.append_assoc, List.cons_append, List.nil_append]
  rw [htext, prefix_append_space_iff] at hp
  rcases hp with hp | ⟨p, rfl, hfields⟩
  · exact ⟨[], p, rfl, .opening hp⟩
  have hopening (t : Text) : "GET".toList ++ ' ' :: t = Query.opening ++ t := by
    simp [Query.opening]
  rw [hopening]
  rcases prefix_append_space_iff.mp hfields with hp | ⟨p, rfl, hfrom⟩
  · exact atSlot_fields c.fields_fit hp
  have hwhole : Whole c.entity c.fields (Query.opening ++ joined c.fields) := ⟨c.fields_fit, rfl⟩
  rcases prefix_append_space_iff.mp hfrom with hp | ⟨p, rfl, hsource⟩
  · exact ⟨_, p, by simp, .whole hwhole hp⟩
  · have hslot := atSlot_source c hwhole hsource
    simpa using hslot

end Coverage

end Typing

end ChainQuery
