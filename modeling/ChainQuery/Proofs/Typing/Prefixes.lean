import ChainQuery.Proofs.Typing.Slots
import Mathlib.Data.List.Infix

/-!
# Typing a canonical query

Nobody who types a canonical query, letter by letter, is told that anything is wrong, and the
suggestions never fail (`ChainQuery.Typing.welcome_of_isPrefix`). There are two reasons, and at every
slot it is one of them:

* **at a stem** the text is due, and what it holds is sound – the words that are finished are
  words of the tables, and a list of fields is coherent whether or not it implies the entity;
* **behind a stem** a word is being typed that means nothing yet. As long as there are no chains
  the text is not due, however the word may have been read: as a part of a field, as an entity
  that does not exist, or as a keyword that is only the beginning of a value.

Chains are the exception. With the first chain the query is complete and judged at every letter,
but chains may be abbreviated, and every beginning of a chain abbreviates it.
-/

namespace ChainQuery

open Text Token Grammar

namespace Typing

variable {e : Entity}

/-- **Behind a sound stem a word may be typed**, as long as there are no chains. -/
theorem welcome_of_word {s w : Text} (hs : Sound s) (hw : ' ' ∉ w)
    (hchains : (Query.ofText (s ++ w)).chains = none) (hnamed : Named (Query.ofText (s ++ w))) :
    Welcome (s ++ w) := by
  by_cases hne : w = []
  · rw [hne, List.append_nil]
    exact hs.welcome
  · exact welcome_of_not_stem hchains (not_stem_append hne hw) hnamed

/-! ### The head -/

theorem welcome_opening {w : Text} (hw : w <+: "GET".toList) : Welcome w := by
  have hmem : w ∈ "GET".toList.inits := (List.mem_inits _ _).mpr hw
  have hquery : ∀ w ∈ "GET".toList.inits, (Query.ofText w).chains = none ∧
      (Query.ofText w).lastKeyword ≠ some .filters ∧ ' ' ∉ w := by decide
  obtain ⟨hchains, hlast, hspace⟩ := hquery w hmem
  refine welcome_of_not_stem hchains (fun hstem => ?_) fun h => absurd h hlast
  obtain ⟨r, rfl⟩ := hstem.exists_eq
  exact hspace (by simp)

/-- Fields that have been typed, and a word of a table behind them. -/
theorem saysFields_word {done : List Text} {x w : Text} (hdone : ∀ y ∈ done, IsTableWord y)
    (hx : IsTableWord x) (hw : w <+: x ++ [',']) :
    SaysFields (done ++ items w) (Query.ofText (Query.opening ++ closed done ++ w)) := by
  have hquiet := quiet_closed_of_isTableWord hdone (hx.quiet_of_isPrefix hw)
  have hsaid := saysFields_of_quiet hquiet
  rwa [items_closed_of_isTableWord hdone, ← List.append_assoc] at hsaid

/-- A finished word behind fields. -/
theorem sound_fields {done : List Text} {x : Text} (hdone : ∀ y ∈ done, IsTableWord y)
    (hx : IsTableWord x) (hcoherent : Coherent (done ++ [x])) :
    Sound (Query.opening ++ closed done ++ x) := by
  have hsaid := saysFields_word hdone hx (List.prefix_append x _)
  rw [hx.items] at hsaid
  rw [List.append_assoc] at hsaid ⊢
  exact hsaid.sound (opening_isPrefix _) hcoherent

/-- Finished fields, and behind them nothing. -/
theorem sound_closed {done : List Text} (hdone : ∀ y ∈ done, IsTableWord y)
    (hcoherent : Coherent done) : Sound (Query.opening ++ closed done) := by
  have hsaid := saysFields_of_quiet (quiet_closed hdone)
  rw [items_closed hdone] at hsaid
  exact hsaid.sound (opening_isPrefix _) hcoherent

theorem welcome_fields {done : List Text} {x w : Text} (hdone : ∀ y ∈ done, IsTableWord y)
    (hcoherent : Coherent done) (hx : IsTableWord x) (hw : w <+: x ++ [',']) :
    Welcome (Query.opening ++ closed done ++ w) := by
  have hsaid := saysFields_word hdone hx hw
  refine welcome_of_word (sound_closed hdone hcoherent) (hx.notMem_space_of_isPrefix hw)
    hsaid.chains fun hlast => ?_
  rw [hsaid.lastKeyword] at hlast
  cases hlast

/-! ### The entity -/

section Whole

variable {fields : List Text} {s : Text}

theorem Whole.sound_space (h : Whole e fields s) : Sound (s ++ [' ']) :=
  h.sound.append_blank blank_space

theorem Whole.ofText_space (h : Whole e fields s) :
    SaysFields fields (Query.ofText (s ++ [' '])) := by
  rw [Query.ofText_append_blank s blank_space]
  exact h.saysFields

theorem prefix_from_cases {w : Text} (hw : w <+: "FROM".toList) :
    w = Keyword.entity.text ∨ ∀ k : Keyword, w ≠ k.text := by
  have hmem : w ∈ "FROM".toList.inits := (List.mem_inits _ _).mpr hw
  have hcases : ∀ w ∈ "FROM".toList.inits,
      w = Keyword.entity.text ∨ ∀ k ∈ Keyword.all, w ≠ k.text := by decide
  exact (hcases w hmem).imp_right forall_keyword_iff.mpr

/-- A word behind a whole head that is no keyword belongs to the last of the fields. -/
theorem Whole.saysFields_word (h : Whole e fields s) {w : Text}
    (hw : ∀ c ∈ w, isBlank c = false) (hk : ∀ k : Keyword, w ≠ k.text) :
    ∃ fields', SaysFields fields' (Query.ofText (s ++ [' '] ++ w)) := by
  have hquiet : Text.Quiet (joined fields ++ [' '] ++ w) :=
    ((quiet_joined h.fit.ne_nil h.fit.isTableWord).append_blank blank_space).append
      (quiet_of_no_blank hw fun k _ => hk k) (apart_blank_left _ blank_space (by simp) _)
  have hsaid := saysFields_of_quiet hquiet
  rw [← List.append_assoc, ← List.append_assoc, ← h.eq] at hsaid
  exact ⟨_, hsaid⟩

theorem Whole.welcome (h : Whole e fields s) {w : Text} (hw : w <+: "FROM".toList) :
    Welcome (s ++ [' '] ++ w) := by
  have hblank : ∀ c ∈ w, isBlank c = false :=
    no_blank_of_prefix_keyword (k := .entity) hw
  rcases prefix_from_cases hw with rfl | hk
  · exact (h.sound_space.append_keyword (stem_concat s) (by simp) (by simp)).welcome
  · obtain ⟨fields', hsaid⟩ := h.saysFields_word hblank hk
    refine welcome_of_word h.sound_space (notMem_space_of_no_blank hblank) hsaid.chains ?_
    intro hlast
    rw [hsaid.lastKeyword] at hlast
    cases hlast

/-- The keyword behind a whole head, and nothing behind it. -/
theorem Whole.sound_from (h : Whole e fields s) :
    Sound (s ++ [' '] ++ (Keyword.entity.text ++ [' '])) := by
  have hkeyword := h.sound_space.append_keyword (stem_concat s) (k := .entity) (by simp) (by simp)
  rw [← List.append_assoc]
  exact hkeyword.append_blank blank_space

theorem withSource_eq (head name later : Text) :
    head ++ [' '] ++ (Keyword.entity.text ++ [' ']) ++ (name ++ later) =
      withSource head name later := by
  simp [withSource]

theorem withSource_append (head name later t : Text) :
    withSource head name later ++ t = withSource head name (later ++ t) := by
  simp [withSource]

/-- A name is being typed, which need not be the name of an entity. -/
theorem Whole.ofText_name (h : Whole e fields s) {w : Text} (hne : w ≠ []) (hw : w <+: e.name) :
    Query.ofText (s ++ [' '] ++ (Keyword.entity.text ++ [' ']) ++ w) =
      { Query.ofText s with
        entity := some w
        identifier := none
        lastKeyword := some .entity } := by
  have hprefix : w <+: e.name ++ [','] := hw.trans (List.prefix_append _ _)
  have hword := isTableWord_name e
  have hquiet : Text.Quiet (w ++ []) := by
    rw [List.append_nil]
    exact hword.quiet_of_isPrefix hprefix
  have hread := ofText_source h hne (hword.no_blank_of_isPrefix hprefix) (by simp) hquiet
  have hlower : lower w = w := lower_eq_self fun c hc => ascii_of_mem_name e c (hw.subset hc)
  rw [hlower, ← withSource_eq, List.append_nil] at hread
  rw [hread]
  rfl

theorem Whole.welcome_name (h : Whole e fields s) {w : Text} (hw : w <+: e.name) :
    Welcome (s ++ [' '] ++ (Keyword.entity.text ++ [' ']) ++ w) := by
  have hspace : ' ' ∉ w :=
    (isTableWord_name e).notMem_space_of_isPrefix (hw.trans (List.prefix_append _ _))
  by_cases hne : w = []
  · rw [hne, List.append_nil]
    exact h.sound_from.welcome
  · have hread := h.ofText_name hne hw
    refine welcome_of_word h.sound_from hspace ?_ ?_
    · rw [hread]
      exact h.saysFields.chains
    · rw [hread]
      intro hlast
      cases hlast

/-- **Behind the entity any word may stand**: an identifier, a part of one, or a keyword. -/
theorem fits_source_word (h : Whole e fields s) {later w : Text} (hlater : Text.Quiet later)
    (hstem : Stem later) (hstart : ∀ c ∈ later.head?, isBlank c = true)
    (hw : ∀ c ∈ w, isBlank c = false) :
    Fits e (Query.ofText (withSource s e.name later ++ w)) ∧
      (Query.ofText (withSource s e.name later ++ w)).chains = none := by
  have hready := ready_source h hlater hstem hstart
  have hchains := hready.chains_eq_none (by simp)
  by_cases hk : ∃ k : Keyword, k ≠ .fields ∧ w = k.text
  · obtain ⟨k, hk, rfl⟩ := hk
    have hread := Query.ofText_append_keyword hready.not_blank hready.stem.blankEnd hk
    rw [hread]
    exact ⟨⟨hready.fits.entity, hready.fits.fields, hready.fits.filters, hready.fits.chains⟩,
      hchains⟩
  · -- a word that is no keyword belongs to what follows the name
    have hquiet : Text.Quiet (later ++ w) :=
      hlater.append (quiet_of_no_blank hw fun k hne hcon => hk ⟨k, hne, hcon⟩)
        (apart_of_blankEnd_ne_nil hstem.blankEnd w)
    have hstart' : ∀ c ∈ (later ++ w).head?, isBlank c = true := by
      rwa [List.head?_append_of_ne_nil _ hstem.ne_nil]
    have hspaced := ready_source h (hquiet.append_blank blank_space) (stem_concat (later ++ w)) (by
      rwa [List.head?_append_of_ne_nil _ (by simp [hstem.ne_nil])])
    rw [← withSource_append, ← withSource_append] at hspaced
    rw [← Query.ofText_append_blank _ blank_space]
    exact ⟨hspaced.fits, hspaced.chains_eq_none (by simp)⟩

end Whole

/-! ### The filters -/

section Filters

variable {s : Text} {done : List Comparison} {c : Comparison}

/-- **Behind finished filters there may stand a list of filters of the entity.** -/
theorem fits_closedFilters (hs : Ready e [.filters, .chains] s) (hdone : ∀ d ∈ done, d.Fits e)
    {b : Text} (hb : Text.Quiet b) (hfields : ∀ f ∈ b.filters, f.field ∈ e.filterFields) :
    Fits e (Query.ofText (s ++ (Keyword.filters.text ++ ' ' :: (closedFilters done ++ b)))) :=
  hs.fits_filters (by simp) (quiet_closedFilters_append hdone hb)
    (field_closedFilters_append hdone hfields)

/-- A field that stands alone is read as a filter of which the rest is missing. -/
theorem filters_identifier {t : Text} (h : IsField t) : t.filters = [⟨t, none, none⟩] := by
  have hlex : lexemes t = [⟨.word, [], t⟩] :=
    lexemes_of_run rfl h.ne_nil fun c hc => ofChar?_of_isIdentifierChar (h.identifier c hc)
  have hcomma : ',' ∉ t := fun hmem => absurd (h.identifier ',' hmem) (by decide)
  rw [filters_of_sheltered (sheltered_of_not_mem hcomma) h.isWord.solid.not_blank, hlex]
  simp [Filter.ofTokens, stretch]

/-- A comparison of which the value may still be missing. -/
theorem filters_comparison {gap v : Text} (hc : IsField c.field) (hgap : Blank gap)
    (hv : Sheltered v) (hseam : Apart c.operator.text (gap ++ v)) :
    (comparisonText c.field [' '] c.operator gap v).filters =
      [⟨c.field, some c.operator, nonempty? (trim v)⟩] := by
  have hblank : ¬Blank (comparisonText c.field [' '] c.operator gap v) :=
    fun hcon => hc.isWord.solid.not_blank (blank_append.mp hcon).1
  rw [filters_of_sheltered (sheltered_comparisonText hc.identifier blank_space hgap hv) hblank,
    Filter.ofTokens_comparison hc.ne_nil hc.identifier blank_space hgap hseam]

/-- **A field of the entity may be typed behind finished filters.** -/
theorem fits_field (hs : Ready e [.filters, .chains] s) (hdone : ∀ d ∈ done, d.Fits e) {t : Text}
    (ht : t ∈ e.filterFields) :
    Fits e (Query.ofText (s ++ (Keyword.filters.text ++ ' ' :: (closedFilters done ++ t)))) := by
  have hfield := isField_of_mem_filterFields t ht
  refine fits_closedFilters hs hdone hfield.isWord.quiet fun f hf => ?_
  rw [filters_identifier hfield] at hf
  rw [List.mem_singleton.mp hf]
  exact ht

/-- **Any operator may be typed behind a field.** -/
theorem fits_operator (hs : Ready e [.filters, .chains] s) (hdone : ∀ d ∈ done, d.Fits e)
    {t : Text} (ht : t ∈ e.filterFields) (op : Operator) :
    Fits e (Query.ofText (s ++ (Keyword.filters.text ++
      ' ' :: (closedFilters done ++ (t ++ ' ' :: op.text))))) := by
  have hfield := isField_of_mem_filterFields t ht
  have hseam : Apart op.text ([] ++ []) := apart_nil_right _
  have htext : t ++ ' ' :: op.text = comparisonText t [' '] op [] [] := by simp [comparisonText]
  rw [htext]
  refine fits_closedFilters hs hdone ?_ fun f hf => ?_
  · exact quiet_comparisonText hfield.identifier hfield.isWord.quiet blank_space blank_nil hseam
      (quiet_of_blank blank_nil)
  · have hread := filters_comparison (c := ⟨t, op, []⟩) hfield blank_nil
      (sheltered_of_not_mem (s := []) (by simp)) hseam
    rw [hread] at hf
    rw [List.mem_singleton.mp hf]
    exact ht

/-- **Any quiet text may be typed as a value**, if its commas are sheltered. -/
theorem fits_value (hs : Ready e [.filters, .chains] s) (hdone : ∀ d ∈ done, d.Fits e)
    (hc : c.Fits e) {v : Text} (hv : Text.Quiet v) (hsheltered : Sheltered v) :
    Fits e (Query.ofText (s ++ (Keyword.filters.text ++
      ' ' :: (closedFilters done ++ (c.field ++ ' ' :: (c.operator.text ++ ' ' :: v)))))) := by
  have hfield := isField_of_mem_filterFields _ hc.field
  have hseam : Apart c.operator.text ([' '] ++ v) :=
    apart_blank_right _ blank_space (by simp) v
  have htext : c.field ++ ' ' :: (c.operator.text ++ ' ' :: v) =
      comparisonText c.field [' '] c.operator [' '] v := by simp [comparisonText]
  rw [htext]
  refine fits_closedFilters hs hdone ?_ fun f hf => ?_
  · exact quiet_comparisonText hfield.identifier hfield.isWord.quiet blank_space blank_space hseam
      hv
  · rw [filters_comparison hfield blank_space hsheltered hseam] at hf
    rw [List.mem_singleton.mp hf]
    exact hc.field

/-- While a filter is being typed, the text is welcome if it is sound at its stem. -/
theorem welcome_filters (hs : Ready e [.filters, .chains] s) (hdone : ∀ d ∈ done, d.Fits e)
    {b w : Text}
    (hsound : Sound (s ++ (Keyword.filters.text ++ ' ' :: (closedFilters done ++ b))))
    (hw : ' ' ∉ w) (hquiet : QuietSoFar (b ++ w)) :
    Welcome (s ++ (Keyword.filters.text ++ ' ' :: (closedFilters done ++ b)) ++ w) := by
  obtain ⟨hknown, hchains⟩ := hs.typing_filters (quietSoFar_closedFilters_append hdone hquiet)
  have htext : s ++ (Keyword.filters.text ++ ' ' :: (closedFilters done ++ (b ++ w))) =
      s ++ (Keyword.filters.text ++ ' ' :: (closedFilters done ++ b)) ++ w := by simp
  rw [htext] at hknown hchains
  exact welcome_of_word hsound hw hchains fun _ => ⟨e, hknown⟩

theorem quiet_of_prefix_operator {op : Operator} {w : Text} (hw : w <+: op.text) :
    Text.Quiet w := by
  have hkeyword : ∀ k ∈ Keyword.all, ¬k.text <+: op.text := by cases op <;> decide
  refine quiet_of_no_blank (no_blank_of_prefix_operator hw) fun k _ hcon => ?_
  exact hkeyword k (Keyword.mem_all k) (hcon ▸ hw)

/-- A field behind which an operator is being typed. -/
theorem quiet_field_operator (hc : IsField c.field) {w : Text} (hw : w <+: c.operator.text) :
    Text.Quiet (c.field ++ ' ' :: w) := by
  have happend := (hc.isWord.quiet.append_blank blank_space).append (quiet_of_prefix_operator hw)
    (apart_blank_left _ blank_space (by simp) w)
  simpa using happend

end Filters

/-! ### The chains -/

section Chains

variable {s : Text} {done : List Text}

/-- **A beginning of a chain may be typed behind chains.** -/
theorem fits_chain (hs : Ready e [.chains] s) (hdone : ∀ y ∈ done, y ∈ ChainQuery.chains)
    {x w : Text} (hx : x ∈ ChainQuery.chains) (hw : w <+: x ++ [',']) :
    Fits e (Query.ofText (s ++ (Keyword.chains.text ++ ' ' :: (closed done ++ w)))) := by
  have hwords : ∀ y ∈ done, IsTableWord y := fun y hy => isTableWord_of_mem_chains y (hdone y hy)
  have hword := isTableWord_of_mem_chains x hx
  have hchain : ∀ y ∈ ChainQuery.chains, ∀ v, v <+: y → Query.ChainFits (lower v) := by
    intro y hy v hv
    rw [lower_eq_self fun c hc => ascii_of_mem_chain y hy c (hv.subset hc)]
    exact ⟨y, hy, hv⟩
  -- the last item is a beginning of a chain, or missing, or finished by its comma
  refine hs.fits_chains (by simp)
    (quiet_closed_of_isTableWord hwords (hword.quiet_of_isPrefix hw)) fun y hy => ?_
  rw [items_closed_of_isTableWord hwords] at hy
  rcases List.mem_append.mp hy with hy | hy
  · exact hchain y (hdone y hy) y List.prefix_rfl
  · rcases hword.items_of_isPrefix hw with rfl | ⟨-, hprefix, hitems⟩ | ⟨-, hitems⟩
    · simp at hy
    · rw [hitems] at hy
      rw [List.mem_singleton.mp hy]
      exact hchain x hx w hprefix
    · rw [hitems] at hy
      rw [List.mem_singleton.mp hy]
      exact hchain x hx x List.prefix_rfl

end Chains

/-! ### Every slot -/

/-- **At every slot a text is welcome.** -/
theorem Slot.welcome {s w : Text} (h : Slot e s w) : Welcome (s ++ w) := by
  -- only a chain is judged while it is being typed; elsewhere the stem is what has to be sound
  cases h with
  | opening hw => exact welcome_opening hw
  | wildcard hw =>
    have hwelcome : Welcome (Query.opening ++ closed [] ++ _) :=
      welcome_fields (by simp) (fun x hx => by simp at hx) isTableWord_wildcard hw
    simpa using hwelcome
  | field hdone hx hw =>
    exact welcome_fields (fun y hy => isTableWord_of_mem_fields y (hdone y hy))
      (coherent_of_mem hdone) (isTableWord_of_mem_fields _ hx) hw
  | whole hs hw => exact hs.welcome hw
  | name hs hw => exact hs.welcome_name hw
  | source hs hlater hstem hstart hw =>
    obtain ⟨hfits, hchains⟩ := fits_source_word hs hlater hstem hstart hw
    exact welcome_of_word (ready_source hs hlater hstem hstart).sound
      (notMem_space_of_no_blank hw) hchains fun _ => ⟨e, hfits.knownEntity?⟩
  | @filter s w done c hs hdone hc hw =>
    have hword := isTableWord_of_mem_filterFields _ hc.field
    have hprefix : w <+: c.field ++ [','] := hw.trans (List.prefix_append _ _)
    have hfits := fits_closedFilters hs hdone (quiet_of_blank blank_nil) (by simp)
    have hwelcome := welcome_filters hs hdone (hfits.sound (hs.opens_append _))
      (hword.notMem_space_of_isPrefix hprefix) (Or.inl (hword.quiet_of_isPrefix hprefix))
    simpa using hwelcome
  | @operator s w done c hs hdone hc hw =>
    have hquiet : Text.Quiet (c.field ++ [' '] ++ w) := by
      simpa using quiet_field_operator (isField_of_mem_filterFields _ hc.field) hw
    have hsound := ((fits_field hs hdone hc.field).sound (hs.opens_append _)).append_blank
      blank_space
    have hwelcome := welcome_filters hs hdone (b := c.field ++ [' ']) (by simpa using hsound)
      (notMem_space_of_no_blank (no_blank_of_prefix_operator hw)) (Or.inl hquiet)
    exact hwelcome
  | @value s v w done c hs hdone hc hv hstem hsheltered hw hquiet =>
    have hfits := fits_value hs hdone hc hv hsheltered
    have hbefore : Text.Quiet (c.field ++ ' ' :: (c.operator.text ++ [' '])) := by
      have hop := (quiet_field_operator (isField_of_mem_filterFields _ hc.field)
        List.prefix_rfl).append_blank blank_space
      simpa using hop
    have hend : Stem (c.field ++ ' ' :: (c.operator.text ++ [' '])) :=
      stem_comparison c (Or.inl rfl)
    have hsofar := hquiet.quiet_append hbefore hend.blankEnd
    exact welcome_filters hs hdone (hfits.sound (hs.opens_append _)) hw (by simpa using hsofar)
  | chain hs hdone hx hw =>
    have hfits := fits_chain hs hdone hx hw
    have hsound := hfits.sound (hs.opens_append _)
    simpa using hsound.welcome

/-- **Typing a canonical query is never disturbed**: every beginning of it is read without a
fault, and has suggestions. -/
theorem welcome_of_isPrefix (c : Canonical) {p : Text} (hp : p <+: c.text) :
    (∃ q, Query.read p true = .ok q) ∧ ∃ suggestions, complete p = .ok suggestions := by
  obtain ⟨s, w, rfl, hslot⟩ := atSlot_of_isPrefix c hp
  exact hslot.welcome

/-- A value that is being typed in parentheses, up to a word that looks like a keyword. -/
theorem welcome_within_value :
    (∃ q, Query.read "GET hash, nonce FROM tx 0x WHERE value > (1, ON".toList true = .ok q) ∧
      ∃ suggestions,
        complete "GET hash, nonce FROM tx 0x WHERE value > (1, ON".toList = .ok suggestions := by
  let c : Canonical :=
    { entity := .transaction
      fields := ["hash".toList, "nonce".toList]
      identifier := some "0x".toList
      filters := [⟨"value".toList, .gt, "(1, ONE)".toList⟩]
      chains := ["eth".toList, "base".toList]
      fields_fit := by decide
      identifier_fits := by decide
      filters_fit := by decide
      chains_fit := by decide }
  have hp : "GET hash, nonce FROM tx 0x WHERE value > (1, ON".toList <+: c.text := by decide
  exact welcome_of_isPrefix c hp

end Typing

end ChainQuery
