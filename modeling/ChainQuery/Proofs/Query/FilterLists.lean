import ChainQuery.Proofs.Query.Growth

/-!
# Lists of filters, one behind the other

Two lists of filters can be put together with a comma. What the comma does is told by the depth at
the end of the first list, and by nothing else. At depth zero it **divides**: the filters of the
whole are those of the first list and those of the second, each read as if the other were not there.
Inside a parenthesis it is **sheltered**, and so is everything behind it until the parenthesis is
closed. A list in which nothing is closed therefore adds no filter, however many commas it has; it
becomes a part of the last filter there was
(`ChainQuery.Text.exists_filters_append_comma_of_open`).

None of this asks that the lists make sense. They may hold empty groups, parentheses that close
nothing, and words that are no comparison (`ChainQuery.Query.filtersBehind_append_comma`).
-/

namespace ChainQuery

open Text Token

namespace Text

/-! ### Behind an open parenthesis -/

/-- Where nothing is closed the depth does not fall. -/
theorem le_depthFrom {s : Text} (h : ')' ∉ s) (depth : Nat) : depth ≤ depthFrom depth s := by
  induction s generalizing depth with
  | nil => exact Nat.le_refl depth
  | cons c s ih =>
    rw [List.mem_cons, not_or] at h
    have hstep : depth ≤ depthStep depth c := by
      rw [depthStep, if_neg (Ne.symm h.1)]
      split <;> omega
    exact hstep.trans (ih h.2 (depthStep depth c))

/-- An open parenthesis shelters all commas behind it, as long as nothing is closed. -/
theorem Sheltered.append_of_open {s t : Text} (hs : Sheltered s) (hopen : 0 < depth s)
    (ht : ')' ∉ t) : Sheltered (s ++ t) := by
  refine sheltered_append_iff.mpr ⟨hs, ?_⟩
  rintro u v rfl
  have hclosed : ')' ∉ u := fun hmem => ht (List.mem_append_left _ hmem)
  exact hopen.trans_le (le_depthFrom hclosed _)

/-- The last filter of a list leaves as many parentheses open as the list does. -/
theorem IsLastFilter.depth_eq {v s : Text} (h : IsLastFilter v s) : depth s = depth v := by
  obtain ⟨-, rfl | ⟨u, hu, rfl⟩⟩ := h
  · rfl
  · exact depth_append_comma hu v

/-- **A comma inside a parenthesis adds no filter**, and neither does what stands behind it while
the parenthesis is open. All of this goes to the last filter. -/
theorem exists_filters_append_comma_of_open {s : Text} (hopen : 0 < depth s) {t : Text}
    (ht : ')' ∉ t) : ∃ earlier v,
      filters s = earlier ++ [Filter.ofTokens (lexemes v)] ∧
        filters (s ++ ',' :: t) = earlier ++ [Filter.ofTokens (lexemes (v ++ ',' :: t))] := by
  obtain ⟨v, hv⟩ := exists_isLastFilter s
  obtain ⟨earlier, hearlier⟩ := hv.exists_filters_append
  have hopen' : 0 < depth v := hv.depth_eq ▸ hopen
  have hne : ¬Blank v := by
    intro hblank
    rw [depth, depthFrom_of_blank hblank] at hopen'
    omega
  have hall : Sheltered (v ++ ',' :: t) := hv.1.append_of_open hopen' (by simpa using ht)
  have hlast : filters v = [Filter.ofTokens (lexemes v)] := filters_of_sheltered hv.1 hne
  have hlast' : filters (v ++ ',' :: t) = [Filter.ofTokens (lexemes (v ++ ',' :: t))] :=
    filters_of_sheltered hall fun hblank => hne (blank_append.mp hblank).1
  refine ⟨earlier, v, ?_, ?_⟩
  · rw [← hlast, ← List.append_nil s, hearlier, List.append_nil]
  · rw [← hlast', hearlier]

end Text

namespace Query

/-! ### Behind a head -/

/-- **The filters that a list says behind a head.** Where it says none they are read as the empty
list. -/
def filtersBehind (head list : Text) : List Filter :=
  (ofText (head ++ (" WHERE ".toList ++ list))).filterList

variable {head : Text}

/-- A list of filters is read for itself, whatever the head is. -/
theorem filtersBehind_eq (hhead : IsHead head) {list : Text} (hlist : Text.Quiet list) :
    filtersBehind head list = Text.filters list := by
  have hquiet : ∀ c ∈ [(⟨.filters, list⟩ : WrittenClause)], c.IsQuiet := by
    intro c hc
    rw [List.mem_singleton.mp hc]
    exact ⟨by simp, hlist⟩
  have hwritten : head ++ (" WHERE ".toList ++ list) =
      WrittenClause.written head [⟨.filters, list⟩] := by
    rw [WrittenClause.written, List.flatMap_singleton]
    rfl
  rw [filtersBehind, hwritten, ofText_eq, filterList_ofClauses,
    WrittenClause.first?_written hhead hquiet]
  exact filters_blank_append blank_space list

/-- **Lists of filters compose.** Where no parenthesis is open at the end of the first list, the
filters of the whole are those of the first list and then those of the second. Where one is, and the
second list closes none, the whole has as many filters as the first list, and the same ones but for
the last. -/
theorem filtersBehind_append_comma (hhead : IsHead head) {a b : Text} (ha : Text.Quiet a)
    (hb : Text.Quiet b) :
    (depth a = 0 →
      filtersBehind head (a ++ (", ".toList ++ b)) =
        filtersBehind head a ++ filtersBehind head b) ∧
    (0 < depth a → ')' ∉ b →
      (filtersBehind head (a ++ (", ".toList ++ b))).length = (filtersBehind head a).length ∧
      (filtersBehind head (a ++ (", ".toList ++ b))).dropLast =
        (filtersBehind head a).dropLast) := by
  have hall : Text.Quiet (a ++ (", ".toList ++ b)) :=
    ha.append_comma (Text.Quiet.blank_append blank_space hb)
  rw [filtersBehind_eq hhead hall, filtersBehind_eq hhead ha, filtersBehind_eq hhead hb]
  constructor
  · intro hclosed
    calc Text.filters (a ++ ',' :: ([' '] ++ b))
        = Text.filters a ++ Text.filters ([' '] ++ b) := filters_append_comma hclosed _
      _ = Text.filters a ++ Text.filters b := by rw [filters_blank_append blank_space]
  · intro hopen hclose
    obtain ⟨earlier, v, hfirst, hwhole⟩ :=
      exists_filters_append_comma_of_open (t := ' ' :: b) hopen (by simpa using hclose)
    have htext : a ++ (", ".toList ++ b) = a ++ ',' :: ' ' :: b := rfl
    rw [hfirst, htext, hwhole]
    simp

/-- A parenthesis that closes nothing and an empty group on the two sides of a comma that divides;
and a value that is still open behind a comma that does not. -/
theorem filtersBehind_of_signature :
    filtersBehind "GET *".toList "gas >), event = T(a, b), => 1,, fee".toList =
        [⟨"gas".toList, some .gt, some ")".toList⟩,
          ⟨"event".toList, some .eq, some "T(a, b)".toList⟩,
          { field := "=> 1".toList }, { field := "fee".toList }] ∧
      (filtersBehind "GET *".toList "gas, event = T(a, b, fee".toList).length = 2 := by
  have hhead : IsHead "GET *".toList := by decide
  have hclosed := filtersBehind_append_comma hhead (a := "gas >), event = T(a, b)".toList)
    (b := "=> 1,, fee".toList) (by decide +kernel) (by decide +kernel)
  have hopen := filtersBehind_append_comma hhead (a := "gas, event = T(a".toList)
    (b := "b, fee".toList) (by decide +kernel) (by decide +kernel)
  have hfirst : (filtersBehind "GET *".toList "gas, event = T(a".toList).length = 2 := by
    decide +kernel
  have hparts : filtersBehind "GET *".toList "gas >), event = T(a, b)".toList ++
      filtersBehind "GET *".toList "=> 1,, fee".toList =
        [⟨"gas".toList, some .gt, some ")".toList⟩,
          ⟨"event".toList, some .eq, some "T(a, b)".toList⟩,
          { field := "=> 1".toList }, { field := "fee".toList }] := by
    decide +kernel
  exact ⟨(hclosed.1 (by decide)).trans hparts, ((hopen.2 (by decide) (by decide)).1).trans hfirst⟩

end Query

end ChainQuery
