import ChainQuery.Proofs.Query.Position
import ChainQuery.Proofs.Text.Joined
import Mathlib.Data.List.Infix

/-!
# Spaces behind a text

A space behind a text makes it due, and does nothing else. The same query is read, and whatever is
wrong with it is wrong as before. Someone who goes on with spaces may be told of a fault that was
not mentioned yet, but a fault that has been mentioned does not go away: it is told in the same
words, and shows at the same place (`ChainQuery.Query.read_append_spaces`).

Two checks look at the text as it was typed, and could be misled. The opening of the text ends in a
space, and an added space could complete it; but a text in which only that space is missing is not
due (`ChainQuery.Query.not_due_of_isPrefix`). And the word that is at fault could be found in what
has been added, or across the seam; but no such word ends in white space
(`ChainQuery.Text.indexOf?_append_blank`). When the opening is wrong, no word is looked for: the
whole text is marked, and the mark grows with it (`ChainQuery.Diagnostic.padded`).
-/

namespace ChainQuery

open Text

namespace Text

/-! ### Searching in front of white space -/

variable {word w : Text}

/-- A text that does not end in white space is not begun by what stands before white space. -/
theorem isPrefix_append_blank_iff (hword : Solid word) (hw : Blank w) (s : Text) :
    word <+: s ++ w ↔ word <+: s := by
  constructor
  · intro h
    rcases prefix_append_iff.mp h with h | ⟨u, rfl, hu⟩
    · exact h
    · have hblank : Blank u := fun c hc => hw c (hu.subset hc)
      have hend := hword.blankEnd
      rw [blankEnd_append_blank s hblank, List.append_eq_nil_iff] at hend
      simp [hend.2]
  · exact fun h => h.trans (List.prefix_append s w)

/-- In white space nothing is found. -/
theorem indexOf?_of_blank (hword : Solid word) (hw : Blank w) : indexOf? word w = none := by
  rw [← Option.not_isSome_iff_eq_none, isSome_indexOf?_iff]
  exact fun h => hword.not_blank fun c hc => hw c (h.subset hc)

/-- **White space behind a text is not searched in vain**: what does not end in white space is found
where it was. -/
theorem indexOf?_append_blank (hword : Solid word) (hw : Blank w) (s : Text) :
    indexOf? word (s ++ w) = indexOf? word s := by
  induction s with
  | nil => rw [List.nil_append, indexOf?_of_blank hword hw, indexOf?_of_blank hword blank_nil]
  | cons c s ih =>
    have hbegin : beginsWith word (c :: (s ++ w)) = beginsWith word (c :: s) := by
      rw [Bool.eq_iff_iff, beginsWith_iff, beginsWith_iff]
      exact isPrefix_append_blank_iff hword hw (c :: s)
    rw [List.cons_append, indexOf?, hbegin, ih, indexOf?]

end Text

/-- **The same diagnostic of a text with `n` more spaces**: where the whole text is marked the mark
reaches further, and every other mark stays. -/
def Diagnostic.padded (n : Nat) (d : Diagnostic) : Diagnostic :=
  if d.message = "Query must start with GET".toList then
    { d with position := d.position.map fun span => { span with stop := span.stop + n } }
  else d

theorem Diagnostic.padded_noOpening (raw : Text) (n : Nat) :
    (locate raw .noOpening).padded n = ⟨.noOpening, some ⟨0, raw.length + n⟩⟩ := by
  have hmessage : (locate raw .noOpening).message = "Query must start with GET".toList := rfl
  rw [padded, if_pos hmessage]
  rfl

theorem Diagnostic.padded_of_ne {d : Diagnostic} (h : d.message ≠ "Query must start with GET".toList)
    (n : Nat) : d.padded n = d := if_neg h

namespace Query

variable {raw : Text}

/-! ### What is marked -/

/-- **A fault shows where it did before the spaces.** -/
theorem locate_append_spaces {fault : Fault} (h : (ofText raw).fault? raw = some fault) (n : Nat) :
    Diagnostic.locate (raw ++ List.replicate n ' ') fault =
      (Diagnostic.locate raw fault).padded n := by
  have hblank : Blank (List.replicate n ' ') := fun c hc => by
    rw [List.eq_of_mem_replicate hc, isBlank_space]
  rcases quotes_of_fault? h with rfl | ⟨part, word, hculprit, hquotes⟩
  · rw [Diagnostic.padded_noOpening, Diagnostic.locate, List.length_append, List.length_replicate]
  · have hposition : (Diagnostic.locate (raw ++ List.replicate n ' ') fault).position =
        (Diagnostic.locate raw fault).position := by
      rw [Diagnostic.position_locate hculprit, Diagnostic.position_locate hculprit,
        Diagnostic.firstOccurrence?, Diagnostic.firstOccurrence?,
        indexOf?_append_blank hquotes.solid hblank]
    have hmessage : (Diagnostic.locate raw fault).message ≠ "Query must start with GET".toList :=
      hquotes.message_ne_opening
    rw [Diagnostic.padded_of_ne hmessage]
    exact congrArg (Diagnostic.mk fault) hposition

/-! ### What is due -/

/-- The letters of `GET`, or less, are not judged. -/
theorem not_due_of_isPrefix (h : raw <+: Keyword.fields.text) : ¬Due raw := by
  have hnone : ∀ r ∈ Keyword.fields.text.inits, (ofText r).isDue r = false := by decide
  rw [← isDue_iff, hnone raw ((List.mem_inits raw _).mpr h)]
  exact Bool.false_ne_true

/-- **Nothing that is put behind a text that is due completes its opening.** -/
theorem opening_isPrefix_append_iff (hdue : Due raw) (w : Text) :
    opening <+: raw ++ w ↔ opening <+: raw := by
  constructor
  · intro h
    rcases prefix_append_iff.mp h with h | ⟨u, hu, -⟩
    · exact h
    · have hprefix : raw <+: Keyword.fields.text ++ [' '] := ⟨u, hu.symm⟩
      rcases List.prefix_concat_iff.mp hprefix with heq | hprefix
      · exact ⟨[], by rw [heq]; rfl⟩
      · exact absurd hdue (not_due_of_isPrefix hprefix)
  · exact fun h => h.trans (List.prefix_append raw w)

/-- What is put behind a text that is due changes nothing in the faults of a query. -/
theorem fault?_append (hdue : Due raw) (q : Query) (w : Text) :
    q.fault? (raw ++ w) = q.fault? raw := by
  have hopening : openingFault? (raw ++ w) = openingFault? raw := by
    have hbegin : beginsWith opening (raw ++ w) = beginsWith opening raw := by
      rw [Bool.eq_iff_iff, beginsWith_iff, beginsWith_iff]
      exact opening_isPrefix_append_iff hdue w
    rw [openingFault?, hbegin, openingFault?]
  rw [fault?, hopening, fault?]

theorem ofText_append_spaces (raw : Text) (n : Nat) :
    ofText (raw ++ List.replicate n ' ') = ofText raw := by
  refine ofText_append_blank raw fun c hc => ?_
  rw [List.eq_of_mem_replicate hc, isBlank_space]

/-- A text that is due is due with more spaces. -/
theorem Due.append_spaces (hdue : Due raw) (n : Nat) : Due (raw ++ List.replicate n ' ') := by
  obtain ⟨hblank, hend⟩ := hdue
  refine ⟨fun h => hblank (blank_append.mp h).1, ?_⟩
  rw [ofText_append_spaces]
  refine hend.imp_right fun hspace => ?_
  cases n with
  | zero => rwa [List.replicate_zero, List.append_nil]
  | succ n =>
    rw [List.replicate_succ', ← List.append_assoc]
    exact List.suffix_append _ _

/-! ### Judgement -/

/-- **Spaces behind a text hide no fault and move none.** What was wrong with the text is wrong with
it still, and is told in the same words and marked at the same place, except that a mark on the
whole text reaches to its new end; and a text that is let pass with the spaces is let pass without
them. -/
theorem read_append_spaces (raw : Text) (n : Nat) :
    (∀ d, read raw true = .error d →
      read (raw ++ List.replicate n ' ') true = .error (d.padded n)) ∧
    (∀ q, read (raw ++ List.replicate n ' ') true = .ok q → read raw true = .ok q) := by
  by_cases hdue : Due raw
  · have hbefore : read raw true = _ := judge_of_due hdue
    have hbehind : read (raw ++ List.replicate n ' ') true = _ := judge_of_due (hdue.append_spaces n)
    rw [ofText_append_spaces, fault?_append hdue] at hbehind
    rw [hbefore, hbehind]
    cases hfault : (ofText raw).fault? raw with
    | some fault =>
      dsimp only
      rw [locate_append_spaces hfault]
      refine ⟨fun d hd => ?_, fun q hq => ?_⟩
      · rw [← Except.error.inj hd]
      · cases hq
    | none => exact ⟨fun d hd => (by cases hd), fun q hq => hq⟩
  · -- a text that is not due was let pass, and is still read as it was
    have hbefore : read raw true = .ok (ofText raw) := judge_of_not_due hdue
    refine ⟨fun d hd => ?_, fun q hq => ?_⟩
    · rw [hbefore] at hd
      cases hd
    · rw [hbefore, eq_ofText_of_judge hq, ofText_append_spaces]

/-- A field that stands behind a letter of two bytes, and a text that opens with a space. -/
theorem read_append_spaces_of_faults :
    read "GET é FROM tx ".toList true = .error ⟨.foreignField "é".toList .transaction, some ⟨4, 5⟩⟩ ∧
      read ("GET é FROM tx ".toList ++ List.replicate 3 ' ') true =
        .error ⟨.foreignField "é".toList .transaction, some ⟨4, 5⟩⟩ ∧
      read " GET é ".toList true = .error ⟨.noOpening, some ⟨0, 7⟩⟩ ∧
      read (" GET é ".toList ++ List.replicate 3 ' ') true = .error ⟨.noOpening, some ⟨0, 10⟩⟩ := by
  have hfield : read "GET é FROM tx ".toList true =
      .error ⟨.foreignField "é".toList .transaction, some ⟨4, 5⟩⟩ := by decide +kernel
  have hopening : read " GET é ".toList true = .error ⟨.noOpening, some ⟨0, 7⟩⟩ := by
    decide +kernel
  exact ⟨hfield, (read_append_spaces _ 3).1 _ hfield, hopening,
    (read_append_spaces _ 3).1 _ hopening⟩

end Query

end ChainQuery
