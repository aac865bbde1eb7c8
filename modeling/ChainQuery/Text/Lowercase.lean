import ChainQuery.Text.Basic
import ChainQuery.Text.CaseTable

/-!
# Lower case

`ChainQuery.Text.lower` writes a text in lower case by the **full** mapping of the character
standard. Three things are more than a table of letters:

* a letter may have a form of two characters – the dotted capital İ, and it alone;
* a capital sigma has two forms, and takes the final one exactly where it ends a word: the
  nearest character before it that case does not look through is cased, and the nearest
  such character after it is not;
* ASCII letters are lowered without the table, so that a text of ASCII characters is
  lowered by arithmetic on each character alone.
-/

namespace ChainQuery

namespace Text

/-- The lower-case form of a letter of the run, and nothing for any other character. -/
def CaseRun.lower? (run : CaseRun) (c : Char) : Option Char :=
  let n := c.toNat
  if run.first ≤ n ∧ n ≤ run.last ∧ (n - run.first) % run.step = 0 then
    some (Char.ofNat (run.image + (n - run.first)))
  else
    none

/-- The lower-case form of a character that stands alone. -/
def lowerChar (c : Char) : Text :=
  if c.toNat < 0x80 then
    [c.toLower]
  else if c = '\u0130' then
    ['i', '\u0307']
  else
    [(lowerRuns.findSome? fun run => run.lower? c).getD c]

/-- Case looks through these characters. -/
def isCaseIgnorable (c : Char) : Bool := inRanges ignorableRanges c

/-- Cased, and not looked through. -/
def isCased (c : Char) : Bool := inRanges casedRanges c

/-- Whether the first character that case does not look through is cased. -/
def nearestIsCased (s : Text) : Bool := (s.dropWhile isCaseIgnorable).head?.any isCased

/-- The lower-case form of a capital sigma between a text `before` it, read backwards, and a
text `after` it: the final form where a word ends, and only there. -/
def lowerSigma (before after : Text) : Char :=
  if nearestIsCased before && !nearestIsCased after then 'ς' else 'σ'

/-- The lower-case form of a text that stands after `before`, which is read backwards. -/
def lowerAfter (before : Text) : Text → Text
  | [] => []
  | c :: s =>
    (if c = 'Σ' then [lowerSigma before s] else lowerChar c) ++ lowerAfter (c :: before) s

/-- A text in lower case. -/
def lower (s : Text) : Text := lowerAfter [] s

/-! ### Lower case of ASCII -/

theorem lowerChar_of_ascii {c : Char} (h : c.toNat < 0x80) : lowerChar c = [c.toLower] := by
  rw [lowerChar, if_pos h]

theorem lowerAfter_of_ascii (before : Text) {s : Text} (h : ∀ c ∈ s, c.toNat < 0x80) :
    lowerAfter before s = s.map Char.toLower := by
  induction s generalizing before with
  | nil => rfl
  | cons c s ih =>
    have hc : c.toNat < 0x80 := h c (by simp)
    have hσ : c ≠ 'Σ' := by rintro rfl; exact absurd hc (by decide)
    rw [lowerAfter, if_neg hσ, lowerChar_of_ascii hc, ih _ fun d hd => h d (by simp [hd])]
    rfl

/-- A text of ASCII characters is lowered one character at a time. -/
theorem lower_of_ascii {s : Text} (h : ∀ c ∈ s, c.toNat < 0x80) :
    lower s = s.map Char.toLower :=
  lowerAfter_of_ascii [] h

end Text

end ChainQuery
