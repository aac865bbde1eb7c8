/-!
# Texts

A **text** is the list of its characters. Everything a query says is found by looking at
characters one by one, so the list is the type on which the whole library is defined, and
an offset into a text is a number of characters; `ChainQuery.Text.utf8Size` is the one place
where bytes are counted.

| notion | what it is |
|---|---|
| `ChainQuery.Text.isBlank` | the white space of the character standard, not that of ASCII alone |
| `ChainQuery.Text.trim` | a text without the white space at its two ends |
| `ChainQuery.Text.indexOf?` | where a text occurs first in another |
-/

namespace ChainQuery

/-- A text: the list of its characters. -/
abbrev Text := List Char

/-- A stretch of a text, from the offset at which it starts to the offset at which it stops.
Whether offsets count characters or bytes is said where spans are made. -/
structure Span where
  /-- What precedes the stretch. -/
  start : Nat
  /-- What precedes the end of the stretch. -/
  stop : Nat
  deriving DecidableEq, Repr

namespace Text

/-! ### Kinds of characters -/

/-- Whether the code point of a character lies in one of some closed ranges. -/
def inRanges (ranges : List (Nat × Nat)) (c : Char) : Bool :=
  ranges.any fun r => decide (r.1 ≤ c.toNat) && decide (c.toNat ≤ r.2)

/-- The code points with the property `White_Space`, as closed ranges. -/
def blankRanges : List (Nat × Nat) :=
  [(0x09, 0x0D), (0x20, 0x20), (0x85, 0x85), (0xA0, 0xA0), (0x1680, 0x1680),
   (0x2000, 0x200A), (0x2028, 0x2029), (0x202F, 0x202F), (0x205F, 0x205F), (0x3000, 0x3000)]

/-- **White space**: the characters with the property `White_Space`. -/
def isBlank (c : Char) : Bool := inRanges blankRanges c

/-- The white space within a line: the space and the tab. -/
def isLineSpace (c : Char) : Bool := c == ' ' || c == '\t'

/-- The characters that stand for themselves on a line: no control characters of ASCII but the
tab. -/
def isPlain (c : Char) : Bool := c == '\t' || (0x20 ≤ c.toNat && c.toNat != 0x7F)

/-! ### Trimming -/

/-- A text without the white space it begins with. -/
def trimStart (s : Text) : Text := s.dropWhile isBlank

/-- A text without the white space it ends in. -/
def trimEnd (s : Text) : Text :=
  s.foldr (fun c rest => if rest.isEmpty && isBlank c then [] else c :: rest) []

/-- A text without the white space at its two ends. -/
def trim (s : Text) : Text := trimEnd (trimStart s)

/-- The text, unless it is empty. -/
def nonempty? (s : Text) : Option Text := if s.isEmpty then none else some s

/-! ### Cutting a text -/

/-- The first word of a text and what follows the white space character that ends it. -/
def cutAtBlank (s : Text) : Text × Text :=
  (s.takeWhile (!isBlank ·), (s.dropWhile (!isBlank ·)).drop 1)

/-- The text after an opening that it has. -/
def dropOpening? : Text → Text → Option Text
  | [], s => some s
  | _ :: _, [] => none
  | c :: opening, d :: s => if c = d then dropOpening? opening s else none

theorem dropOpening?_append (opening s : Text) : dropOpening? opening (opening ++ s) = some s := by
  induction opening with
  | nil => rfl
  | cons c opening ih => simpa [dropOpening?] using ih

/-- A text without the mark of its byte order, if it begins with one. -/
def dropMark : Text → Text
  | '\uFEFF' :: s => s
  | s => s

/-! ### Looking into a text -/

/-- Whether a text begins with another. -/
def beginsWith (opening s : Text) : Bool := opening.isPrefixOf s

theorem beginsWith_iff {opening s : Text} : beginsWith opening s = true ↔ opening <+: s :=
  List.isPrefixOf_iff_prefix

/-- Whether a text ends in another. -/
def endsIn (ending s : Text) : Bool := ending.isSuffixOf s

/-- Whether the last character of a text passes a test. -/
def lastIs (p : Char → Bool) (s : Text) : Bool := s.getLast?.any p

/-- The number of characters that stand before the **first** occurrence of `sought`. -/
def indexOf? (sought : Text) : Text → Option Nat
  | [] => if sought.isEmpty then some 0 else none
  | c :: s => if beginsWith sought (c :: s) then some 0 else (indexOf? sought s).map (· + 1)

/-- Whether a text occurs somewhere in another. -/
def occursIn (sought s : Text) : Bool := (indexOf? sought s).isSome

/-! ### What is left of a text -/

/-- What is left of a text when something has been read from its beginning. It is shorter than
the text, so that reading on comes to an end. -/
abbrev Rest (s : Text) := { rest : Text // rest.length < s.length }

/-- What is left of a rest is left of the text. -/
def Rest.of {s : Text} (rest : Rest s) (later : Rest rest.val) : Rest s :=
  ⟨later.val, Nat.lt_trans later.property rest.property⟩

/-- What is left when the text after the first character is cut further. -/
def Rest.ofTail {c : Char} {s : Text} (later : Rest s) : Rest (c :: s) :=
  ⟨later.val, by have := later.property; simp only [List.length_cons]; omega⟩

/-- The text after its first character. -/
def Rest.tail (c : Char) (s : Text) : Rest (c :: s) := ⟨s, by simp⟩

theorem length_dropWhile_le (p : Char → Bool) (s : Text) :
    (s.dropWhile p).length ≤ s.length :=
  (s.dropWhile_sublist p).length_le

/-- The text after its first character and so many more. -/
def Rest.drop (count : Nat) (c : Char) (s : Text) : Rest (c :: s) :=
  ⟨s.drop count, by simp only [List.length_drop, List.length_cons]; omega⟩

/-- The text after the characters that pass a test, one of them being the first. -/
def Rest.dropWhile (p : Char → Bool) (c : Char) (s : Text) : Rest (c :: s) :=
  ⟨s.dropWhile p, by
    have := length_dropWhile_le p s
    simp only [List.length_cons]; omega⟩

/-! ### Bytes -/

/-- The number of bytes that a text takes in UTF-8. -/
def utf8Size : Text → Nat
  | [] => 0
  | c :: s => c.utf8Size + utf8Size s

@[simp] theorem utf8Size_nil : utf8Size [] = 0 := rfl

@[simp] theorem utf8Size_cons (c : Char) (s : Text) :
    utf8Size (c :: s) = c.utf8Size + utf8Size s := rfl

@[simp] theorem utf8Size_append (s t : Text) :
    utf8Size (s ++ t) = utf8Size s + utf8Size t := by
  induction s with
  | nil => simp
  | cons c s ih => simp [ih, Nat.add_assoc]

end Text

end ChainQuery
