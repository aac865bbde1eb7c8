import ChainQuery.Settings.Toml.Quoted
import ChainQuery.Settings.Toml.Scalar

/-!
# TOML: statements

A file is a sequence of **statements**, each on a line of its own: an entry, which gives a value
to a key, or a header, which says to which table the following entries belong. Keys are paths:
names with points between them. A value may go over several lines only between the brackets of
an array, the braces of a table that is written as a value, or the marks of a text that is
quoted for it.

Arrays and such tables may stand in one another, but not without a bound, and neither may a key
have any number of names: `ChainQuery.Settings.Toml.depthLimit` is the most of either.

What is read here is how a file is written. Which tables its statements make, and whether they
agree, is found out in `ChainQuery.Settings.Toml.Document`.
-/

namespace ChainQuery

namespace Settings

namespace Toml

/-- A key: names with points between them. -/
abbrev Key := List Text

/-- A value as it is written. -/
inductive Term
  /-- A value without parts. -/
  | scalar (v : Value)
  /-- An array. -/
  | array (items : List Term)
  /-- A table that is written as a value. -/
  | inline (entries : List (Key × Term))

/-- A statement. -/
inductive Statement
  /-- A value is given to a key. -/
  | entry (key : Key) (term : Term)
  /-- What follows belongs to this table. -/
  | header (key : Key)
  /-- What follows belongs to one more table in this list. -/
  | listHeader (key : Key)

/-! ### White space and comments -/

/-- A text without the white space at its beginning, within the line. -/
def skipLineSpace (s : Text) : Text := s.dropWhile Text.isLineSpace

/-- The text after a comment, the sign before it being read: the comment goes to the end of
the line. -/
def skipComment? (s : Text) : Option Text :=
  if (s.takeWhile (!isBreak ·)).all Text.isPlain then some (s.dropWhile (!isBreak ·)) else none

/-- What is left of a text when something, or nothing, has been taken from its beginning. -/
abbrev Remainder (s : Text) := { rest : Text // rest.length ≤ s.length }

/-- What is left of a text is left of any that is not shorter. -/
def Remainder.weaken {s t : Text} (rest : Remainder s) (h : s.length ≤ t.length) :
    Remainder t :=
  ⟨rest.val, Nat.le_trans rest.property h⟩

/-- White space within the line can always be skipped. -/
def skipSpace? (s : Text) : Option (Remainder s) :=
  some ⟨skipLineSpace s, Text.length_dropWhile_le Text.isLineSpace s⟩

/-- A text without white space, line breaks and comments at its beginning. -/
def skipGaps? : (s : Text) → Option (Remainder s)
  | [] => some ⟨[], Nat.le_refl _⟩
  | c :: s =>
    if isGap c then
      (skipGaps? s).map fun rest => Remainder.weaken rest (Nat.le_succ _)
    else if c = '#' then
      if (s.takeWhile (!isBreak ·)).all Text.isPlain then
        (skipGaps? (s.dropWhile (!isBreak ·))).map fun rest =>
          Remainder.weaken rest (Nat.le_succ_of_le (Text.length_dropWhile_le (!isBreak ·) s))
      else none
    else some ⟨c :: s, Nat.le_refl _⟩
termination_by s => s.length
decreasing_by
  · simp
  · have := Text.length_dropWhile_le (!isBreak ·) s
    simp only [List.length_cons]; omega

/-! ### Keys -/

/-- The characters of a name that needs no quotation marks. -/
def isBareChar (c : Char) : Bool := c.isAlphanum || c == '_' || c == '-'

/-- Reads one name of a key. -/
def name? : (s : Text) → Option (Text × Text.Rest s)
  | [] => none
  | c :: s =>
    if isMark c then (line? c (c == '"') s).map fun (name, rest) => (name, rest.ofTail)
    else if isBareChar c then some (c :: s.takeWhile isBareChar, .dropWhile isBareChar c s)
    else none

/-- Reads a key. -/
def key? (s : Text) : Option (Key × Text.Rest s) :=
  match name? s with
  | none => none
  | some (name, rest) =>
    match _h : skipLineSpace rest.val with
    | [] => some ([name], rest)
    | c :: t =>
      if c = '.' then
        match key? (skipLineSpace t) with
        | none => none
        | some (names, later) => some (name :: names, ⟨later.val, by
            have := later.property
            have := rest.property
            have hr := Text.length_dropWhile_le Text.isLineSpace rest.val
            have := Text.length_dropWhile_le Text.isLineSpace t
            simp only [skipLineSpace] at _h this later
            rw [_h] at hr
            simp only [List.length_cons] at hr
            simp only [skipLineSpace] at *
            omega⟩)
      else some ([name], rest)
termination_by s.length
decreasing_by
  have := rest.property
  have hr := Text.length_dropWhile_le Text.isLineSpace rest.val
  have := Text.length_dropWhile_le Text.isLineSpace t
  simp only [skipLineSpace] at *
  rw [_h] at hr
  simp only [List.length_cons] at hr
  omega

/-- Reads a key and the sign of equality after it, where `skip?` passes over what may stand on
both sides of the sign. -/
def keyOfEntry? (skip? : (s : Text) → Option (Remainder s)) (s : Text) :
    Option (Key × Text.Rest s) :=
  match key? s with
  | none => none
  | some (key, rest) =>
    match skip? rest.val with
    | some ⟨'=' :: t, h⟩ =>
      (skip? t).map fun later =>
        (key, ⟨later.val, by
          have := later.property
          have := rest.property
          simp only [List.length_cons] at h
          omega⟩)
    | _ => none

/-! ### Values -/

/-- The characters of the words that write truth values, numbers and moments. -/
def isWordChar (c : Char) : Bool := c.isAlphanum || "+-_.:".toList.contains c

/-- The length of the word at the beginning of a text. A date may be followed by a space and
the time of day. -/
def wordLength (s : Text) : Nat :=
  let length := (s.takeWhile isWordChar).length
  match s.drop length with
  | ' ' :: c :: rest =>
    if length = 10 ∧ afterDate? (s.take 10) = some [] ∧ Digits.isDecimal c then
      length + 1 + ((c :: rest).takeWhile isWordChar).length
    else length
  | _ => length

/-- Reads a value that is one word. -/
def word? (s : Text) : Option (Value × Text.Rest s) :=
  let length := wordLength s
  if h : 0 < length ∧ length ≤ s.length then
    (scalar? (s.take length)).map fun v =>
      (v, ⟨s.drop length, by simp only [List.length_drop]; omega⟩)
  else none

mutual

/-- **Reads a value.** -/
def term? (s : Text) : Option (Term × Text.Rest s) :=
  match s with
  | [] => none
  | c :: s =>
    if isMark c then
      (quoted? c s).map fun (text, rest) => (.scalar (.text text), rest)
    else if c = '[' then
      (items? s).map fun (items, rest) => (.array items, rest.ofTail)
    else if c = '\x7b' then
      (entries? s).map fun (entries, rest) => (.inline entries, rest.ofTail)
    else (word? (c :: s)).map fun (v, rest) => (.scalar v, rest)
termination_by 2 * s.length
decreasing_by all_goals simp only [List.length_cons]; omega

/-- Reads the items of an array up to its closing bracket. A comma may stand before the
bracket. -/
def items? (s : Text) : Option (List Term × Text.Rest s) :=
  match skipGaps? s with
  | none => none
  | some ⟨[], _⟩ => none
  | some ⟨c :: t, notLonger⟩ =>
    if c = ']' then some ([], ⟨t, by simp only [List.length_cons] at *; omega⟩)
    else
      match term? (c :: t) with
      | none => none
      | some (item, rest) =>
        match skipGaps? rest.val with
        | none => none
        | some ⟨[], _⟩ => none
        | some ⟨d :: u, _⟩ =>
          have shorter : u.length < s.length := by
            have := rest.property
            simp only [List.length_cons] at *
            omega
          if d = ']' then some ([item], ⟨u, shorter⟩)
          else if d = ',' then
            (items? u).map fun (items, later) =>
              (item :: items, ⟨later.val, Nat.lt_trans later.property shorter⟩)
          else none
termination_by 2 * s.length + 1
decreasing_by all_goals omega

/-- Reads the entries of a table up to its closing brace. A comma may stand before the brace. -/
def entries? (s : Text) : Option (List (Key × Term) × Text.Rest s) :=
  match skipGaps? s with
  | none => none
  | some ⟨[], _⟩ => none
  | some ⟨c :: t, notLonger⟩ =>
    if c = '\x7d' then some ([], ⟨t, by simp only [List.length_cons] at *; omega⟩)
    else
      match keyOfEntry? skipGaps? (c :: t) with
      | none => none
      | some (key, start) =>
        have shorter : start.val.length < s.length := Nat.lt_of_lt_of_le start.property notLonger
        match term? start.val with
        | none => none
        | some (term, rest) =>
          match skipGaps? rest.val with
          | none => none
          | some ⟨[], _⟩ => none
          | some ⟨d :: u, _⟩ =>
            have shorter' : u.length < s.length := by
              have := rest.property
              simp only [List.length_cons] at *
              omega
            if d = '\x7d' then some ([(key, term)], ⟨u, shorter'⟩)
            else if d = ',' then
              (entries? u).map fun (entries, later) =>
                ((key, term) :: entries, ⟨later.val, Nat.lt_trans later.property shorter'⟩)
            else none
termination_by 2 * s.length + 1
decreasing_by all_goals omega

end

/-! ### Statements -/

/-- Reads the key of a header and the brackets after it. -/
def headerKey? (closing : Text) (s : Text) : Option (Key × Text) := do
  let (key, rest) ← key? (skipLineSpace s)
  let rest ← Text.dropOpening? closing (skipLineSpace rest.val)
  some (key, rest)

/-- Reads a statement. -/
def statement? (s : Text) : Option (Statement × Text) :=
  match s with
  | '[' :: '[' :: s => (headerKey? [']', ']'] s).map fun (key, rest) => (.listHeader key, rest)
  | '[' :: s => (headerKey? [']'] s).map fun (key, rest) => (.header key, rest)
  | s => do
    let (key, rest) ← keyOfEntry? skipSpace? s
    let (term, rest) ← term? rest.val
    some (.entry key term, rest.val)

/-- What follows the line in which a statement ends. Only a comment may stand in its way. -/
def endLine? (s : Text) : Option Text :=
  match skipLineSpace s with
  | [] => some []
  | c :: rest => if c = '#' then skipComment? rest else if isBreak c then some rest else none

/-- Reads the statements of a file. A statement always takes up some of the text, and comparing
lengths makes that visible. -/
def statementsFrom? (s : Text) : Option (List Statement) :=
  match skipGaps? s with
  | none => none
  | some ⟨[], _⟩ => some []
  | some ⟨c :: t, _⟩ =>
    match (statement? (c :: t)) with
    | none => none
    | some (statement, rest) =>
      match endLine? rest with
      | none => none
      | some rest =>
        if rest.length < s.length then (statementsFrom? rest).map (statement :: ·) else none
termination_by s.length

/-! ### Bounds -/

/-- How deep arrays and tables may stand in one another, and how many names a key may have. -/
def depthLimit : Nat := 80

/-- Whether a key has no more names than it may have. -/
def isShort (key : Key) : Bool := key.length ≤ depthLimit

mutual

/-- Whether arrays and tables stand in one another to no more than a depth, and every key in
them is short. -/
def Term.isWithin : (depth : Nat) → Term → Bool
  | _, .scalar _ => true
  | depth + 1, .array items => itemsWithin depth items
  | depth + 1, .inline entries => entriesWithin depth entries
  | 0, _ => false

/-- Whether all items of an array keep to the bounds. -/
def itemsWithin : (depth : Nat) → List Term → Bool
  | _, [] => true
  | depth, item :: rest => item.isWithin depth && itemsWithin depth rest

/-- Whether all entries of a table keep to the bounds. -/
def entriesWithin : (depth : Nat) → List (Key × Term) → Bool
  | _, [] => true
  | depth, (key, term) :: rest =>
    isShort key && term.isWithin depth && entriesWithin depth rest

end

/-- Whether a statement keeps to the bounds. -/
def Statement.isBounded : Statement → Bool
  | .entry key term => isShort key && term.isWithin depthLimit
  | .header key => isShort key
  | .listHeader key => isShort key

/-- **The statements of a file.** A mark of its byte order may stand before them. -/
def statements? (file : Text) : Option (List Statement) :=
  if hasWholeBreaks file then
    (statementsFrom? (Text.dropMark file)).filter fun statements =>
      statements.all Statement.isBounded
  else none

end Toml

end Settings

end ChainQuery
