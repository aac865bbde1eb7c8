import ChainQuery.Number.Digits

/-!
# TOML: quoted texts

A text stands between quotation marks or apostrophes, one or three at either end. Between
quotation marks a backslash begins an **escape**, and between apostrophes every character
stands for itself. With three at either end a text may go over several lines, and its line
breaks are kept as they are written: but a break directly behind the opening does not count,
and neither does one behind a backslash, with all white space after it.

A line break is a line feed, with or without a carriage return before it. A carriage return
stands nowhere else, so that one begins a line break wherever it is met;
`ChainQuery.Settings.Toml.hasWholeBreaks` is what has to be found out about a file first.
-/

namespace ChainQuery

namespace Settings

namespace Toml

/-! ### Characters -/

/-- Whether every carriage return of a text has its line feed behind it. -/
def hasWholeBreaks : Text → Bool
  | [] => true
  | c :: s => (c != '\r' || s.head? == some '\n') && hasWholeBreaks s

/-- The characters of line breaks. -/
def isBreak (c : Char) : Bool := c == '\n' || c == '\r'

/-- White space, line breaks included. -/
def isGap (c : Char) : Bool := Text.isLineSpace c || isBreak c

/-! ### Escapes -/

/-- The character for which a character after a backslash stands. -/
def escaped? (c : Char) : Option Char :=
  if c = '"' ∨ c = '\\' then some c
  else if c = 'b' then some '\x08'
  else if c = 't' then some '\t'
  else if c = 'n' then some '\n'
  else if c = 'f' then some '\x0c'
  else if c = 'r' then some '\r'
  else if c = 'e' then some '\x1b'
  else none

/-- How many hexadecimal digits follow a letter that announces them, and none otherwise. -/
def digitCount (c : Char) : Nat :=
  if c = 'x' then 2 else if c = 'u' then 4 else if c = 'U' then 8 else 0

/-- The character of that number, if there is one. -/
def charOfNat? (n : Nat) : Option Char := if n.isValidChar then some (Char.ofNat n) else none

/-- Reads a character written as so many hexadecimal digits. -/
def hexChar? (count : Nat) (s : Text) : Option Char :=
  if count ≤ s.length then (Digits.number? 16 (s.take count)).bind charOfNat? else none

/-- Reads what follows a backslash. -/
def escape? : (s : Text) → Option (Char × Text.Rest s)
  | [] => none
  | c :: s =>
    let digits := digitCount c
    if digits = 0 then (escaped? c).map fun d => (d, .tail c s)
    else (hexChar? digits s).map fun d => (d, .drop digits c s)

/-! ### Texts -/

/-- Reads a text on one line up to the `mark` that closes it. -/
def line? (mark : Char) (escapes : Bool) : (s : Text) → Option (Text × Text.Rest s)
  | [] => none
  | c :: s =>
    if c = mark then some ([], .tail c s)
    else if escapes ∧ c = '\\' then
      match escape? s with
      | none => none
      | some (d, rest) =>
        match line? mark escapes rest.val with
        | none => none
        | some (text, later) => some (d :: text, (rest.of later).ofTail)
    else if Text.isPlain c then
      match line? mark escapes s with
      | none => none
      | some (text, later) => some (c :: text, later.ofTail)
    else none
termination_by s => s.length
decreasing_by
  · have := rest.property; simp only [List.length_cons]; omega
  · simp

/-- Whether a backslash before this text stands at the end of its line. -/
def breaksLine (s : Text) : Bool := (s.dropWhile Text.isLineSpace).head?.any isBreak

/-- Reads a text over several lines up to the three marks that close it. One or two marks more
belong to the text. -/
def lines? (mark : Char) (escapes : Bool) : (s : Text) → Option (Text × Text.Rest s)
  | [] => none
  | c :: s =>
    if c = mark ∧ Text.beginsWith [mark, mark] s then
      let more := ((s.drop 2).take 2).takeWhile (· == mark)
      some (more, .drop (2 + more.length) c s)
    else if escapes ∧ c = '\\' ∧ breaksLine s then
      match lines? mark escapes (s.dropWhile isGap) with
      | none => none
      | some (text, later) => some (text, ⟨later.val, by
          have := later.property
          have := Text.length_dropWhile_le isGap s
          simp only [List.length_cons]; omega⟩)
    else if escapes ∧ c = '\\' then
      match escape? s with
      | none => none
      | some (d, rest) =>
        match lines? mark escapes rest.val with
        | none => none
        | some (text, later) => some (d :: text, (rest.of later).ofTail)
    else if Text.isPlain c ∨ isBreak c then
      match lines? mark escapes s with
      | none => none
      | some (text, later) => some (c :: text, later.ofTail)
    else none
termination_by s => s.length
decreasing_by
  · have := Text.length_dropWhile_le isGap s
    simp only [List.length_cons]; omega
  · have := rest.property; simp only [List.length_cons]; omega
  · simp

/-- The number of characters of the line break with which a text begins. -/
def breakLength : Text → Nat
  | '\n' :: _ => 1
  | '\r' :: '\n' :: _ => 2
  | _ => 0

/-- Whether a mark opens a text, and which one. -/
def isMark (c : Char) : Bool := c == '"' || c == '\''

/-- **Reads a quoted text**, its opening mark being `mark`. Escapes begin between quotation
marks only. -/
def quoted? (mark : Char) (s : Text) : Option (Text × Text.Rest (mark :: s)) :=
  let escapes := mark == '"'
  if Text.beginsWith [mark, mark] s then
    (lines? mark escapes (s.drop (2 + breakLength (s.drop 2)))).map fun (text, rest) =>
      (text, ⟨rest.val, by
        have := rest.property
        simp only [List.length_drop] at this
        simp only [List.length_cons]; omega⟩)
  else
    (line? mark escapes s).map fun (text, rest) => (text, rest.ofTail)

end Toml

end Settings

end ChainQuery
