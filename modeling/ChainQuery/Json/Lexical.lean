import ChainQuery.Number.Binary64

/-!
# The smallest parts of a JSON text

Words (`null`, `true`, `false`), strings and numbers, as they are *written*. What a string or
a number means is a second question, and one that is not always asked: a value that nobody
looks at has to be well written, but need not mean anything. A string may then name half of
a surrogate pair, and a number may be of any size; `ChainQuery.Json.decode?` and
`ChainQuery.Json.Numeral.isRepresentable` are asked where the value counts.
-/

namespace ChainQuery

namespace Json

/-! ### White space and words -/

/-- The four characters that may stand between the parts of a JSON text. -/
def isSpace (c : Char) : Bool := c == ' ' || c == '\n' || c == '\t' || c == '\r'

/-- The text after the spaces it begins with. -/
def skipSpace (s : Text) : Text := s.dropWhile isSpace

theorem length_skipSpace_le (s : Text) : (skipSpace s).length ≤ s.length :=
  Text.length_dropWhile_le isSpace s

/-- Reads a word, the first character of which is already known to stand there. -/
def word? (word : Text) (c : Char) (s : Text) : Option (Text.Rest (c :: s)) :=
  match Text.dropOpening? word (c :: s) with
  | some rest => if h : rest.length < (c :: s).length then some ⟨rest, h⟩ else none
  | none => none

/-- Reads `null`, `true` or `false`. -/
def anyWord? (c : Char) (s : Text) : Option (Text.Rest (c :: s)) :=
  (word? "null".toList c s).or ((word? "true".toList c s).or (word? "false".toList c s))

/-! ### Strings -/

/-- A piece of a written string: a character, or a unit of sixteen bits written in
hexadecimal digits. -/
inductive Piece
  /-- A character that stands for itself, or for which an escape stands. -/
  | char (c : Char)
  /-- A unit of sixteen bits. -/
  | unit (n : Nat)

/-- The character for which a character after a backslash stands. -/
def escaped? (c : Char) : Option Char :=
  if c = '"' ∨ c = '\\' ∨ c = '/' then some c
  else if c = 'b' then some '\x08'
  else if c = 'f' then some '\x0c'
  else if c = 'n' then some '\n'
  else if c = 'r' then some '\r'
  else if c = 't' then some '\t'
  else none

/-- Reads what follows a backslash. -/
def escape? : (s : Text) → Option (Piece × Text.Rest s)
  | [] => none
  | c :: s =>
    if c = 'u' then
      if 4 ≤ s.length then
        (Digits.number? 16 (s.take 4)).map fun n => (.unit n, .drop 4 c s)
      else none
    else (escaped? c).map fun d => (.char d, .tail c s)

/-- Reads the pieces of a string up to the quotation mark that closes it. A control character
has to be escaped. -/
def stringPieces? : (s : Text) → Option (List Piece × Text.Rest s)
  | [] => none
  | c :: s =>
    if c = '"' then some ([], .tail c s)
    else if c = '\\' then
      match escape? s with
      | none => none
      | some (piece, rest) =>
        match stringPieces? rest.val with
        | none => none
        | some (pieces, later) => some (piece :: pieces, (rest.of later).ofTail)
    else if c.toNat < 0x20 then none
    else
      match stringPieces? s with
      | none => none
      | some (pieces, later) => some (.char c :: pieces, later.ofTail)
termination_by s => s.length
decreasing_by
  · have := rest.property; simp only [List.length_cons]; omega
  · simp

/-- The first unit of a surrogate pair. -/
def isHighSurrogate (n : Nat) : Bool := 0xD800 ≤ n && n < 0xDC00

/-- The second unit of a surrogate pair. -/
def isLowSurrogate (n : Nat) : Bool := 0xDC00 ≤ n && n < 0xE000

/-- The text that some pieces make: units of a pair have to stand side by side. -/
def decode? : List Piece → Option Text
  | [] => some []
  | .char c :: rest => (decode? rest).map (c :: ·)
  | .unit n :: rest =>
    if isHighSurrogate n then
      match rest with
      | .unit m :: later =>
        if isLowSurrogate m then
          (decode? later).map
            (Char.ofNat (0x10000 + (n - 0xD800) * 0x400 + (m - 0xDC00)) :: ·)
        else none
      | _ => none
    else if isLowSurrogate n then none
    else (decode? rest).map (Char.ofNat n :: ·)

/-! ### Numbers -/

/-- A number as it is written, without its sign. -/
structure Numeral where
  /-- The digits before the point. -/
  whole : Text
  /-- The digits after the point. -/
  fraction : Text
  /-- The power of ten. -/
  exponent : Int

/-- Reads the digits before the point: a zero stands alone. -/
def whole? : (s : Text) → Option (Text × Text.Rest s)
  | [] => none
  | c :: s =>
    if c = '0' then
      if (s.head?.any Digits.isDecimal) then none else some ([c], .tail c s)
    else if Digits.isDecimal c then
      some (c :: s.takeWhile Digits.isDecimal, .dropWhile Digits.isDecimal c s)
    else none

/-- Reads a point and the digits after it, if a point is there. -/
def fraction? (s : Text) : Option (Text × Text) :=
  match s with
  | '.' :: s =>
    match s.takeWhile Digits.isDecimal with
    | [] => none
    | digits => some (digits, s.dropWhile Digits.isDecimal)
  | s => some ([], s)

/-- Reads an exponent, if one is there. -/
def exponent? (s : Text) : Option (Int × Text) :=
  match s with
  | c :: tail =>
    if c = 'e' ∨ c = 'E' then
      let (negative, s) := Digits.sign tail
      match s.takeWhile Digits.isDecimal with
      | [] => none
      | digits =>
        some (Digits.signed negative (Digits.decimal digits), s.dropWhile Digits.isDecimal)
    else some (0, s)
  | [] => some (0, [])

/-- Reads a number, its sign included. -/
def numeral? (c : Char) (s : Text) : Option (Numeral × Text.Rest (c :: s)) := do
  let (whole, rest) ← whole? (if c = '-' then s else c :: s)
  let (fraction, rest) ← fraction? rest.val
  let (exponent, rest) ← exponent? rest
  if h : rest.length < (c :: s).length then
    some (⟨whole, fraction, exponent⟩, ⟨rest, h⟩)
  else none

namespace Numeral

/-- The greatest number of 64 bits. -/
def wordLimit : Nat := 0xFFFFFFFFFFFFFFFF

/-- What is kept of a number: as many of its digits as 64 bits can hold, and a power of
ten. -/
structure Kept where
  /-- The digits that are kept. -/
  digits : Nat
  /-- The power of ten by which they count. -/
  power : Int
  /-- A digit has been left out. -/
  full : Bool

/-- Keeps a digit before the point, or counts a power of ten in its place. -/
def Kept.whole (kept : Kept) (c : Char) : Kept :=
  let next := 10 * kept.digits + Digits.decimal [c]
  if kept.full || wordLimit < next then { kept with power := kept.power + 1, full := true }
  else { kept with digits := next }

/-- Keeps a digit after the point, or leaves it out. -/
def Kept.fraction (kept : Kept) (c : Char) : Kept :=
  let next := 10 * kept.digits + Digits.decimal [c]
  if kept.full || wordLimit < next then { kept with full := true }
  else { kept with digits := next, power := kept.power - 1 }

/-- What is kept of a number. -/
def kept (n : Numeral) : Kept :=
  let whole := n.whole.foldl Kept.whole ⟨0, n.exponent, false⟩
  n.fraction.foldl Kept.fraction { whole with full := false }

/-- **A number is representable** unless it is too great for a floating-point number: what is
kept of it is rounded, so is the power of ten, and their product must not reach infinity. -/
def isRepresentable (n : Numeral) : Bool :=
  let kept := n.kept
  kept.digits == 0 || kept.power < 0 ||
    (kept.power ≤ 308 &&
      Binary64.nearestNat kept.digits * Binary64.nearestNat (Nat.pow 10 kept.power.toNat) <
        Binary64.infinityBound)

end Numeral

end Json

end ChainQuery
