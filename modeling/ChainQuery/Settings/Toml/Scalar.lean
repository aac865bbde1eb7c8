import ChainQuery.Settings.Value
import ChainQuery.Text.Pieces

/-!
# TOML: values that are one word

Truth values, numbers and moments in time are written without quotation marks, and each is
recognised by its own grammar: no two of them overlap. Digits may be grouped by underscores,
one between two digits. A moment in time is kept as a text, in the one form in which it is
usually written.
-/

namespace ChainQuery

namespace Settings

namespace Toml

/-! ### Numbers -/

/-- Digits without the underscores that group them. -/
def ungroup? (isDigit : Char → Bool) (s : Text) : Option Text :=
  let groups := Text.pieces '_' s
  if groups.all fun group => !group.isEmpty && group.all isDigit then some groups.flatten
  else none

/-- Decimal digits that do not begin with a needless zero. -/
def wholeDigits? (s : Text) : Option Text :=
  (ungroup? Digits.isDecimal s).filter fun digits =>
    digits.length == 1 || digits.head? != some '0'

/-- A natural number in a base that is announced by a letter after a zero. -/
def basedNumber? (base : Nat) (s : Text) : Option Nat :=
  (ungroup? (fun c => (Digits.valueBelow? base c).isSome) s).bind (Digits.number? base)

/-- An integer of 64 bits. -/
def integer? (s : Text) : Option Int :=
  let n : Option Int :=
    match s with
    | '0' :: 'x' :: digits => (basedNumber? 16 digits).map (↑·)
    | '0' :: 'o' :: digits => (basedNumber? 8 digits).map (↑·)
    | '0' :: 'b' :: digits => (basedNumber? 2 digits).map (↑·)
    | s =>
      let (negative, digits) := Digits.sign s
      (wholeDigits? digits).map fun digits => Digits.signed negative (Digits.decimal digits)
  n.filter isWord

/-- A power of ten after its letter. -/
def exponent? (s : Text) : Option Int :=
  let (negative, digits) := Digits.sign s
  (ungroup? Digits.isDecimal digits).map fun digits =>
    Digits.signed negative (Digits.decimal digits)

/-- A number with a point or a power of ten. -/
def decimal? (negative : Bool) (s : Text) : Option Decimal := do
  let parts := Decimal.Parts.ofText s
  if parts.fraction.isNone && parts.exponent.isNone then none
  else
    let whole ← wholeDigits? parts.whole
    let fraction ← match parts.fraction with
      | some digits => ungroup? Digits.isDecimal digits
      | none => some []
    let power ← match parts.exponent with
      | some exponent => exponent? exponent
      | none => some 0
    some (.ofDigits negative whole fraction power)

/-- A floating-point number. One that is too great to be finite is not a number. -/
def float? (s : Text) : Option Binary64 :=
  let (negative, unsigned) := Digits.sign s
  if unsigned = "inf".toList then some (.infinite negative)
  else if unsigned = "nan".toList then some .nan
  else
    match (decimal? negative unsigned).map Binary64.ofDecimal with
    | some (.finite negative significand exponent) =>
      some (.finite negative significand exponent)
    | _ => none

/-! ### Moments in time -/

/-- Reads a number of exactly so many digits. -/
def fixed? (count : Nat) (s : Text) : Option (Nat × Text) :=
  let digits := s.take count
  if digits.length = count ∧ digits.all Digits.isDecimal then
    some (Digits.decimal digits, s.drop count)
  else none

/-- The number of days of a month. -/
def daysIn (year month : Nat) : Nat :=
  if month = 2 then
    if year % 4 = 0 ∧ (year % 100 ≠ 0 ∨ year % 400 = 0) then 29 else 28
  else if month ∈ [4, 6, 9, 11] then 30
  else 31

/-- Reads a date, and gives what follows it. -/
def afterDate? (s : Text) : Option Text := do
  let (year, s) ← fixed? 4 s
  let s ← Text.dropOpening? ['-'] s
  let (month, s) ← fixed? 2 s
  let s ← Text.dropOpening? ['-'] s
  let (day, s) ← fixed? 2 s
  if 1 ≤ month ∧ month ≤ 12 ∧ 1 ≤ day ∧ day ≤ daysIn year month then some s else none

/-- Reads hours and minutes, and gives what follows them. -/
def afterMinutes? (s : Text) : Option Text := do
  let (hour, s) ← fixed? 2 s
  let s ← Text.dropOpening? [':'] s
  let (minute, s) ← fixed? 2 s
  if hour ≤ 23 ∧ minute ≤ 59 then some s else none

/-- Parts of a second, to nine places, without the zeros at their end. The first place is kept
whatever it is. -/
def secondParts (digits : Text) : Text :=
  let kept := ((digits.take 9).reverse.dropWhile (· == '0')).reverse
  '.' :: if kept.isEmpty then ['0'] else kept

/-- Reads seconds and their parts: the usual form of the parts, and what follows. -/
def seconds? (s : Text) : Option (Text × Text) := do
  let (second, rest) ← fixed? 2 s
  if 60 < second then none
  else
    match rest with
    | '.' :: tail =>
      let digits := tail.takeWhile Digits.isDecimal
      if digits.isEmpty then none
      else some (secondParts digits, tail.dropWhile Digits.isDecimal)
    | rest => some ([], rest)

/-- Reads a time of day, in which the seconds may be missing: its usual form, and what follows
it. -/
def time? (s : Text) : Option (Text × Text) := do
  match ← afterMinutes? s with
  | ':' :: rest => (seconds? rest).map fun (parts, rest) => (s.take 8 ++ parts, rest)
  | rest => some (s.take 5, rest)

/-- The usual form of the distance of a time from the time at Greenwich. -/
def offset? (s : Text) : Option Text :=
  if s.isEmpty then some []
  else if s = ['Z'] ∨ s = ['z'] then some ['Z']
  else
    match s with
    | c :: distance =>
      if (c = '+' ∨ c = '-') ∧ afterMinutes? distance = some [] then
        some ((if distance = "00:00".toList then '+' else c) :: distance)
      else none
    | [] => none

/-- The usual form of a moment in time: a date, a time of day, or both with a letter or a
space between them, and then perhaps the distance from the time at Greenwich. -/
def moment? (s : Text) : Option Text :=
  match afterDate? s with
  | some [] => some s
  | some (c :: rest) =>
    if c = 'T' ∨ c = 't' ∨ c = ' ' then do
      let (time, rest) ← time? rest
      let offset ← offset? rest
      some (s.take 10 ++ 'T' :: time ++ offset)
    else none
  | none => ((time? s).filter fun read => read.2.isEmpty).map Prod.fst

/-! ### Words -/

/-- **The value that a word writes.** -/
def scalar? (word : Text) : Option Value :=
  if word = "true".toList then some (.truth true)
  else if word = "false".toList then some (.truth false)
  else
    ((integer? word).map Value.integer)
      |>.or ((float? word).map Value.float)
      |>.or ((moment? word).map Value.text)

end Toml

end Settings

end ChainQuery
