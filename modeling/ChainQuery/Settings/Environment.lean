import ChainQuery.Settings.Value

/-!
# Settings in the environment

Settings can be given by the variables of the environment whose names begin with `EQL__`.
What follows is the way to a value, with two underscores in the place of a point, and the case
of a name does not matter.

The value of a variable is a text, but one that writes a truth value or a number is taken for
what it writes.
-/

namespace ChainQuery

namespace Settings

namespace Environment

/-- How the names of the variables begin, in lower case. -/
def opening : Text := "eql__".toList

/-- A text with points in the place of doubled underscores, found from left to right. -/
def pointed : Text → Text
  | '_' :: '_' :: s => '.' :: pointed s
  | c :: s => c :: pointed s
  | [] => []

/-- The key that the name of a variable writes. -/
def key? (name : Text) : Option Text :=
  (Text.dropOpening? opening (Text.lower name)).map pointed

/-- The integer of 64 bits that a text writes. -/
def integer? (s : Text) : Option Int :=
  let (negative, digits) := Digits.sign s
  ((Digits.decimal? digits).map (Digits.signed negative)).filter isWord

/-- A number with a point, a power of ten, or more digits than 64 bits can hold. Digits have to
stand on one side of the point at least. -/
def decimal? (negative : Bool) (s : Text) : Option Decimal := do
  let parts := Decimal.Parts.ofText s
  let fraction := parts.fraction.getD []
  let _ ← Digits.decimal? (parts.whole ++ fraction)
  let power ← match parts.exponent with
    | some exponent =>
      let (negative, digits) := Digits.sign exponent
      (Digits.decimal? digits).map (Digits.signed negative)
    | none => some 0
  some (.ofDigits negative parts.whole fraction power)

/-- The floating-point number that a text writes. -/
def float? (s : Text) : Option Binary64 :=
  let (negative, unsigned) := Digits.sign s
  let word := unsigned.map Char.toLower
  if word = "inf".toList ∨ word = "infinity".toList then some (.infinite negative)
  else if word = "nan".toList then some .nan
  else (decimal? negative unsigned).map Binary64.ofDecimal

/-- **What the value of a variable stands for.** -/
def value (s : Text) : Value :=
  if Text.lower s = "true".toList then .truth true
  else if Text.lower s = "false".toList then .truth false
  else
    (((integer? s).map Value.integer).or ((float? s).map Value.float)).getD (.text s)

/-- The entries that the variables of an environment make. -/
def entries (environment : List (Text × Text)) : List (Text × Value) :=
  environment.filterMap fun v => (key? v.1).map fun key => (key, value v.2)

end Environment

end Settings

end ChainQuery
