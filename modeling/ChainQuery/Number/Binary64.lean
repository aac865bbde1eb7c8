import ChainQuery.Number.Digits

/-!
# Floating-point numbers of 64 bits

A number with a point or an exponent is held in 64 bits: it is **rounded** to the nearest
number that has 53 binary digits, a half going to the even one, and written again in the
**fewest decimal digits that read back** as that number.

Both ways are exact arithmetic on natural numbers. A finite number is `significand · 2 ^
exponent`, and it stands for every number that is rounded to it: an interval that reaches
half-way to each of its neighbours, with its ends if the significand is even
(`ChainQuery.Binary64.low`, `ChainQuery.Binary64.high`). Writing tries one decimal grid after
the other, from the coarse to the fine, until a point of the grid lies in the interval; if two
do, the nearer is taken. On each grid only the two points on either side of the number need
to be tried.
-/

namespace ChainQuery

/-- A decimal number as it is written: some digits, and the power of ten by which they
count. -/
structure Decimal where
  /-- The number is below zero, or is a zero with a minus before it. -/
  negative : Bool
  /-- The digits. -/
  digits : Nat
  /-- The power of ten. -/
  power : Int
  deriving DecidableEq, Repr

/-- The parts of a decimal number as it is written, without its sign. -/
structure Decimal.Parts where
  /-- What precedes the point. -/
  whole : Text
  /-- What follows the point, if there is one. -/
  fraction : Option Text
  /-- What follows the letter that announces a power of ten, if there is one. -/
  exponent : Option Text

/-- What precedes the first character that passes a test, and what follows it. -/
def Decimal.cutAt (p : Char → Bool) (s : Text) : Text × Option Text :=
  match s.dropWhile (!p ·) with
  | [] => (s, none)
  | _ :: rest => (s.takeWhile (!p ·), some rest)

/-- Cuts a decimal number into its parts. -/
def Decimal.Parts.ofText (s : Text) : Decimal.Parts :=
  let (mantissa, exponent) := cutAt (fun c => c == 'e' || c == 'E') s
  let (whole, fraction) := cutAt (· == '.') mantissa
  ⟨whole, fraction, exponent⟩

/-- The number that digits before and after a point write, with a power of ten. -/
def Decimal.ofDigits (negative : Bool) (whole fraction : Text) (power : Int) : Decimal :=
  ⟨negative, Digits.decimal (whole ++ fraction), power - fraction.length⟩

/-- A floating-point number of 64 bits. -/
inductive Binary64
  /-- The number `significand · 2 ^ exponent`, below zero or not. -/
  | finite (negative : Bool) (significand : Nat) (exponent : Int)
  /-- Infinity, below zero or not. -/
  | infinite (negative : Bool)
  /-- What is no number. -/
  | nan
  deriving DecidableEq, Repr

namespace Binary64

/-- Whether a floating-point number is a number at all, and not infinite. -/
def isFinite : Binary64 → Bool
  | finite _ _ _ => true
  | infinite _ => false
  | nan => false

/-- The floating-point numbers that can be written in decimal digits. -/
abbrev Finite := { x : Binary64 // x.isFinite = true }

/-- The least exponent of a finite number. -/
def minExponent : Int := -1074

/-- Finite significands have at most 53 binary digits. -/
def significandBound : Nat := Nat.pow 2 53

/-- A quotient rounded to a natural number, a half to the even one. -/
def roundQuotient (numerator denominator : Nat) : Nat :=
  let below := numerator / denominator
  let left := 2 * (numerator % denominator)
  if denominator < left || (left == denominator && below % 2 == 1) then below + 1 else below

/-- The natural number nearest to `n` that has at most 53 binary digits before its zeros, a
half going to the even one. -/
def nearestNat (n : Nat) : Nat :=
  let unit := Nat.pow 2 (Nat.log2 n + 1 - 53)
  roundQuotient n unit * unit

/-- The natural numbers from here on are nearer to infinity than to any finite number. -/
def infinityBound : Nat := Nat.pow 2 1024 - Nat.pow 2 970

/-- A fraction multiplied by a power of a base, as a fraction. -/
def scale (base : Nat) (power : Int) (fraction : Nat × Nat) : Nat × Nat :=
  if 0 ≤ power then (fraction.1 * Nat.pow base power.toNat, fraction.2)
  else (fraction.1, fraction.2 * Nat.pow base (-power).toNat)

/-! ### Rounding -/

/-- The exponent of the greatest power of two that is not above a fraction. -/
def floorLog2 (fraction : Nat × Nat) : Int :=
  let guess : Int := (Nat.log2 fraction.1 : Int) - Nat.log2 fraction.2
  let (numerator, denominator) := scale 2 (-guess) fraction
  if numerator < denominator then guess - 1 else guess

/-- The floating-point number nearest to a fraction above zero. -/
def ofFraction (negative : Bool) (fraction : Nat × Nat) : Binary64 :=
  let exponent := max (floorLog2 fraction - 52) minExponent
  let (numerator, denominator) := scale 2 (-exponent) fraction
  let rounded := roundQuotient numerator denominator
  -- rounding may reach the next power of two
  let (significand, exponent) :=
    if rounded = significandBound then (Nat.pow 2 52, exponent + 1) else (rounded, exponent)
  if 971 < exponent then .infinite negative else .finite negative significand exponent

/-- The number of decimal digits of a natural number. -/
def digitCount (n : Nat) : Nat := (Nat.toDigits 10 n).length

/-- **The floating-point number nearest to a decimal one.** A power of ten that is out of all
proportion is not multiplied out. -/
def ofDecimal (d : Decimal) : Binary64 :=
  let magnitude := d.power + digitCount d.digits
  if d.digits = 0 || magnitude < -400 then .finite d.negative 0 minExponent
  else if 400 < magnitude then .infinite d.negative
  else ofFraction d.negative (scale 10 d.power (d.digits, 1))

/-! ### Writing -/

/-- Four times the least number that is rounded to `significand · 2 ^ exponent`, in units of
`2 ^ exponent`. Below a power of two numbers lie twice as close. -/
def low (significand : Nat) (exponent : Int) : Nat :=
  if significand = Nat.pow 2 52 ∧ minExponent < exponent then 4 * significand - 1
  else 4 * significand - 2

/-- Four times the greatest number that is rounded so, in the same units. -/
def high (significand : Nat) : Nat := 4 * significand + 2

/-- The multiple of `10 ^ power` that reads back as `significand · 2 ^ exponent`, if there is
one. Of two the nearer is taken, and the greater if the number lies half-way between them. -/
def onGrid? (significand : Nat) (exponent power : Int) : Option Nat :=
  let (unit, grid) := scale 10 (-power) (scale 2 (exponent - 2) (1, 1))
  let value := 4 * significand * unit
  let below := value / grid
  let reads (candidate : Nat) : Bool :=
    let place := candidate * grid
    let least := low significand exponent * unit
    let greatest := high significand * unit
    if significand % 2 = 0 then least ≤ place && place ≤ greatest
    else least < place && place < greatest
  match reads below, reads (below + 1) with
  | true, true =>
    if value - below * grid < (below + 1) * grid - value then some below else some (below + 1)
  | true, false => some below
  | false, true => some (below + 1)
  | false, false => none

/-- **The fewest digits that read back** as `significand · 2 ^ exponent`, and their power of
ten. -/
def shortest (significand : Nat) (exponent : Int) : Nat × Int :=
  ((List.range 660).findSome? fun (i : Nat) =>
    let power : Int := 310 - (i : Int)
    (onGrid? significand exponent power).map fun digits => (digits, power)).getD (0, 0)

/-- Digits with a power of ten, written without one: with zeros after the digits, or with a
point among them and zeros before. -/
def positional (digits : Nat) (power : Int) : Text :=
  let text := Nat.toDigits 10 digits
  if 0 ≤ power then text ++ List.replicate power.toNat '0'
  else
    let places := (-power).toNat
    let padded := List.replicate (places + 1 - text.length) '0' ++ text
    let whole := padded.length - places
    padded.take whole ++ '.' :: padded.drop whole

/-- **The text of a floating-point number**: never with an exponent, and with a point only if
the number is not whole. -/
def text : Binary64 → Text
  | nan => "NaN".toList
  | infinite negative => (if negative then ['-'] else []) ++ "inf".toList
  | finite negative significand exponent =>
    (if negative then ['-'] else []) ++
      if significand = 0 then ['0']
      else
        let (digits, power) := shortest significand exponent
        positional digits power

/-! ### Whole numbers -/

/-- The natural number nearest to a floating-point number, a half going up, if there is one
of at most 64 bits. Anything below zero counts as zero, and so does what is no number. -/
def toNat? : Binary64 → Option Nat
  | nan => some 0
  | infinite negative => if negative then some 0 else none
  | finite negative significand exponent =>
    if negative then some 0
    else
      let (numerator, denominator) := scale 2 exponent (significand, 1)
      let nearest := (2 * numerator + denominator) / (2 * denominator)
      if nearest < 0x10000000000000000 then some nearest else none

end Binary64

end ChainQuery
