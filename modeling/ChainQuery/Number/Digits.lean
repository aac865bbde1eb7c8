import ChainQuery.Text.Basic

/-!
# Digits

Natural numbers as they are written, in any base up to sixteen.
-/

namespace ChainQuery

namespace Digits

/-- Whether a character is a decimal digit. -/
def isDecimal (c : Char) : Bool := c.isDigit

/-- The value of a digit, of which those above nine are letters, in capitals or not. -/
def value? (c : Char) : Option Nat :=
  if '0' ≤ c ∧ c ≤ '9' then some (c.toNat - 48)
  else if 'a' ≤ c ∧ c ≤ 'f' then some (c.toNat - 87)
  else if 'A' ≤ c ∧ c ≤ 'F' then some (c.toNat - 55)
  else none

/-- The value of a digit below the base. -/
def valueBelow? (base : Nat) (c : Char) : Option Nat := (value? c).filter (· < base)

/-- The number that some digits write; no digits write zero. -/
def number? (base : Nat) (digits : Text) : Option Nat :=
  digits.foldlM (fun n c => (valueBelow? base c).map (base * n + ·)) 0

/-- The number that some decimal digits write, of which there has to be one. -/
def decimal? (digits : Text) : Option Nat :=
  if digits.isEmpty then none else number? 10 digits

/-- The number that some decimal digits write, where it is known that they are digits. -/
def decimal (digits : Text) : Nat := (decimal? digits).getD 0

/-- A sign at the beginning of a text: whether it is a minus, and what follows it. -/
def sign : Text → Bool × Text
  | '-' :: s => (true, s)
  | '+' :: s => (false, s)
  | s => (false, s)

/-- A number with a sign. -/
def signed (negative : Bool) (n : Nat) : Int := if negative then -(n : Int) else n

/-- The decimal digits of an integer, with a minus before them if it is below zero. -/
def ofInt (n : Int) : Text := (if n < 0 then ['-'] else []) ++ Nat.toDigits 10 n.natAbs

end Digits

end ChainQuery
