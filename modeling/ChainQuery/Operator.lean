import ChainQuery.Text.Basic

/-!
# Comparison operators

A filter compares a field with a value by one of six operators. All of them are spelled with
the four characters of `ChainQuery.Operator.isSign`, though not every run of such characters
spells an operator: `=>` does not.
-/

namespace ChainQuery

/-- The comparison a filter makes. -/
inductive Operator
  /-- Equal. -/
  | eq
  /-- Different. -/
  | ne
  /-- Greater. -/
  | gt
  /-- Greater or equal. -/
  | ge
  /-- Less. -/
  | lt
  /-- Less or equal. -/
  | le
  deriving DecidableEq, Repr

namespace Operator

/-- The two operators that need no order on the values. -/
def equality : List Operator := [eq, ne]

/-- The four operators that need one. -/
def comparison : List Operator := [gt, ge, lt, le]

/-- All operators, in the order in which they are listed to a user. -/
def all : List Operator := equality ++ comparison

/-- How an operator is written. -/
def text : Operator → Text
  | eq => "=".toList
  | ne => "!=".toList
  | gt => ">".toList
  | ge => ">=".toList
  | lt => "<".toList
  | le => "<=".toList

/-- The operator that is written so. -/
def ofText? (s : Text) : Option Operator := all.find? fun op => op.text == s

/-- The characters that operators are spelled with. -/
def isSign (c : Char) : Bool := c == '=' || c == '!' || c == '<' || c == '>'

theorem mem_all (op : Operator) : op ∈ all := by cases op <;> decide

@[simp] theorem ofText?_text (op : Operator) : ofText? op.text = some op := by
  cases op <;> decide

theorem text_injective {op op' : Operator} (h : op.text = op'.text) : op = op' :=
  Option.some.inj (by rw [← ofText?_text op, h, ofText?_text])

theorem text_of_ofText? {s : Text} {op : Operator} (h : ofText? s = some op) : op.text = s := by
  have := List.find?_some h
  simpa using this

theorem text_ne_nil (op : Operator) : op.text ≠ [] := by cases op <;> simp [text]

/-- An operator is spelled with signs alone. -/
theorem all_isSign_text (op : Operator) : op.text.all isSign = true := by cases op <;> decide

end Operator

end ChainQuery
