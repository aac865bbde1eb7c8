import ChainQuery.Json.Basic

/-!
# Writing JSON

`ChainQuery.Json.print` writes a value without any white space. In a string, quotation marks
and backslashes are escaped, and so are the control characters; every other character stands
for itself.
-/

namespace ChainQuery

namespace Json

/-- The digit of a number below sixteen. -/
def hexDigit (n : Nat) : Char := Char.ofNat (if n < 10 then 48 + n else 87 + n)

/-- A character within a string. -/
def printChar (c : Char) : Text :=
  if c = '"' then ['\\', '"']
  else if c = '\\' then ['\\', '\\']
  else if c = '\n' then ['\\', 'n']
  else if c = '\r' then ['\\', 'r']
  else if c = '\t' then ['\\', 't']
  else if c.toNat < 0x20 then
    "\\u00".toList ++ [hexDigit (c.toNat / 16), hexDigit (c.toNat % 16)]
  else [c]

/-- A string between its quotation marks. -/
def printString (s : Text) : Text := '"' :: s.flatMap printChar ++ ['"']

/-- A floating-point number. One that is whole has a point, too, or it would be read as an
integer. -/
def printFloat (x : Binary64.Finite) : Text :=
  let text := x.val.text
  if text.contains '.' then text else text ++ ".0".toList

mutual

/-- **The text of a value.** -/
def print : Json → Text
  | null => "null".toList
  | bool true => "true".toList
  | bool false => "false".toList
  | number n => Digits.ofInt n
  | float x => printFloat x
  | string s => printString s
  | array items => '[' :: printItems items ++ [']']
  | object members => '\x7b' :: printMembers members ++ ['\x7d']

/-- The items of an array with commas between them. -/
def printItems : List Json → Text
  | [] => []
  | [item] => print item
  | item :: rest => print item ++ ',' :: printItems rest

/-- The members of an object with commas between them. -/
def printMembers : List (Text × Json) → Text
  | [] => []
  | [(name, value)] => printString name ++ ':' :: print value
  | (name, value) :: rest => printString name ++ ':' :: print value ++ ',' :: printMembers rest

end

end Json

end ChainQuery
