import ChainQuery.Json.Lexical

/-!
# Passing over a value

A value that nobody asked for is passed over: it has to be **well written**, to its end, but
is not looked at. Only the brackets that are open have to be remembered, and what may come
next, so a value may be nested as deeply as one likes.
-/

namespace ChainQuery

namespace Json

/-- A bracket that is open. -/
inductive Bracket
  /-- The bracket of an array. -/
  | array
  /-- The brace of an object. -/
  | object

/-- The character that closes a bracket. -/
def Bracket.closing : Bracket → Char
  | array => ']'
  | object => '\x7d'

/-- What may come next while a value is passed over. -/
inductive Awaited
  /-- A value. -/
  | value
  /-- The first item of an array, or its end. -/
  | item
  /-- The first name in an object, or its end. -/
  | member
  /-- A name. -/
  | name
  /-- The colon after a name. -/
  | colon
  /-- A comma, or the end of what is open. -/
  | more

/-- Passes over a value without parts: a word, a string or a number. -/
def skipScalar? (c : Char) (s : Text) : Option (Text.Rest (c :: s)) :=
  if c = '"' then (stringPieces? s).map fun read => read.2.ofTail
  else if Digits.isDecimal c || c == '-' then (numeral? c s).map Prod.snd
  else anyWord? c s

/-- Begins a value when the brackets `opened` are open. -/
def beginValue? (opened : List Bracket) (c : Char) (s : Text) :
    Option (Awaited × List Bracket × Text.Rest (c :: s)) :=
  if c = '[' then some (.item, .array :: opened, .tail c s)
  else if c = '\x7b' then some (.member, .object :: opened, .tail c s)
  else (skipScalar? c s).map fun rest => (.more, opened, rest)

/-- Passes over a name. -/
def skipName? (opened : List Bracket) (c : Char) (s : Text) :
    Option (Awaited × List Bracket × Text.Rest (c :: s)) :=
  if c = '"' then (stringPieces? s).map fun read => (.colon, opened, read.2.ofTail) else none

/-- Passes over the next part of a value that begins with `c`, when the brackets `opened` are
open, the innermost one first: what may come next then, and what is open then. -/
def skipPart? (awaited : Awaited) (opened : List Bracket) (c : Char) (s : Text) :
    Option (Awaited × List Bracket × Text.Rest (c :: s)) :=
  match awaited, opened with
  | .value, opened => beginValue? opened c s
  | .item, opened =>
    if c = ']' then some (.more, opened.tail, .tail c s) else beginValue? opened c s
  | .name, opened => skipName? opened c s
  | .member, opened =>
    if c = '\x7d' then some (.more, opened.tail, .tail c s) else skipName? opened c s
  | .colon, opened => if c = ':' then some (.value, opened, .tail c s) else none
  | .more, [] => none
  | .more, bracket :: outer =>
    if c = bracket.closing then some (.more, outer, .tail c s)
    else if c = ',' then
      match bracket with
      | .array => some (.value, bracket :: outer, .tail c s)
      | .object => some (.name, bracket :: outer, .tail c s)
    else none

/-- Passes over what is left of a value. When something more may come but nothing is open, the
value is at its end. -/
def skipFrom (awaited : Awaited) (opened : List Bracket) (s : Text) : Option Text :=
  match awaited, opened with
  | .more, [] => some s
  | awaited, opened =>
    match _h : skipSpace s with
    | [] => none
    | c :: t =>
      match skipPart? awaited opened c t with
      | none => none
      | some (next, open', rest) => skipFrom next open' rest.val
termination_by s.length
decreasing_by
  have hs := length_skipSpace_le s
  have hr := rest.property
  rw [_h] at hs
  omega

/-- Passes over a value, and gives what follows it. -/
def skipValue? (s : Text) : Option Text := skipFrom .value [] s

end Json

end ChainQuery
