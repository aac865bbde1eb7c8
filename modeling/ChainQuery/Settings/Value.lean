import ChainQuery.Number.Binary64
import ChainQuery.Text.Lowercase

/-!
# Values of settings

Settings come in layers, and every layer is a tree of values: tables of named values, lists,
and texts, numbers and truth values at the leaves. A layer that comes later is **merged** into
what the earlier ones have set, entry by entry: tables grow together, and anything else takes
the place of what was there.

A place in the tree is named by a `ChainQuery.Settings.Path`, and comes into being when
something is put there – along with every table and list on the way to it, whatever stood in
their places.

The same value can be asked for as a text or as a number, and what can be understood as one is
taken for one: `5` is a text if a text is needed, and `"80"` a number.
-/

namespace ChainQuery

namespace Settings

/-- A value of the settings. -/
inductive Value
  /-- A place in a list in which nothing has been put. -/
  | nothing
  /-- A text. -/
  | text (s : Text)
  /-- A whole number. -/
  | integer (n : Int)
  /-- A floating-point number. -/
  | float (x : Binary64)
  /-- A truth value. -/
  | truth (b : Bool)
  /-- A list. -/
  | list (items : List Value)
  /-- A table. -/
  | table (entries : List (Text × Value))
  deriving Inhabited

/-- One step of a path. -/
inductive Step
  /-- To the entry of a table. -/
  | entry (name : Text)
  /-- To an item of a list, counted from its end if the number is negative. -/
  | item (index : Int)
  deriving DecidableEq, Repr

/-- The way to a place in a tree of values. -/
abbrev Path := List Step

/-! ### Paths -/

/-- The characters of the names in a path. -/
def isNameChar (c : Char) : Bool := c.isAlphanum || c == '_' || c == '-'

/-- The integers of 64 bits. -/
def isWord (n : Int) : Bool := -0x8000000000000000 ≤ n && n < 0x8000000000000000

/-- An index as it is written between brackets: an integer of 64 bits in decimal digits, with
nothing between a minus and its digits and with white space at both ends. -/
def indexOfText? (s : Text) : Option Int :=
  let (negative, s) :=
    match s.dropWhile Text.isLineSpace with
    | '-' :: s => (true, s)
    | s => (false, s)
  if (s.dropWhile Digits.isDecimal).all Text.isLineSpace then
    ((Digits.decimal? (s.takeWhile Digits.isDecimal)).map (Digits.signed negative)).filter isWord
  else none

/-- Reads the steps of a path after its first name: names after points, and indices between
brackets. -/
def stepsOfText? (s : Text) : Option Path :=
  match s with
  | [] => some []
  | c :: s =>
    if c = '.' then
      let name := s.takeWhile isNameChar
      if name.isEmpty then none
      else (stepsOfText? (s.dropWhile isNameChar)).map (.entry name :: ·)
    else if c = '[' then
      match _h : s.dropWhile (· != ']') with
      | [] => none
      | _ :: rest =>
        match indexOfText? (s.takeWhile (· != ']')) with
        | some index => (stepsOfText? rest).map (.item index :: ·)
        | none => none
    else none
termination_by s.length
decreasing_by
  · have := Text.length_dropWhile_le isNameChar s
    simp only [List.length_cons]; omega
  · have := Text.length_dropWhile_le (· != ']') s
    rw [_h] at this
    simp only [List.length_cons] at *; omega

/-- The path that a key writes. -/
def pathOfText? (s : Text) : Option Path :=
  let name := s.takeWhile isNameChar
  if name.isEmpty then none
  else (stepsOfText? (s.dropWhile isNameChar)).map (.entry name :: ·)

namespace Value

/-! ### Changing a tree -/

/-- The entries of a table; any other value has none. -/
def entries : Value → List (Text × Value)
  | table entries => entries
  | _ => []

/-- The items of a list; any other value has none. -/
def items : Value → List Value
  | list items => items
  | _ => []

/-- The value of an entry. -/
def lookup? (name : Text) (v : Value) : Option Value :=
  (v.entries.find? fun e => e.1 == name).map Prod.snd

/-- Entries with one of them changed, or added at the end if it is not there. -/
def changeEntry (name : Text) (change : Value → Value) :
    List (Text × Value) → List (Text × Value)
  | [] => [(name, change nothing)]
  | (other, v) :: rest =>
    if other = name then (name, change v) :: rest
    else (other, v) :: changeEntry name change rest

/-- Items with one of them changed, and as many added as are needed for it to be there. An
index from the end that reaches beyond the beginning adds them before the first. -/
def changeItem (index : Int) (change : Value → Value) (items : List Value) : List Value :=
  let place := if 0 ≤ index then index else index + items.length
  let items := List.replicate (-place).toNat nothing ++ items
  let place := place.toNat
  let items := items ++ List.replicate (place + 1 - items.length) nothing
  items.modify place change

/-- A tree with the value at a place changed. -/
def change (f : Value → Value) : Path → Value → Value
  | [], v => f v
  | .entry name :: path, v => table (changeEntry name (change f path) v.entries)
  | .item index :: path, v => list (changeItem index (change f path) v.items)

mutual

/-- **What a value becomes when another is merged into it.** When a table is, it becomes a
table, be that one empty or not. -/
def merge : (incoming : Value) → Value → Value
  | table incoming, v => mergeEntries incoming (table v.entries)
  | nothing, _ => nothing
  | text s, _ => text s
  | integer n, _ => integer n
  | float x, _ => float x
  | truth b, _ => truth b
  | list items, _ => list items

/-- What a value becomes when some entries are merged into it, one after the other. -/
def mergeEntries : (incoming : List (Text × Value)) → Value → Value
  | [], v => v
  | (name, x) :: rest, v =>
    mergeEntries rest (table (changeEntry name (merge x) v.entries))

end

/-- A tree with a value merged into it at the place that a key names. A key that is no path
names an entry of its own. -/
def put (tree : Value) (key : Text) (value : Value) : Value :=
  change (merge value) ((pathOfText? key).getD [.entry key]) tree

/-! ### Understanding a value -/

/-- The values that fill in a record: the entries of these names in a table, or the first
items of a list. -/
def record? (names : List Text) : Value → Option (List Value)
  | table entries => names.mapM fun name => (table entries).lookup? name
  | list items => if names.length ≤ items.length then some (items.take names.length) else none
  | _ => none

/-- A truth value as a word. -/
def truthText (b : Bool) : Text := if b then "true".toList else "false".toList

/-- A value as a text. -/
def text? : Value → Option Text
  | text s => some s
  | integer n => some (Digits.ofInt n)
  | float x => some x.text
  | truth b => some (truthText b)
  | nothing => none
  | list _ => none
  | table _ => none

/-- The words that stand for one and for zero. -/
def wordNumber? (s : Text) : Option Nat :=
  if s ∈ ["true".toList, "on".toList, "yes".toList] then some 1
  else if s ∈ ["false".toList, "off".toList, "no".toList] then some 0
  else none

/-- The natural number that a text writes, with a plus before it or not. -/
def naturalOfText? (s : Text) : Option Nat :=
  match s with
  | '+' :: digits => Digits.decimal? digits
  | digits => Digits.decimal? digits

/-- A value as a natural number. -/
def natural? : Value → Option Nat
  | text s => (wordNumber? (Text.lower s)).or (naturalOfText? s)
  | integer n => if 0 ≤ n then some n.toNat else none
  | float x => x.toNat?
  | truth b => some (if b then 1 else 0)
  | nothing => none
  | list _ => none
  | table _ => none

end Value

end Settings

end ChainQuery
