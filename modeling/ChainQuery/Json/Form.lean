import ChainQuery.Json.Basic
import ChainQuery.Json.Skip

/-!
# Forms

A **form** says which members a request is made of: each of its slots has a name and holds a
text or a truth value. A form is filled in by an object, whose members may come in any
order and among others, or by an array, in which the slots follow each other in their order.

A text is read from left to right, and reading ends with the **first** thing that is wrong
with it. There are two ways to be wrong: the text may not be JSON, or it may be JSON but not
fit the form. What stands after the value that fills the form in is not read at all. The
difference is not one of severity but of what is met first – an object that repeats a slot
and is never closed does not fit, since the repetition comes before the end.
-/

namespace ChainQuery

namespace Json

/-- What is wrong with a text that was to fill in a form. -/
inductive Refusal
  /-- The text is not JSON. -/
  | malformed
  /-- The text is JSON so far, and does not fit the form. -/
  | unfit
  deriving DecidableEq, Repr

/-- What a slot holds. -/
inductive Slot.Kind
  /-- A text. -/
  | text
  /-- A truth value. -/
  | flag
  deriving DecidableEq, Repr

/-- A slot of a form. -/
structure Slot where
  /-- The name of the slot. -/
  name : Text
  /-- What the slot holds. -/
  kind : Slot.Kind
  /-- Whether the slot may be left open. -/
  optional : Bool
  deriving DecidableEq, Repr

/-- The slots that have been filled in, by name. -/
abbrev Entries := List (Text × Json)

/-- The value in the slot of that name. -/
def Entries.value? (entries : Entries) (name : Text) : Option Json :=
  (entries.find? fun entry => entry.1 == name).map Prod.snd

/-- Reads a string that counts, behind its opening quotation mark. -/
def text? (s : Text) : Option (Text × Text.Rest s) := do
  let (pieces, rest) ← stringPieces? s
  let text ← decode? pieces
  some (text, rest)

/-! ### Values that do not fit -/

/-- What is wrong with a value that is not of the kind that a slot holds. An array or an object
does not fit, whatever is in it; any other value has to be read first. -/
def refusalOf (c : Char) (s : Text) : Refusal :=
  if c = '[' ∨ c = '\x7b' then .unfit
  else
    let wellWritten :=
      if c = '"' then (text? s).isSome
      else if Digits.isDecimal c || c == '-' then
        (numeral? c s).any fun read => read.1.isRepresentable
      else (anyWord? c s).isSome
    if wellWritten then .unfit else .malformed

/-! ### Slots -/

/-- Reads what a slot holds. -/
def Slot.read (slot : Slot) (c : Char) (s : Text) :
    Except Refusal (Json × Text.Rest (c :: s)) :=
  match slot.kind with
  | .text =>
    if c = '"' then
      match text? s with
      | some (text, rest) => .ok (.string text, rest.ofTail)
      | none => .error .malformed
    else .error (refusalOf c s)
  | .flag =>
    match word? "true".toList c s, word? "false".toList c s with
    | some rest, _ => .ok (.bool true, rest)
    | none, some rest => .ok (.bool false, rest)
    | none, none => .error (refusalOf c s)

/-! ### Objects -/

/-- Reads the value of the member `name`: what the slot of that name holds, or anything at
all if there is no such slot. A slot that has been filled in cannot be filled in again. -/
def readMember (form : List Slot) (entries : Entries) (name s : Text) :
    Except Refusal (Entries × Text) :=
  match form.find? fun slot => slot.name == name with
  | none =>
    match skipSpace s with
    | ':' :: s =>
      match skipValue? s with
      | some rest => .ok (entries, rest)
      | none => .error .malformed
    | _ => .error .malformed
  | some slot =>
    if (entries.value? name).isSome then .error .unfit
    else
      match skipSpace s with
      | ':' :: s =>
        match skipSpace s with
        | c :: s =>
          match slot.read c s with
          | .ok (value, rest) => .ok (entries ++ [(name, value)], rest.val)
          | .error refusal => .error refusal
        | [] => .error .malformed
      | _ => .error .malformed

/-- Reads the members of an object that come after those in `entries`, the first of them
without a comma before it. A member always takes up some of the text, and comparing lengths
makes that visible. -/
def readMembers (form : List Slot) (entries : Entries) (first : Bool) (s : Text) :
    Except Refusal Entries :=
  match _h : skipSpace s with
  | [] => .error .malformed
  | c :: t =>
    if c = '\x7d' then .ok entries
    else if first ∨ c = ',' then
      match _h' : (if first then c :: t else skipSpace t) with
      | '"' :: u =>
        match text? u with
        | some (name, rest) =>
          match readMember form entries name rest.val with
          | .ok (entries, later) =>
            if later.length < s.length then readMembers form entries false later
            else .error .malformed
          | .error refusal => .error refusal
        | none => .error .malformed
      | _ => .error .malformed
    else .error .malformed
termination_by s.length

/-! ### Arrays -/

/-- Reads the items of an array into the slots of a form, the first of them without a comma
before it. An array that ends early leaves the remaining slots open. -/
def readItems (entries : Entries) (first : Bool) (s : Text) :
    List Slot → Except Refusal (Entries × Text)
  | [] => .ok (entries, s)
  | slot :: form =>
    match skipSpace s with
    | [] => .error .malformed
    | c :: t =>
      if c = ']' then .ok (entries, s)
      else if first ∨ c = ',' then
        match (if first then c :: t else skipSpace t) with
        | [] => .error .malformed
        | d :: u =>
          match slot.read d u with
          | .ok (value, rest) => readItems (entries ++ [(slot.name, value)]) false rest.val form
          | .error refusal => .error refusal
      else .error .malformed

/-! ### Forms -/

/-- Whether every slot that must be filled in is. -/
def isFilledIn (form : List Slot) (entries : Entries) : Bool :=
  form.all fun slot => slot.optional || (entries.value? slot.name).isSome

/-- **Fills in a form from a text.** -/
def fillIn (form : List Slot) (s : Text) : Except Refusal Entries :=
  match skipSpace s with
  | [] => .error .malformed
  | c :: s =>
    if c = '\x7b' then
      match readMembers form [] true s with
      | .ok entries => if isFilledIn form entries then .ok entries else .error .unfit
      | .error refusal => .error refusal
    else if c = '[' then
      match readItems [] true s form with
      | .ok (entries, rest) =>
        if !isFilledIn form entries then .error .unfit
        else
          match skipSpace rest with
          | ']' :: _ => .ok entries
          | _ => .error .malformed
      | .error refusal => .error refusal
    else .error (refusalOf c s)

end Json

end ChainQuery
