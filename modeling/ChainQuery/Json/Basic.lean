import ChainQuery.Number.Binary64

/-!
# JSON values

The values that a service answers with, and that come back from where queries are executed.
There are two kinds of number. Those that are counted here – places in a text, ports – are
integers, of any size. But what comes back from elsewhere may also be a floating-point number,
which is neither infinite nor `NaN`, since such have no text in JSON; it is handed on as it is,
and is not the same value as an integer, even where it is as great.

An object is the list of its members in the order in which they are written. Looking for a
member of a value that is no object finds nothing, which is not an error
(`ChainQuery.Json.member?`).
-/

namespace ChainQuery

/-- A JSON value. -/
inductive Json
  /-- The value `null`. -/
  | null
  /-- A truth value. -/
  | bool (b : Bool)
  /-- An integer. -/
  | number (n : Int)
  /-- A number that is written with a point or an exponent. -/
  | float (x : Binary64.Finite)
  /-- A string. -/
  | string (s : Text)
  /-- An array. -/
  | array (items : List Json)
  /-- An object. -/
  | object (members : List (Text × Json))
  deriving Inhabited

namespace Json

/-- The member of an object with that name. -/
def member? (name : Text) : Json → Option Json
  | object members => (members.find? fun m => m.1 == name).map Prod.snd
  | _ => none

/-- The text of a string. -/
def string? : Json → Option Text
  | string s => some s
  | _ => none

/-- The first item of an array. -/
def firstItem? : Json → Option Json
  | array items => items.head?
  | _ => none

/-- Whether a value is `null`. -/
def isNull : Json → Bool
  | null => true
  | _ => false

/-- A text, or `null` in its place. -/
def ofText? (s : Option Text) : Json := (s.map string).getD null

/-- An array of texts. -/
def ofTexts (list : List Text) : Json := array (list.map string)

/-- A natural number. -/
def ofNat (n : Nat) : Json := number n

/-- An object whose members are named by string literals. -/
def ofMembers (members : List (String × Json)) : Json :=
  object (members.map fun m => (m.1.toList, m.2))

theorem member?_ofMembers (name : String) (members : List (String × Json)) :
    (ofMembers members).member? name.toList =
      (members.find? fun m => m.1 == name).map Prod.snd := by
  have hname : ((fun m : Text × Json => m.1 == name.toList) ∘
      fun m : String × Json => (m.1.toList, m.2)) = fun m => m.1 == name := by
    funext m
    rw [Function.comp_apply, Bool.eq_iff_iff, beq_iff_eq, beq_iff_eq, String.toList_inj]
  rw [ofMembers, member?, List.find?_map, hname, Option.map_map]
  rfl

end Json

end ChainQuery
