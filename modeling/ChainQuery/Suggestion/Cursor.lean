import ChainQuery.Text.Lowercase
import ChainQuery.Text.Pieces

/-!
# What stands before the cursor

Suggestions are made for the end of a text, where the cursor is taken to be. What counts
there is a **word** in the plainest sense: a piece of the text between two spaces – not any
other white space – with whatever commas and signs are in it. The piece after the last space
is the `ChainQuery.Cursor.fragment`, the word that is being typed; it is empty right after a
space.
-/

namespace ChainQuery

namespace Cursor

/-- The word that is being typed. -/
def fragment (raw : Text) : Text := (Text.pieces ' ' raw).getLastD []

/-- The last word of a text, whether or not it is finished. -/
def lastWord (raw : Text) : Text := (Text.pieces ' ' (Text.trim raw)).getLastD []

/-- The word before the one that is being typed, unless it is the first word of all. -/
def previousWord? (raw : Text) : Option Text :=
  match (Text.pieces ' ' raw).reverse with
  | _ :: word :: _ :: _ => some word
  | _ => none

/-- The text ends in a space. -/
def atSpace (raw : Text) : Bool := Text.lastIs (· == ' ') raw

/-- The text ends in a comma and a space. -/
def atCommaSpace (raw : Text) : Bool := Text.endsIn ", ".toList raw

/-- The text ends in a space that does not follow a comma: a list, if it ends one, is
finished. -/
def atPause (raw : Text) : Bool := atSpace raw && !atCommaSpace raw

/-- The word that is being typed can become this one, in capitals or not. -/
def mayBecome (raw word : Text) : Bool :=
  Text.beginsWith (Text.lower (fragment raw)) (Text.lower word)

end Cursor

end ChainQuery
