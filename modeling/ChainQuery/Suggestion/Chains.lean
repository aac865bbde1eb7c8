import ChainQuery.Suggestion.Basic
import ChainQuery.Suggestion.Cursor

/-!
# Suggesting chains and files

After `ON`, chains are suggested that are not yet in the list, and behind a finished list the
clause that dumps the answer. After `>>` the endings of files are.
-/

namespace ChainQuery

namespace Suggestion

/-- Nothing is suggested right after a comma, or behind the name of a chain. -/
def chainsSettled (raw : Text) : Bool :=
  Text.lastIs (· == ',') raw || chains.contains (Cursor.lastWord raw)

/-- The chains that the word being typed begins and that are not in the list. The wildcard is
offered in the place of a list only, and not within one. -/
def unusedChains (typed : List Text) (raw : Text) : List Text :=
  (namedChains.filter (Text.beginsWith (Cursor.fragment raw))).filter fun chain =>
    !typed.contains chain

/-- **The suggestions after `ON`.** -/
def forChains (q : Query) (raw : Text) : List Suggestion :=
  if !q.chainList.isEmpty && Cursor.atPause raw then words [Keyword.dump.text]
  else if Cursor.lastWord raw = Keyword.chains.text then words chains
  else if chainsSettled raw then []
  else words (unusedChains q.chainList raw)

/-- **The suggestions after `>>`.** -/
def forDump (raw : Text) : List Suggestion :=
  if Cursor.atSpace raw then words dumpFormats else []

end Suggestion

end ChainQuery
