import ChainQuery.Text.Basic

/-!
# Targets

The first line of a request names its **target**. Nearly always that is a path, perhaps with a
query string behind it; but there are other ways to write one, and every one of them leads to a
path, which is all that the service looks at.

| target | its path |
|---|---|
| `/v1/parse?draft#top` | `/v1/parse` |
| `http://host:80/v1/parse` | `/v1/parse` |
| `http://host` | `/` |
| `host:80` | empty |
| `*` | `*` |

What is written in none of these ways is no target. Percent signs are not decoded in a path, so
they may stand anywhere in it; but nothing of what follows a `#` is read at all.
-/

namespace ChainQuery

namespace Service

namespace Target

/-! ### Authorities -/

/-- The characters of an authority that may stand anywhere in it, and as often as they like. -/
def isAuthorityChar (c : Char) : Bool := c.isAlphanum || "!$&'()*+,-.;=_~".toList.contains c

/-- What has been met while an authority is read from left to right. -/
structure Seen where
  /-- How many colons, since the last `@` or closing bracket. -/
  colons : Nat := 0
  /-- Whether a percent sign was among them since then. -/
  percent : Bool := false
  /-- Whether the bracket was that opens a numerical address. -/
  opened : Bool := false
  /-- Whether the bracket was that closes it. -/
  closed : Bool := false

/-- The most colons that may be met in one part of an authority, as many as a numerical address
may have with a port behind it. -/
def colonLimit : Nat := 8

/-- What has been met after one more character, if that may stand there. An `@` ends what is said
of the user and a closing bracket ends a numerical address; what they end may have colons and
percent signs of its own. -/
def Seen.step? (seen : Seen) (c : Char) : Option Seen :=
  if c = ':' then
    if seen.colons < colonLimit then some { seen with colons := seen.colons + 1 } else none
  else if c = '[' then
    if seen.percent || seen.opened then none else some { seen with opened := true }
  else if c = ']' then
    if seen.opened && !seen.closed then
      some { seen with closed := true, colons := 0, percent := false }
    else none
  else if c = '@' then some { seen with colons := 0, percent := false }
  else if c = '%' then some { seen with percent := true }
  else if isAuthorityChar c then some seen
  else none

/-- Whether a text is an authority: what is said of a user, a host, and a port. In the end there
is at most the colon of the port, and a host does follow an `@`. -/
def isAuthority (s : Text) : Bool :=
  match s.foldlM Seen.step? {} with
  | some seen =>
    seen.colons ≤ 1 && !seen.percent && seen.opened == seen.closed && !s.isEmpty &&
      !Text.lastIs (· == '@') s
  | none => false

/-- The characters at which an authority has ended. -/
def endsAuthority (c : Char) : Bool := c == '/' || c == '?' || c == '#'

/-! ### Schemes -/

/-- The characters of a scheme. -/
def isSchemeChar (c : Char) : Bool := c.isAlphanum || "+-.~".toList.contains c

/-- The length that a scheme may have. -/
def schemeLimit : Nat := 64

/-- What follows the scheme with which a text begins, if it does begin with one. -/
def afterScheme? (s : Text) : Option Text :=
  if (s.takeWhile isSchemeChar).length ≤ schemeLimit then
    Text.dropOpening? "://".toList (s.dropWhile isSchemeChar)
  else none

/-! ### Paths -/

/-- The characters of a path: those after the space, but for some signs. -/
def isPathChar (c : Char) : Bool := 0x20 < c.toNat && !"#?<>`".toList.contains c

/-- The characters of a query string: those after the space, but for some other signs. -/
def isQueryChar (c : Char) : Bool := 0x20 < c.toNat && !"#\"<>".toList.contains c

/-- The path of a text that is a path, perhaps with a query string behind it. -/
def ofPath? (s : Text) : Option Text :=
  let path := s.takeWhile fun c => c != '?' && c != '#'
  let query := (s.drop path.length).takeWhile (· != '#')
  if path.all isPathChar && query.all isQueryChar then some path else none

/-! ### Targets -/

/-- The number of bytes that a target may take. -/
def sizeLimit : Nat := 65534

/-- The path of an address, with the scheme already read. A path may be missing after the
authority, but not the authority before the path. -/
def ofAddress? (s : Text) : Option Text :=
  if isAuthority (s.takeWhile (!endsAuthority ·)) then
    (ofPath? (s.dropWhile (!endsAuthority ·))).map fun path =>
      if path.isEmpty then ['/'] else path
  else none

/-- **The path of a target**, if it is one. -/
def path? (s : Text) : Option Text :=
  if sizeLimit < Text.utf8Size s then none
  else if s = ['*'] then some s
  else if s.head? = some '/' then ofPath? s
  else
    match afterScheme? s with
    | some rest => ofAddress? rest
    | none => if isAuthority s then some [] else none

end Target

end Service

end ChainQuery
