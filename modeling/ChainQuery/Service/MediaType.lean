import ChainQuery.Text.Pieces

/-!
# Media types

The value of a `content-type` header names the kind of content that a request carries: a
type and a subtype with a slash between them, and parameters after semicolons. A subtype may
end in a **suffix** after a plus sign, which says how the content is written whatever it is
about: `application/vnd.api+json` is written in JSON.

Parameters say nothing that matters here, but they have to be well written, or the value
names no media type at all.
-/

namespace ChainQuery

/-- A media type without its parameters, in lower case. -/
structure MediaType where
  /-- What precedes the slash. -/
  type : Text
  /-- What follows it, up to the suffix. -/
  subtype : Text
  /-- What follows the last plus sign. -/
  suffix : Option Text
  deriving DecidableEq, Repr

namespace MediaType

/-- The characters that the words of a media type are made of. -/
def isTokenChar (c : Char) : Bool := c.isAlphanum || "!#$%&'*+-.^_`|~".toList.contains c

/-- The characters that may stand between quotation marks, of which the first may itself be
a quotation mark. -/
def isQuotable (c : Char) : Bool := 0x20 ≤ c.toNat && c.toNat < 0x7F

/-- Reads a value between quotation marks, the first of them being read, and the spaces
after it. It holds one character at least. -/
def skipQuoted? : Text → Option Text
  | [] => none
  | c :: s =>
    if isQuotable c then
      match s.dropWhile fun d => isQuotable d && d != '"' with
      | '"' :: rest => some (rest.dropWhile (· == ' '))
      | _ => none
    else none

/-- Reads a value: what follows it, and whether it may be followed by another parameter. -/
def skipValue? (s : Text) : Option Text :=
  match s with
  | '"' :: quoted => skipQuoted? quoted
  | s =>
    let value := s.takeWhile isTokenChar
    let rest := s.dropWhile isTokenChar
    if value.isEmpty && !rest.isEmpty then none else some rest

/-- Whether parameters are well written: `name=value`, with spaces before the name and
semicolons between them. Nothing has to follow a semicolon. -/
def areParameters (s : Text) : Bool :=
  let trimmed := s.dropWhile (· == ' ')
  let name := trimmed.takeWhile isTokenChar
  if trimmed.isEmpty then true
  else if name.isEmpty then false
  else
    match trimmed.dropWhile isTokenChar with
    | '=' :: value =>
      match skipValue? value with
      | some [] => true
      | some (';' :: rest) => if rest.length < s.length then areParameters rest else false
      | _ => false
    | _ => false
termination_by s.length

/-- Cuts a subtype at its last plus sign, unless that is its first character. -/
def cutSuffix (s : Text) : Text × Option Text :=
  let upto := Text.uptoLast '+' s
  if 1 < upto.length then (upto.dropLast, some (s.drop upto.length)) else (s, none)

/-- The media type that the value of a header names. -/
def ofText? (s : Text) : Option MediaType :=
  let type := s.takeWhile isTokenChar
  match s.dropWhile isTokenChar with
  | '/' :: rest =>
    let subtype := rest.takeWhile isTokenChar
    let parameters := rest.dropWhile isTokenChar
    let wellWritten :=
      match parameters with
      | [] => true
      | ';' :: parameters => !subtype.isEmpty && areParameters parameters
      | _ => false
    if !type.isEmpty && wellWritten then
      let (subtype, suffix) := cutSuffix (subtype.map Char.toLower)
      some ⟨type.map Char.toLower, subtype, suffix⟩
    else none
  | _ => none

/-- Whether content of the type is written in JSON. -/
def isJson (m : MediaType) : Bool :=
  m.type == "application".toList &&
    (m.subtype == "json".toList || m.suffix == some "json".toList)

end MediaType

end ChainQuery
