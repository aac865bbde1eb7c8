import ChainQuery.Query.Basic
import ChainQuery.Query.Clause
import ChainQuery.Query.Inference
import ChainQuery.Text.Lowercase
import ChainQuery.Text.Pieces

/-!
# Reading a query

`ChainQuery.Query.ofText` reads the query that a text holds, however little of it has been
typed. Reading **never fails**: what cannot be understood is kept as it stands, in the place
where it stands, for the judgement of `ChainQuery.Query.Judgement`, and what is missing is
missing in the query.

The clauses are read each for itself:

| clause | what is read | by |
|---|---|---|
| the head | fields between commas, after `GET` and one space | `ChainQuery.Query.readFields` |
| `FROM` | a name, and an identifier after white space | `ChainQuery.Query.readEntity` |
| `WHERE` | filters between commas outside parentheses | `ChainQuery.Query.readFilters` |
| `ON` | chains between commas, in lower case | `ChainQuery.Query.readChains` |
| `>>` | a file | `ChainQuery.Query.readDump` |
-/

namespace ChainQuery

namespace Text

/-- The items between the commas of a text, without the white space around them. Where
nothing stands between two commas there is no item. -/
def items (s : Text) : List Text :=
  ((pieces ',' s).map trim).filter fun item => !item.isEmpty

end Text

namespace Token

/-! ### Groups of tokens -/

/-- How many parentheses are open after a token. One that was never opened closes nothing. -/
def depthAfter (depth : Nat) (t : Token) : Nat :=
  match t.kind with
  | .openParen => depth + 1
  | .closeParen => depth - 1
  | _ => depth

/-- The groups of tokens between the commas that stand outside all parentheses, when `depth`
parentheses are open already: the group that is being read, and those after it. -/
def groupsFrom (depth : Nat) : List Token → List Token × List (List Token)
  | [] => ([], [])
  | t :: later =>
    let groups := groupsFrom (t.depthAfter depth) later
    if t.kind = .comma ∧ depth = 0 then
      ([], groups.1 :: groups.2)
    else
      (t :: groups.1, groups.2)

/-- The groups of tokens between the commas that stand outside all parentheses. Where nothing
stands between two commas there is no group. -/
def groups (tokens : List Token) : List (List Token) :=
  let found := groupsFrom 0 tokens
  (found.1 :: found.2).filter fun group => !group.isEmpty

end Token

/-- **The filter that a group of tokens is.** An identifier and an operator at its beginning
make it a comparison, with everything after them for its value; any other group stands in the
place of a field as it was typed. -/
def Filter.ofTokens (group : List Token) : Filter :=
  match group with
  | field :: operator :: value =>
    match if field.isIdentifier then operator.operator? else none with
    | some op => ⟨field.text, some op, Text.nonempty? (Token.stretch value)⟩
    | none => { field := Token.stretch group }
  | _ => { field := Token.stretch group }

namespace Query

/-! ### The clauses -/

/-- What has to precede the fields. -/
def opening : Text := "GET ".toList

/-- The fields in the head of a query. -/
def readFields (head : Text) : Option (List Text) :=
  (Text.dropOpening? opening head).map fun list =>
    let list := Text.trim list
    if list = wildcard then [wildcard] else Text.items list

/-- The name of an entity, in lower case, and the identifier after it. -/
def readEntity (clause : Text) : Option (Text × Option Text) :=
  let (name, rest) := Text.cutAtBlank (Text.trim clause)
  if name.isEmpty then none
  else some (Text.lower name, Text.nonempty? (Text.trim rest))

/-- The filters of a clause, if it has any. -/
def readFilters (clause : List Token) : Option (List Filter) :=
  match (Token.groups clause).map Filter.ofTokens with
  | [] => none
  | filters => some filters

/-- The chains of a clause, if it has any. -/
def readChains (clause : Text) : Option (List Text) :=
  match (Text.items clause).map Text.lower with
  | [] => none
  | chains => some chains

/-- The file of a clause, if it has one. -/
def readDump (clause : Text) : Option Text := Text.nonempty? (Text.trim clause)

/-! ### The query -/

/-- The keyword of the head: what begins with the letters of `GET` counts, whatever follows
them. -/
def headKeyword? (head : Text) : Option Keyword :=
  if Text.beginsWith Keyword.fields.text head then some .fields else none

/-- The query that some clauses make. An entity that is named wins over the one that the
fields imply. -/
def ofClauses (clauses : Clauses) : Query :=
  let head := Token.stretch clauses.head
  let fields := readFields head
  -- a clause that names no entity leaves the one that the fields imply
  let named := (clauses.first? .entity).bind fun c => readEntity (Token.stretch c)
  let implied := (fields.bind impliedEntity?).map Entity.name
  { fields := fields
    entity := (named.map Prod.fst).or implied
    identifier := named.bind Prod.snd
    filters := (clauses.first? .filters).bind readFilters
    chains := (clauses.first? .chains).bind fun c => readChains (Token.stretch c)
    dump := (clauses.first? .dump).bind fun c => readDump (Token.stretch c)
    lastKeyword := clauses.lastKeyword?.or (headKeyword? head) }

/-- **The query that a text holds.** White space around the text says nothing. -/
def ofText (raw : Text) : Query :=
  ofClauses (Clauses.ofTokens (Token.tokenize (Text.trim raw)))

end Query

end ChainQuery
