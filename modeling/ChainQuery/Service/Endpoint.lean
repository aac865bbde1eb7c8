import ChainQuery.Json.Form
import ChainQuery.Service.Answer
import ChainQuery.Service.MediaType
import ChainQuery.Service.Target

/-!
# The service

Queries can be read and completed over HTTP. There are three **resources**: two that take a
JSON object with a query in it, and the vocabulary, which is only looked at.

| path | method | what it answers |
|---|---|---|
| `/v1/parse` | `POST` | the query that a text holds, or what is wrong with it |
| `/v1/autocomplete` | `POST` | the suggestions for the end of a text |
| `/v1/schema` | `GET` | everything that a query may be made of |

There is a request only if its method, its target and its headers are written as such. It is
refused by the first test that it does not pass: the path has to be known, the method allowed,
the content JSON by its header, not too long, JSON in fact, and of the form that the resource asks
for. A fault of the query comes last, and is an answer in JSON like any other.

Pages of any origin may use the service, so every response says so, and every `OPTIONS`
request – whatever its path – is answered with what such a page may do.
-/

namespace ChainQuery

namespace Service

/-! ### Requests -/

/-- A request. -/
structure Request where
  /-- The method, in capitals if it is to be known. -/
  method : Text
  /-- The path, without a query string. -/
  path : Text
  /-- The headers by name. -/
  headers : List (Text × Text)
  /-- The content. -/
  body : Text

/-- The first of some headers that has that name, whose case does not matter. -/
def findHeader? (name : Text) (headers : List (Text × Text)) : Option Text :=
  (headers.find? fun h => h.1.map Char.toLower == name).map Prod.snd

/-- The first header of that name. -/
def Request.header? (r : Request) (name : Text) : Option Text := findHeader? name r.headers

/-- Whether a text can be the name of a method or of a header. -/
def isToken (s : Text) : Bool := !s.isEmpty && s.all MediaType.isTokenChar

/-- Whether a header can stand in a request. -/
def isHeader (h : Text × Text) : Bool := isToken h.1 && h.2.all Text.isPlain

/-- **The request that some parts make**, if they are parts of one. -/
def Request.ofParts? (method target : Text) (headers : List (Text × Text)) (body : Text) :
    Option Request :=
  if isToken method && headers.all isHeader then
    (Target.path? target).map fun path => ⟨method, path, headers, body⟩
  else none

/-! ### Resources -/

/-- What the service has to offer. -/
inductive Resource
  /-- Reads queries. -/
  | reading
  /-- Completes queries. -/
  | completion
  /-- Shows the vocabulary. -/
  | vocabulary
  deriving DecidableEq, Repr

namespace Resource

/-- The resources. -/
def all : List Resource := [reading, completion, vocabulary]

/-- The path of a resource. -/
def path : Resource → Text
  | reading => "/v1/parse".toList
  | completion => "/v1/autocomplete".toList
  | vocabulary => "/v1/schema".toList

/-- The resource of that path. -/
def ofPath? (path : Text) : Option Resource := all.find? fun resource => resource.path == path

/-- The methods that a resource allows. What can be looked at can also be asked for without
its content. -/
def methods : Resource → List Text
  | reading => ["POST".toList]
  | completion => ["POST".toList]
  | vocabulary => ["GET".toList, "HEAD".toList]

/-- The header that tells which methods a resource allows. -/
def allowance (resource : Resource) : String × Text :=
  ("allow", List.intercalate [','] resource.methods)

end Resource

/-! ### What is asked for -/

/-- The slot that holds a query. -/
def querySlot : Json.Slot := ⟨"query".toList, .text, false⟩

/-- The slot that says whether the query is to be judged. -/
def judgingSlot : Json.Slot := ⟨"validatePartial".toList, .flag, true⟩

/-- The query that a form was filled in with. -/
def queryIn (entries : Json.Entries) : Text :=
  ((entries.value? querySlot.name).bind Json.string?).getD []

/-- Whether the query is to be judged; it is not, unless that was asked for. -/
def judgingIn (entries : Json.Entries) : Bool :=
  match entries.value? judgingSlot.name with
  | some (.bool b) => b
  | _ => false

/-! ### What becomes of a request -/

/-- A refusal in plain words. -/
def Response.refusal (status : Nat) (text : String) : Response :=
  { status := status
    headers := [("content-type", "text/plain; charset=utf-8".toList)]
    content := .remark text.toList }

/-- The answer to whoever looks at the vocabulary. -/
def answerVocabulary (method : Text) : Response :=
  let response := Response.ofJson 200 Json.vocabulary
  if method = "HEAD".toList then { response with content := .empty } else response

/-- Whether the headers of a request say that its content is JSON. -/
def carriesJson (r : Request) : Bool :=
  ((r.header? "content-type".toList).bind MediaType.ofText?).any MediaType.isJson

/-- The number of bytes that the content of a request may take. -/
def bodyLimit : Nat := 2097152

/-- Answers a request whose content fills in a form. -/
def withForm (form : List Json.Slot) (r : Request) (answer : Json.Entries → Response) :
    Response :=
  if !carriesJson r then .refusal 415 "The content type has to be JSON"
  else if bodyLimit < Text.utf8Size r.body then .refusal 413 "The content is too long"
  else
    match Json.fillIn form r.body with
    | .ok entries => answer entries
    | .error .malformed => .refusal 400 "The content is not JSON"
    | .error .unfit => .refusal 422 "The content is not of the form that is asked for"

/-- The answer of a resource. -/
def Resource.answer (resource : Resource) (r : Request) : Response :=
  match resource with
  | .reading => withForm [querySlot, judgingSlot] r fun entries =>
      answerReading (queryIn entries) (judgingIn entries)
  | .completion => withForm [querySlot] r fun entries => answerCompletion (queryIn entries)
  | .vocabulary => answerVocabulary r.method

/-- What a page of another origin may do. -/
def permissions : List (String × Text) :=
  [("access-control-allow-methods", "GET,POST".toList),
   ("access-control-allow-headers", "*".toList)]

/-- The answer to a request, before it is said for whom it is. -/
def respond (r : Request) : Response :=
  let resource := Resource.ofPath? r.path
  if r.method = "OPTIONS".toList then
    { status := 200
      headers := permissions ++ (resource.map Resource.allowance).toList }
  else
    match resource with
    | none => { status := 404 }
    | some resource =>
      if resource.methods.contains r.method then resource.answer r
      else { status := 405, headers := [resource.allowance] }

/-- **The response to a request.** -/
def serve (r : Request) : Response :=
  let response := respond r
  { response with
    headers := ("access-control-allow-origin", "*".toList) :: response.headers }

end Service

end ChainQuery
