import ChainQuery.Json.Printer
import ChainQuery.Number.Digits
import ChainQuery.Service.Endpoint

/-!
# Requests and responses on a stream

A stream carries one request after the other, and the responses go out in the same order. The
**head** of a request is the lines up to the first empty one, and says how many bytes of
content come after it; a response is written in the same way.
-/

namespace ChainQuery

namespace Service

/-- What a request says before its content. -/
structure Head where
  /-- The method. -/
  method : Text
  /-- The target. -/
  target : Text
  /-- The headers by name. -/
  headers : List (Text × Text)

namespace Head

/-- A header from its line: a name, a colon, and a value with space around it. -/
def header? (line : Text) : Option (Text × Text) :=
  match line.dropWhile (· != ':') with
  | _ :: value => some (line.takeWhile (· != ':'), Text.trim value)
  | [] => none

/-- A head from its lines: a method, a target and a version with a space between them, and the
headers. -/
def ofLines? : List Text → Option Head
  | [] => none
  | first :: lines =>
    match Text.pieces ' ' (Text.trim first) with
    | [method, target, _] => (lines.mapM header?).map fun headers => ⟨method, target, headers⟩
    | _ => none

/-- The request with that head and content, if the head is written as it should be. -/
def toRequest? (head : Head) (body : Text) : Option Request :=
  Request.ofParts? head.method head.target head.headers body

/-- The number of bytes of content that come after a head. -/
def length? (head : Head) : Option Nat :=
  match findHeader? "content-length".toList head.headers with
  | some value => Digits.decimal? value
  | none => some 0

end Head

/-- The response to what is no request. -/
def noRequest : Response := .refusal 400 "No request"

/-- What a status code means, in words. -/
def statusText (status : Nat) : Text :=
  match status with
  | 200 => "OK".toList
  | 400 => "Bad Request".toList
  | 404 => "Not Found".toList
  | 405 => "Method Not Allowed".toList
  | 413 => "Payload Too Large".toList
  | 415 => "Unsupported Media Type".toList
  | 422 => "Unprocessable Content".toList
  | _ => []

/-- Content as it is written. -/
def Content.text : Content → Text
  | empty => []
  | json value => value.print
  | remark text => text

/-- A line of a head. -/
def headLine (line : Text) : Text := line ++ ['\r', '\n']

/-- **A response as it is written.** -/
def Response.message (r : Response) : Text :=
  let body := r.content.text
  let length := ("content-length", Digits.ofInt (Text.utf8Size body))
  headLine ("HTTP/1.1 ".toList ++ Digits.ofInt r.status ++ ' ' :: statusText r.status) ++
    ((length :: r.headers).flatMap fun h => headLine (h.1.toList ++ ": ".toList ++ h.2)) ++
    headLine [] ++ body

end Service

end ChainQuery
