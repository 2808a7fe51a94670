import PipelineOperator.Json.Basic
import PipelineOperator.Net.Form

/-!
One exchange with a server: a request to a target, and a reply. A target is written as one text,
which not every text is: blanks, control characters and a few marks have no place in it.
-/

set_option autoImplicit false
set_option relaxedAutoImplicit false

namespace PipelineOperator

/-- A path on a server and, after a question mark, a query. -/
structure Target where
  path : String
  query : Option String
deriving DecidableEq

namespace Target

/-- The characters of a path. -/
def inPath (c : Char) : Bool := '!' ≤ c && c ∉ ['#', '<', '>', '?', '\x60', '\x7f']

/-- The characters of a query. -/
def inQuery (c : Char) : Bool := '!' ≤ c && c ∉ ['"', '#', '<', '>', '\x7f']

/-- The most bytes that a target has. -/
def maxBytes : Nat := 65534

/-- Splits a text at its first question mark. What follows a number sign is dropped unread. -/
def ofText? (text : String) : Option Target :=
  let kept := text.toList.takeWhile (· ≠ '#')
  let path := kept.takeWhile (· ≠ '?')
  let rest := kept.dropWhile (· ≠ '?')
  if text.utf8ByteSize ≤ maxBytes && path.all inPath && (rest.drop 1).all inQuery then
    some {
      path := String.ofList path
      query := if rest.isEmpty then none else some (String.ofList (rest.drop 1)) }
  else none

def pairs (t : Target) : List (String × String) := Form.pairs (t.query.getD "")

end Target

inductive HttpMethod where
  | get
  | post
  | put
  | patch
  | delete
deriving DecidableEq

namespace HttpMethod

def text : HttpMethod → String
  | get => "GET"
  | post => "POST"
  | put => "PUT"
  | patch => "PATCH"
  | delete => "DELETE"

/-- The type of the document that a request of the method carries. -/
def contentType? : HttpMethod → Option String
  | get => none
  | patch => some "application/merge-patch+json"
  | _ => some "application/json"

end HttpMethod

structure HttpRequest where
  method : HttpMethod
  target : Target
  document : Option Json := none

structure HttpReply where
  status : Nat
  body : String
deriving DecidableEq

end PipelineOperator
