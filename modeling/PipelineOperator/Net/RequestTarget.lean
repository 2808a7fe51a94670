import PipelineOperator.Net.Exchange

/-!
The first line of a request to a server: a method, which may be any token, and what the request is
aimed at. That is a path on the server, a whole address, which names the server too, the server
alone, or an asterisk for nothing in particular. `RequestTarget.path?` is the path that is meant.
-/

set_option autoImplicit false
set_option relaxedAutoImplicit false

namespace PipelineOperator

namespace RequestTarget

/-- The characters of a token. -/
def inToken (c : Char) : Bool :=
  c.isAlphanum ||
    c ∈ ['!', '#', '$', '%', '&', '\x27', '*', '+', '-', '.', '^', '_', '\x60', '|', '~']

def isMethod (text : String) : Bool := !text.isEmpty && text.toList.all inToken

/-- The longest name of a scheme. -/
def maxScheme : Nat := 64

def inScheme (c : Char) : Bool := c.isAlphanum || c ∈ ['+', '-', '.', '~']

/-- The address after its scheme, if it has one. -/
def afterScheme? (chars : List Char) : Option (List Char) :=
  match chars.dropWhile inScheme with
  | ':' :: '/' :: '/' :: rest => if chars.length ≤ 3 then none else some rest
  | _ => none

/-- The characters of a server's name beside brackets, colon, at sign and percent sign. -/
def inServer (c : Char) : Bool :=
  c.isAlphanum ||
    c ∈ ['-', '.', '_', '~', '!', '$', '&', '\x27', '(', ')', '*', '+', ',', ';', '=']

/-- What the name of a server, read so far, leaves open. Colons and percent signs count from the
last at sign or closing bracket on. -/
structure ServerScan where
  colons : Nat := 0
  opened : Bool := false
  closed : Bool := false
  percent : Bool := false
  afterAt : Bool := false

def ServerScan.step (s : ServerScan) (c : Char) : Option ServerScan :=
  let t := { s with afterAt := false }
  match c with
  | ':' => if 8 ≤ s.colons then none else some { t with colons := s.colons + 1 }
  | '[' => if s.percent || s.opened then none else some { t with opened := true }
  | ']' =>
    if !s.opened || s.closed then none
    else some { t with closed := true, colons := 0, percent := false }
  | '@' => some { t with colons := 0, percent := false, afterAt := true }
  | '%' => some { t with percent := true }
  | c => if inServer c then some t else none

/-- The name of a server: perhaps a user before an at sign, a host, and perhaps a port after a
colon. Only a user and a bracketed host may hold percent signs. -/
def isServer (chars : List Char) : Bool :=
  match chars.foldlM ServerScan.step {} with
  | some s => s.opened == s.closed && s.colons ≤ 1 && !s.percent && !s.afterAt
  | none => false

def endsServer (c : Char) : Bool := c == '/' || c == '?' || c == '#'

/-- The path of an address, of which the part after the server's name may be missing. -/
def addressPath? (scheme rest : List Char) : Option String :=
  let server := rest.takeWhile (!endsServer ·)
  if maxScheme < scheme.length || server.isEmpty || !isServer server then none
  else (Target.ofText? (String.ofList (rest.dropWhile (!endsServer ·)))).map (fun target ↦
    if target.path = "" then "/" else target.path)

/-- The path that a target means. A server alone has none. -/
def path? (text : String) : Option String :=
  if Target.maxBytes < text.utf8ByteSize then none
  else match text.toList with
    | [] => none
    | ['*'] => some "*"
    | '/' :: _ => (Target.ofText? text).map Target.path
    | chars =>
      match afterScheme? chars with
      | some rest => addressPath? (chars.takeWhile inScheme) rest
      | none => if isServer chars then some "" else none

end RequestTarget

end PipelineOperator
