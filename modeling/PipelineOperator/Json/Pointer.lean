import PipelineOperator.Json.Basic

/-!
Pointers into a document: a path of member names and array indices, each after a slash. In a name a
slash is written as a tilde and a one, a tilde as a tilde and a zero.
-/

set_option autoImplicit false
set_option relaxedAutoImplicit false

namespace PipelineOperator

namespace Json

/-- A step of a pointer, with its marks written out. -/
def unescapeStep : List Char → List Char
  | '~' :: '1' :: rest => '/' :: unescapeStep rest
  | '~' :: '0' :: rest => '~' :: unescapeStep rest
  | c :: rest => c :: unescapeStep rest
  | [] => []

/-- An array index: digits without a needless zero in front. -/
def index? (step : String) : Option Nat :=
  let digits := step.toList
  if digits.isEmpty || !digits.all Char.isDigit || (digits.length > 1 && digits.head? == some '0')
  then none
  else some (digits.foldl (fun n c ↦ 10 * n + (c.toNat - '0'.toNat)) 0)

/-- The part of a document that one step leads to. -/
def part? (document : Json) (step : String) : Option Json :=
  match document with
  | object members => lookup step members
  | array items => (index? step).bind (fun i ↦ items[i]?)
  | _ => none

/-- The steps of a pointer; the empty pointer has none. -/
def steps? (pointer : String) : Option (List String) :=
  match pointer.splitOn "/" with
  | "" :: steps => some (steps.map (fun s ↦ String.ofList (unescapeStep s.toList)))
  | _ => none

def follow (document : Json) (steps : List String) : Option Json :=
  steps.foldlM part? document

/-- The part of a document that a pointer leads to. -/
def pointer? (document : Json) (pointer : String) : Option Json :=
  (steps? pointer).bind document.follow

end Json

end PipelineOperator
