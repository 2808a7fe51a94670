import PipelineOperator.Decimal.Basic

/-!
Addresses to which a server is bound: an internet address of version 4 or 6 with a port. The reader
takes every spelling of an address, the printer writes one: small hexadecimal digits and the longest
run of zero groups left out.
-/

set_option autoImplicit false
set_option relaxedAutoImplicit false

namespace PipelineOperator

inductive SocketAddress where
  | v4 (octets : List Nat) (port : Nat)
  | v6 (groups : List Nat) (scope port : Nat)
deriving DecidableEq

namespace SocketAddress

/-- Reads something from the front of a text and leaves the rest. -/
abbrev Reader (α : Type) := List Char → Option (α × List Char)

def mark (c : Char) : Reader Unit
  | d :: rest => if c = d then some ((), rest) else none
  | [] => none

def digit? (base : Nat) (c : Char) : Option Nat :=
  let value :=
    if '0' ≤ c ∧ c ≤ '9' then some (c.toNat - 48)
    else if 'a' ≤ c ∧ c ≤ 'f' then some (c.toNat - 87)
    else if 'A' ≤ c ∧ c ≤ 'F' then some (c.toNat - 55)
    else none
  value.filter (· < base)

/-- A number up to a bound, of at most so many digits. Leading zeros are allowed or not. -/
def number (base bound : Nat) (maxDigits : Option Nat) (leadingZeros : Bool) : Reader Nat :=
  fun chars ↦
    let digits := chars.takeWhile (fun c ↦ (digit? base c).isSome)
    let value := digits.foldl (fun n c ↦ base * n + (digit? base c).getD 0) 0
    let tooLong := maxDigits.any (· < digits.length)
    let zeros := !leadingZeros && 1 < digits.length && digits.head? == some '0'
    if digits.isEmpty || tooLong || zeros || bound < value then none
    else some (value, chars.dropWhile (fun c ↦ (digit? base c).isSome))

def octet : Reader Nat := number 10 255 (some 3) false

def octets : Reader (List Nat) := fun chars ↦ do
  let (a, chars) ← octet chars
  let (b, chars) ← octet (← mark '.' chars).2
  let (c, chars) ← octet (← mark '.' chars).2
  let (d, chars) ← octet (← mark '.' chars).2
  return ([a, b, c, d], chars)

def port : Reader Nat := fun chars ↦ do
  number 10 65535 none true (← mark ':' chars).2

/-- Skips the colon between groups. -/
def separated {α : Type} (isFirst : Bool) (reader : Reader α) : Reader α := fun chars ↦
  if isFirst then reader chars else do reader (← mark ':' chars).2

/-- Two groups written as four octets. -/
def embedded : Reader (List Nat) := fun chars ↦ do
  let (octets, rest) ← octets chars
  match octets with
  | [a, b, c, d] => return ([256 * a + b, 256 * c + d], rest)
  | _ => none

/-- As many groups as there are, at most so many, whether they end in octets, and the rest. -/
def groups : Nat → Bool → List Char → List Nat × Bool × List Char
  | 0, _, chars => ([], false, chars)
  | left + 1, isFirst, chars =>
    match if left = 0 then none else separated isFirst embedded chars with
    | some (pair, rest) => (pair, true, rest)
    | none =>
      match separated isFirst (number 16 65535 (some 4) true) chars with
      | none => ([], false, chars)
      | some (group, rest) =>
        let (more, octets, rest) := groups left false rest
        (group :: more, octets, rest)

/-- Eight groups, or fewer around one gap of at least one group. -/
def allGroups : Reader (List Nat) := fun chars ↦ do
  let (head, octets, rest) := groups 8 true chars
  if head.length = 8 then return (head, rest)
  else if octets then none
  else
    let (_, rest) ← mark ':' rest
    let (_, rest) ← mark ':' rest
    let (tail, _, rest) := groups (7 - head.length) true rest
    return (head ++ List.replicate (8 - head.length - tail.length) 0 ++ tail, rest)

def scope : Reader Nat := fun chars ↦
  match chars with
  | '%' :: rest => number 10 (UInt32.size - 1) none true rest
  | rest => some (0, rest)

def ofText? (text : String) : Option SocketAddress :=
  let chars := text.toList
  let v4 : Option SocketAddress := do
    let (octets, rest) ← octets chars
    let (port, rest) ← port rest
    if rest.isEmpty then some (.v4 octets port) else none
  let v6 : Option SocketAddress := do
    let (groups, rest) ← allGroups (← mark '[' chars).2
    let (scope, rest) ← scope rest
    let (port, rest) ← port (← mark ']' rest).2
    if rest.isEmpty then some (.v6 groups scope port) else none
  v4.orElse (fun _ ↦ v6)

def numberText (n : Nat) : String := String.ofList (Decimal.digitChars n)

def octetsText (octets : List Nat) : String :=
  String.intercalate "." (octets.map numberText)

def groupText (group : Nat) : String := String.ofList (Nat.toDigits 16 group)

def groupsText (groups : List Nat) : String := String.intercalate ":" (groups.map groupText)

/-- How many of the first groups are zero. -/
def zeroRun (groups : List Nat) : Nat := (groups.takeWhile (· = 0)).length

/-- The start and the length of the longest run of zero groups, the first of equally long ones. -/
def longestRun (groups : List Nat) : Nat × Nat :=
  (List.range groups.length).foldl (fun best start ↦
    let run := zeroRun (groups.drop start)
    if best.2 < run then (start, run) else best) (0, 0)

/-- An address of version 6. One that stands for an address of version 4 shows its octets. -/
def addressText (groups : List Nat) : String :=
  match groups with
  | [0, 0, 0, 0, 0, 0xffff, high, low] =>
    "::ffff:" ++ octetsText [high / 256, high % 256, low / 256, low % 256]
  | groups =>
    let (start, run) := longestRun groups
    if 1 < run then
      groupsText (groups.take start) ++ "::" ++ groupsText (groups.drop (start + run))
    else groupsText groups

def text : SocketAddress → String
  | v4 octets port => octetsText octets ++ ":" ++ numberText port
  | v6 groups scope port =>
    let zone := if scope = 0 then "" else "%" ++ numberText scope
    "[" ++ addressText groups ++ zone ++ "]:" ++ numberText port

/-- Reads the address of a server; a port alone stands for all interfaces. -/
def ofBind? (address : String) : Option SocketAddress :=
  match address.toList with
  | ':' :: _ => ofText? ("0.0.0.0" ++ address)
  | _ => ofText? address

end SocketAddress

end PipelineOperator
