import PipelineOperator.Text.Hexadecimal
import PipelineOperator.Text.Utf8

/-!
Form encoding: how names and values are written in the query of an address. Letters, digits and four
marks stand for themselves, a blank is a plus sign, and every other byte is a percent sign and two
hexadecimal digits.
-/

set_option autoImplicit false
set_option relaxedAutoImplicit false

namespace PipelineOperator

namespace Form

/-- The characters that stand for themselves. -/
def isPlain (c : Char) : Bool := c.isAlphanum || c ∈ ['*', '-', '.', '_']

def encodeByte (b : UInt8) : List Char :=
  let c := Char.ofNat b.toNat
  if b < 128 && isPlain c then [c]
  else if c = ' ' then ['+']
  else ['%', (Text.hexDigit (b.toNat / 16)).toUpper, (Text.hexDigit (b.toNat % 16)).toUpper]

def encode (text : String) : String := String.ofList (text.toUTF8.toList.flatMap encodeByte)

/-- The bytes behind an encoded text. A percent sign without two digits stands for itself. -/
def bytes : List Char → List UInt8
  | '+' :: rest => 0x20 :: bytes rest
  | '%' :: a :: b :: rest =>
    match Text.hexValue? a, Text.hexValue? b with
    | some high, some low => UInt8.ofNat (16 * high + low) :: bytes rest
    | _, _ => 0x25 :: bytes (a :: b :: rest)
  | c :: rest => (String.singleton c).toUTF8.toList ++ bytes rest
  | [] => []

def decode (text : List Char) : String := Text.ofBytes (bytes text)

/-- A name and its value; the value is empty if there is no equals sign. -/
def pair (text : String) : String × String :=
  let chars := text.toList
  (decode (chars.takeWhile (· ≠ '=')), decode ((chars.dropWhile (· ≠ '=')).drop 1))

/-- Names and values of a query, in their order; empty parts are passed over. -/
def pairs (query : String) : List (String × String) :=
  ((query.splitOn "&").filter (· ≠ "")).map pair

end Form

end PipelineOperator
