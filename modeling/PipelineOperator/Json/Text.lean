import PipelineOperator.Decimal.Shortest
import PipelineOperator.Json.Basic
import PipelineOperator.Text.Hexadecimal

/-!
The compact text of a JSON document: no white space, members in their order. Strings escape the
quote, the backslash and the control characters. The HTML-safe form also escapes the three
characters that HTML gives a meaning and the two line separators of JavaScript, all of which occur
only inside strings.
-/

set_option autoImplicit false
set_option relaxedAutoImplicit false

namespace PipelineOperator

namespace Json

/-- The four-digit escape of a character below `0x10000`. -/
def unicodeEscape (c : Char) : List Char :=
  let n := c.toNat
  let digit (unit : Nat) : Char := Text.hexDigit (n / unit % 16)
  ['\\', 'u', digit 4096, digit 256, digit 16, digit 1]

/-- How a character stands inside a string. -/
def escape (c : Char) : List Char :=
  match c with
  | '"' => ['\\', '"']
  | '\\' => ['\\', '\\']
  | '\n' => ['\\', 'n']
  | '\r' => ['\\', 'r']
  | '\t' => ['\\', 't']
  | '\x08' => ['\\', 'b']
  | '\x0c' => ['\\', 'f']
  | c => if c.toNat < 0x20 then unicodeEscape c else [c]

/-- The characters that are not written plainly in HTML-safe text. -/
def isHtmlSensitive (c : Char) : Bool :=
  c == '<' || c == '>' || c == '&' || c == '\u2028' || c == '\u2029'

def escapeHtml (c : Char) : List Char := if isHtmlSensitive c then unicodeEscape c else escape c

section Render

variable (escaping : Char → List Char)

def renderString (text : String) : List Char :=
  '"' :: text.toList.flatMap escaping ++ ['"']

/-- The text of a real number, through the nearest double when there is one. -/
def renderReal (value : Decimal) : List Char :=
  ((value.toFloat?.bind Decimal.ofFloat?).getD value).jsonText

mutual

def render : Json → List Char
  | null => ['n', 'u', 'l', 'l']
  | bool true => ['t', 'r', 'u', 'e']
  | bool false => ['f', 'a', 'l', 's', 'e']
  | integer value => Decimal.intChars value
  | real value => renderReal value
  | string text => renderString escaping text
  | illegible => ['n', 'u', 'l', 'l']
  | array items => '[' :: renderItems items
  | object members => '\x7b' :: renderMembers members

/-- The items of an array and its closing bracket. -/
def renderItems : List Json → List Char
  | [] => [']']
  | [item] => render item ++ [']']
  | item :: rest => render item ++ ',' :: renderItems rest

/-- The members of an object and its closing brace. -/
def renderMembers : List (String × Json) → List Char
  | [] => ['\x7d']
  | [(name, value)] => renderString escaping name ++ ':' :: render value ++ ['\x7d']
  | (name, value) :: rest =>
    renderString escaping name ++ ':' :: render value ++ ',' :: renderMembers rest

end

end Render

def text (document : Json) : String := String.ofList (render escape document)

def htmlSafe (document : Json) : String := String.ofList (render escapeHtml document)

end Json

end PipelineOperator
