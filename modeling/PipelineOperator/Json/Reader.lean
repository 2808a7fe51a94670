import PipelineOperator.Json.Basic
import PipelineOperator.Text.Hexadecimal

/-!
Reading JSON. `Lexeme.scan` cuts the text into lexemes, one character at a time, with what is still
open kept in a `Scanner`; `Json.assemble` builds the document from the lexemes on a stack of the
arrays and objects that are still open. Both recurse on their input, so neither needs a bound.

A string with half a character, a number beyond every double and an object with such a name are
illegible. A loose reading (`Json.ofLooseText?`) keeps them as that, a strict one (`Json.ofText?`)
refuses them.
-/

set_option autoImplicit false
set_option relaxedAutoImplicit false

namespace PipelineOperator

namespace Json

inductive Lexeme where
  | openArray
  | closeArray
  | openObject
  | closeObject
  | comma
  | colon
  /-- A string, unless it holds half a character. -/
  | quoted (text : Option String)
  | word (letters : List Char)
deriving DecidableEq

namespace Lexeme

/-- The characters of a string, last first; one of which there is only a half is missing. -/
abbrev Glyphs := List (Option Char)

/-- The string of the glyphs, if none is missing. -/
def Glyphs.text? (glyphs : Glyphs) : Option String := (glyphs.reverse.mapM id).map String.ofList

/-- What the characters read so far leave open. -/
inductive Scanner where
  | idle
  /-- The letters of a word, last first. -/
  | word (letters : List Char)
  | quoted (glyphs : Glyphs)
  | escaped (glyphs : Glyphs)
  /-- An escape of four digits; `high` is the first half of a pair that waits for its second. -/
  | code (glyphs : Glyphs) (high : Option Nat) (count value : Nat)
  | paired (glyphs : Glyphs) (high : Nat)
  | pairedEscape (glyphs : Glyphs) (high : Nat)

def isSpace (c : Char) : Bool := c == ' ' || c == '\n' || c == '\r' || c == '\t'

def ofMark? (c : Char) : Option Lexeme :=
  match c with
  | '[' => some openArray
  | ']' => some closeArray
  | '\x7b' => some openObject
  | '\x7d' => some closeObject
  | ',' => some comma
  | ':' => some colon
  | _ => none

def unescape? (c : Char) : Option Char :=
  match c with
  | '"' => some '"'
  | '\\' => some '\\'
  | '/' => some '/'
  | 'n' => some '\n'
  | 'r' => some '\r'
  | 't' => some '\t'
  | 'b' => some '\x08'
  | 'f' => some '\x0c'
  | _ => none

/-- A character outside words and strings. -/
def startAt (c : Char) : Scanner × List Lexeme :=
  if isSpace c then (.idle, [])
  else if c = '"' then (.quoted [], [])
  else match ofMark? c with
    | some mark => (.idle, [mark])
    | none => (.word [c], [])

/-- The four digits of an escape are complete: a character, the first half of a pair, or its
second half. -/
def finishCode (glyphs : Glyphs) (high : Option Nat) (value : Nat) : Scanner :=
  match high with
  | none =>
    if 0xD800 ≤ value ∧ value < 0xDC00 then .paired glyphs value
    else if 0xDC00 ≤ value ∧ value < 0xE000 then .quoted (none :: glyphs)
    else .quoted (some (Char.ofNat value) :: glyphs)
  | some first =>
    if 0xDC00 ≤ value ∧ value < 0xE000 then
      .quoted (some (Char.ofNat (0x10000 + (first - 0xD800) * 0x400 + (value - 0xDC00))) :: glyphs)
    else .quoted (none :: glyphs)

/-- A character inside a string. -/
def stepQuoted (glyphs : Glyphs) (c : Char) : Option (Scanner × List Lexeme) :=
  if c = '"' then some (.idle, [quoted glyphs.text?])
  else if c = '\\' then some (.escaped glyphs, [])
  else if c.toNat < 0x20 then none
  else some (.quoted (some c :: glyphs), [])

/-- The character after a backslash. -/
def stepEscaped (glyphs : Glyphs) (c : Char) : Option (Scanner × List Lexeme) :=
  if c = 'u' then some (.code glyphs none 0 0, [])
  else (unescape? c).map (fun d ↦ (.quoted (some d :: glyphs), []))

def step (scanner : Scanner) (c : Char) : Option (Scanner × List Lexeme) :=
  match scanner with
  | .idle => some (startAt c)
  | .word letters =>
    if isSpace c || c == '"' || (ofMark? c).isSome then
      let (next, lexemes) := startAt c
      some (next, word letters.reverse :: lexemes)
    else some (.word (c :: letters), [])
  | .quoted glyphs => stepQuoted glyphs c
  | .escaped glyphs => stepEscaped glyphs c
  | .code glyphs high count value => do
    let digit ← Text.hexValue? c
    let value := 16 * value + digit
    if count = 3 then return (finishCode glyphs high value, [])
    else return (.code glyphs high (count + 1) value, [])
  | .paired glyphs high =>
    if c = '\\' then some (.pairedEscape glyphs high, []) else stepQuoted (none :: glyphs) c
  | .pairedEscape glyphs high =>
    if c = 'u' then some (.code glyphs (some high) 0 0, []) else stepEscaped (none :: glyphs) c

/-- The end of the text closes a word and nothing else. -/
def finish : Scanner → Option (List Lexeme)
  | .idle => some []
  | .word letters => some [word letters.reverse]
  | _ => none

def scan (scanner : Scanner) : List Char → Option (List Lexeme)
  | [] => finish scanner
  | c :: rest => do
    let (next, lexemes) ← step scanner c
    return lexemes ++ (← scan next rest)

end Lexeme

def digitsValue (digits : List Char) : Nat :=
  digits.foldl (fun n c ↦ 10 * n + (c.toNat - 48)) 0

/-- Appends digits to a number as long as it stays within 64 bits; what is left of them follows. -/
def takeDigits (n : Nat) : List Char → Nat × List Char
  | [] => (n, [])
  | c :: rest =>
    let next := 10 * n + (c.toNat - 48)
    if next < UInt64.size then takeDigits next rest else (n, c :: rest)

/-- A real number from the digits before and after its point. It keeps the digits that 64 bits hold;
of the others those before the point still count as places. -/
def realOf (negative : Bool) (whole places : List Char) (exponent : Int) : Json :=
  let (head, uncounted) := takeDigits 0 whole
  let (digits, left) := takeDigits head places
  let shift : Int := uncounted.length - (places.length - left.length : Nat)
  let decimal : Decimal := ⟨negative, digits, exponent + shift⟩
  if decimal.toFloat?.isSome then .real decimal else .illegible

/-- Digits without a leading zero, unless zero is all there is. -/
def isWholePart (digits : List Char) : Bool :=
  match digits with
  | [] => false
  | ['0'] => true
  | c :: _ => c != '0'

/-- The exponent after its letter: an optional sign and at least one digit. -/
def exponent? (letters : List Char) : Option Int :=
  let (negative, digits) := match letters with
    | '-' :: rest => (true, rest)
    | '+' :: rest => (false, rest)
    | rest => (false, rest)
  if digits.isEmpty || !digits.all Char.isDigit then none
  else some (if negative then -(digitsValue digits : Int) else digitsValue digits)

/-- A number after its sign. An integer beyond 64 bits and a negative zero are real numbers. -/
def unsignedNumber? (negative : Bool) (letters : List Char) : Option Json :=
  let whole := letters.takeWhile Char.isDigit
  if !isWholePart whole then none
  else
    let (fraction, tail) := match letters.dropWhile Char.isDigit with
      | '.' :: rest => (some (rest.takeWhile Char.isDigit), rest.dropWhile Char.isDigit)
      | rest => (none, rest)
    let places := fraction.getD []
    if fraction = some [] then none
    else
      let value := digitsValue whole
      let real (exponent : Int) : Option Json := some (realOf negative whole places exponent)
      match tail, fraction with
      | [], none =>
        if negative then
          if value = 0 || -(value : Int) < Int64.minValue.toInt then real 0
          else some (.integer (-(value : Int)))
        else if UInt64.size ≤ value then real 0 else some (.integer value)
      | [], some _ => real 0
      | letter :: rest, _ =>
        if letter = 'e' || letter = 'E' then (exponent? rest).bind real else none

/-- The value that a word stands for. -/
def ofWord? (letters : List Char) : Option Json :=
  match letters with
  | ['n', 'u', 'l', 'l'] => some .null
  | ['t', 'r', 'u', 'e'] => some (.bool true)
  | ['f', 'a', 'l', 's', 'e'] => some (.bool false)
  | '-' :: rest => unsignedNumber? true rest
  | rest => unsignedNumber? false rest

/-- An array or object that is still open, its parts last first. -/
inductive Frame where
  | array (items : List Json)
  | object (members : List (String × Json)) (name : String)
  /-- An object with an illegible name. -/
  | spoilt

/-- What may come next. -/
inductive Expectation where
  | value
  | valueOrClose
  | nameOrClose
  | name
  | colon (name : Option String)
  | separator

structure Assembly where
  frames : List Frame
  expect : Expectation
  result : Option Json

namespace Assembly

def start : Assembly := ⟨[], .value, none⟩

/-- A complete value goes into the innermost open frame, or is the document. -/
def place (frames : List Frame) (value : Json) : Assembly :=
  match frames with
  | [] => ⟨[], .separator, some value⟩
  | .array items :: rest => ⟨.array (value :: items) :: rest, .separator, none⟩
  | .object members name :: rest =>
    ⟨.object ((name, value) :: members) name :: rest, .separator, none⟩
  | .spoilt :: rest => ⟨.spoilt :: rest, .separator, none⟩

def acceptValue (frames : List Frame) : Lexeme → Option Assembly
  | .openArray => some ⟨.array [] :: frames, .valueOrClose, none⟩
  | .openObject => some ⟨.object [] "" :: frames, .nameOrClose, none⟩
  | .quoted (some text) => some (place frames (.string text))
  | .quoted none => some (place frames .illegible)
  | .word letters => (ofWord? letters).map (place frames)
  | _ => none

def acceptName (frames : List Frame) : Lexeme → Option Assembly
  | .quoted name => some ⟨frames, .colon name, none⟩
  | _ => none

def close (frames : List Frame) (lexeme : Lexeme) : Option Assembly :=
  match lexeme, frames with
  | .closeArray, .array items :: rest => some (place rest (.array items.reverse))
  | .closeObject, .object members _ :: rest => some (place rest (.object members.reverse))
  | .closeObject, .spoilt :: rest => some (place rest .illegible)
  | _, _ => none

/-- A colon after a name in the innermost frame. -/
def acceptColon (frames : List Frame) (name : Option String) : Option Assembly :=
  match frames, name with
  | .object members _ :: rest, some name => some ⟨.object members name :: rest, .value, none⟩
  | .object .. :: rest, none => some ⟨.spoilt :: rest, .value, none⟩
  | .spoilt :: rest, _ => some ⟨.spoilt :: rest, .value, none⟩
  | _, _ => none

def accept (state : Assembly) (lexeme : Lexeme) : Option Assembly :=
  match state.expect with
  | .value => acceptValue state.frames lexeme
  | .valueOrClose =>
    if lexeme = .closeArray then close state.frames lexeme else acceptValue state.frames lexeme
  | .nameOrClose =>
    if lexeme = .closeObject then close state.frames lexeme else acceptName state.frames lexeme
  | .name => acceptName state.frames lexeme
  | .colon name => if lexeme = .colon then acceptColon state.frames name else none
  | .separator =>
    match lexeme, state.frames with
    | .comma, .array _ :: _ => some ⟨state.frames, .value, none⟩
    | .comma, .object .. :: _ => some ⟨state.frames, .name, none⟩
    | .comma, .spoilt :: _ => some ⟨state.frames, .name, none⟩
    | _, _ => close state.frames lexeme

end Assembly

def assemble (state : Assembly) : List Lexeme → Option Json
  | [] => state.result
  | lexeme :: rest => (state.accept lexeme).bind (fun next ↦ assemble next rest)

/-- Reads a whole text as one document, parts of which may be illegible. -/
def ofLooseChars? (chars : List Char) : Option Json :=
  (Lexeme.scan .idle chars).bind (assemble Assembly.start)

def ofLooseText? (text : String) : Option Json := ofLooseChars? text.toList

/-- Reads a whole text as one document that is legible throughout. -/
def ofText? (text : String) : Option Json := (ofLooseText? text).filter isLegible

end Json

end PipelineOperator
