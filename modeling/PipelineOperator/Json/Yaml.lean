import PipelineOperator.Json.Text

/-!
Documents in the block style of YAML: a line for each member and item, nesting shown by indentation.
A text stands plainly where it cannot be taken for anything else, in single quotes where it could,
and as a block of its own where it has several lines.
-/

set_option autoImplicit false
set_option relaxedAutoImplicit false

namespace PipelineOperator

namespace Yaml

/-- Words that stand for truth values or nothing. -/
def reserved : List String :=
  ["null", "Null", "NULL", "~", "true", "True", "TRUE", "false", "False", "FALSE", "y", "Y", "yes",
    "Yes", "YES", "n", "N", "no", "No", "NO", "on", "On", "ON", "off", "Off", "OFF"]

/-- The text could be taken for a number. -/
def isNumeric (chars : List Char) : Bool :=
  chars.any Char.isDigit && chars.all (fun c ↦ c.isDigit || c ∈ ['+', '-', '.', 'e', 'E'])

/-- Characters that begin something other than a plain text. -/
def indicators : List Char :=
  ['#', ',', '[', ']', '\x7b', '\x7d', '&', '*', '!', '|', '>', '\'', '"', '%', '@', '\x60']

/-- The rest of a text begins with a blank, or there is none. -/
def atBlank : List Char → Bool
  | [] => true
  | c :: _ => c == ' '

/-- No colon ends a word and no number sign begins one. -/
def isUndivided : List Char → Bool
  | ':' :: rest => !atBlank rest && isUndivided rest
  | ' ' :: '#' :: _ => false
  | _ :: rest => isUndivided rest
  | [] => true

def startsPlainly : List Char → Bool
  | [] => false
  | c :: rest =>
    c ∉ indicators && c != ' ' && !(c ∈ ['-', '?', ':'] && atBlank rest)

/-- The text needs no quotes. -/
def isPlain (text : String) : Bool :=
  let chars := text.toList
  startsPlainly chars && isUndivided chars && chars.getLast? != some ' ' && text ∉ reserved &&
    !isNumeric chars && !("---".toList.isPrefixOf chars) && !("...".toList.isPrefixOf chars)

/-- In single quotes a quote is written twice. -/
def quoted (text : String) : String :=
  "'" ++ String.ofList (text.toList.flatMap (fun c ↦ if c = '\'' then [c, c] else [c])) ++ "'"

def lineText (text : String) : String := if isPlain text then text else quoted text

def indent (lines : List String) : List String :=
  lines.map (fun line ↦ if line = "" then "" else "  " ++ line)

/-- How a value is written after what introduces it: on the line itself, as a block of lines that
are to be indented, or as items that need no further indentation. -/
inductive Layout where
  | inline (text : String)
  | literal (lines : List String)
  | mapping (lines : List String)
  | sequence (lines : List String)

namespace Layout

/-- Behind the name of a member. -/
def member (name : String) : Layout → List String
  | inline text => [name ++ ": " ++ text]
  | literal lines => (name ++ ": |-") :: indent lines
  | mapping lines => (name ++ ":") :: indent lines
  | sequence lines => (name ++ ":") :: lines

/-- The lines of an item: its first stands behind the dash. -/
def dashed : List String → List String
  | [] => ["-"]
  | line :: rest => ("- " ++ line) :: indent rest

/-- As an item of a sequence. -/
def item : Layout → List String
  | inline text => ["- " ++ text]
  | literal lines => "- |-" :: indent lines
  | mapping lines => dashed lines
  | sequence lines => dashed lines

/-- On its own. -/
def lines : Layout → List String
  | inline text => [text]
  | literal lines => "|-" :: indent lines
  | mapping lines => lines
  | sequence lines => lines

end Layout

mutual

def layout : Json → Layout
  | .string text =>
    if '\n' ∈ text.toList then .literal (text.splitOn "\n") else .inline (lineText text)
  | .array [] => .inline "[]"
  | .array items => .sequence (itemLines items)
  | .object [] => .inline "\x7b\x7d"
  | .object members => .mapping (memberLines members)
  | scalar => .inline scalar.text

def itemLines : List Json → List String
  | [] => []
  | item :: rest => (layout item).item ++ itemLines rest

def memberLines : List (String × Json) → List String
  | [] => []
  | (name, value) :: rest => (layout value).member (lineText name) ++ memberLines rest

end

/-- The document, each line with its end. -/
def text (document : Json) : String :=
  String.join ((layout document).lines.map (· ++ "\n"))

end Yaml

end PipelineOperator
