import PipelineOperator.Json.Basic
import PipelineOperator.Settings.Environment
import PipelineOperator.Text.Letter
import PipelineOperator.Text.Pattern

/-!
How the operator logs: in which format, and from which level on. Development logs text and details,
production logs JSON; both choices can be overridden, the level by a list of directives. A directive
names a level for the whole process, for the modules whose names begin alike, for the records with a
field, or for those within spans.
-/

set_option autoImplicit false
set_option relaxedAutoImplicit false

namespace PipelineOperator

inductive LogFormat where
  | text
  | json
deriving DecidableEq

namespace LogFormat

def name : LogFormat → String
  | text => "text"
  | json => "json"

/-- The format of a mode, unless the override names one. -/
def choose (debug : Bool) (override : Option String) : LogFormat :=
  match override.map Text.lowerAscii with
  | some "json" => json
  | some "text" => text
  | _ => if debug then text else json

end LogFormat

inductive LogLevel where
  | error
  | warn
  | info
  | debug
  | trace
deriving DecidableEq

namespace LogLevel

def name : LogLevel → String
  | error => "error"
  | warn => "warn"
  | info => "info"
  | debug => "debug"
  | trace => "trace"

/-- The level as it stands in a line of the log. -/
def tag (level : LogLevel) : String := level.name.toUpper

def rank : LogLevel → Nat
  | error => 1
  | warn => 2
  | info => 3
  | debug => 4
  | trace => 5

def ofDebug (debugMode : Bool) : LogLevel := if debugMode then debug else info

end LogLevel

structure LogRecord where
  level : LogLevel
  message : String
  fields : List (String × Json) := []

namespace LogRecord

/-- The message is a field, too. -/
def fieldNames (r : LogRecord) : List String := "message" :: r.fields.map (·.1)

end LogRecord

/-- A rank up to which records are logged, and which records it is about: those of the modules whose
names begin with a text, those with a field, and those within spans. -/
structure LogDirective where
  target : Option String := none
  field : Option String := none
  inSpans : Bool := false
  rank : Nat := 5
deriving DecidableEq

namespace LogDirective

/-- The module of the operator's own records. -/
def operatorModule : String := "edp_cd_pipeline_operator"

/-- The directive decides about a record. The operator opens no spans. -/
def concerns (d : LogDirective) (record : LogRecord) : Bool :=
  !d.inSpans && d.target.all (fun t ↦ t.toList.isPrefixOf operatorModule.toList) &&
    d.field.all (· ∈ record.fieldNames)

/-- Longer beginnings of names are more special, a field more than none, and of two fields the one
with the larger name. -/
def isAsSpecial (d e : LogDirective) : Bool :=
  let reach (d : LogDirective) : Nat := d.target.elim 0 (·.length + 1)
  if reach d = reach e then
    match e.field, d.field with
    | none, _ => true
    | some _, none => false
    | some f, some g => f ≤ g
  else reach e < reach d

/-- A level by number, with any zeros in front, or by name; zero is none at all. -/
def rank? (word : List Char) : Option Nat :=
  let digits := if word.head? = some '+' then word.drop 1 else word
  let value := digits.foldl (fun n c ↦ 10 * n + (c.toNat - 48)) 0
  if !digits.isEmpty && digits.all Char.isDigit then if value ≤ 5 then some value else none
  else match Text.lowerAscii (String.ofList word) with
    | "off" => some 0
    | "error" => some 1
    | "warn" => some 2
    | "info" => some 3
    | "debug" => some 4
    | "trace" => some 5
    | _ => none

/-- A number without a sign: digits with a point and an exponent, or one of three words. -/
def isUnsigned (chars : List Char) : Bool :=
  let mantissa := chars.takeWhile (fun c ↦ c.isDigit || c == '.')
  let exponent := (chars.dropWhile (fun c ↦ c.isDigit || c == '.')).map Char.toLower
  let power := match exponent with
    | 'e' :: sign :: rest => if sign = '+' || sign = '-' then rest else sign :: rest
    | _ => []
  Text.lowerAscii (String.ofList chars) ∈ ["inf", "infinity", "nan"] ||
    (mantissa.any Char.isDigit && mantissa.count '.' ≤ 1 &&
      (exponent.isEmpty || (!power.isEmpty && power.all Char.isDigit)))

/-- The value of a field is given by a truth value, a number or a pattern. All of the former are
patterns, too, unless a number has a plus sign. -/
def isFieldValue : List Char → Bool
  | '+' :: rest => isUnsigned rest
  | chars => Pattern.isValid chars

/-- A field, perhaps with a value after an equals sign; what follows another one is ignored. -/
def isField (field : List Char) : Bool :=
  match field.dropWhile (· ≠ '=') with
  | _ :: rest => isFieldValue (rest.takeWhile (· ≠ '='))
  | [] => true

def startsName (c : Char) : Bool := Text.isLetterOrDigit c || c == '-' || c == ':' || c == '_'

/-- Where the parts of a directive lie is found in its text without the blanks around it, but they
are cut at these places from the text with the blanks. -/
structure Cutter where
  text : List Char
  trimmed : List Char

namespace Cutter

def ofText (text : String) : Cutter := ⟨text.toList, (Text.trim text).toList⟩

/-- From a place, given by what follows it, to the end. -/
def tail (c : Cutter) (start : List Char) : List Char :=
  c.text.drop (c.trimmed.length - start.length)

/-- From a place to a later one. -/
def part (c : Cutter) (start stop : List Char) : List Char :=
  (c.tail start).take (start.length - stop.length)

/-- The level; without one everything is logged. -/
def level? (c : Cutter) (d : LogDirective) (start : List Char) : Option LogDirective :=
  let word := c.tail start
  if word.isEmpty then some d else (rank? word).map (fun rank ↦ { d with rank })

/-- What may follow a bracket. -/
def ending? (c : Cutter) (d : LogDirective) : List Char → Option LogDirective
  | [] => some d
  | '=' :: level => c.level? d level
  | _ => none

/-- The name of a span and a field, both in brackets. Only of spans can a field be asked for its
value. -/
def brackets? (c : Cutter) (target : Option String) (start : List Char) : Option LogDirective :=
  let stop := start.dropWhile (fun d ↦ d != ']' && d != '\x7b')
  let isNamed := !(c.part start stop).isEmpty
  match stop with
  | ']' :: rest => c.ending? { target, inSpans := true } rest
  | _ :: start =>
    let stop := start.dropWhile (· != '\x7d')
    let field := c.part start stop
    let inSpans := isNamed || '=' ∈ field
    match stop with
    | _ :: ']' :: rest =>
      if field.isEmpty || !isField field then none
      else c.ending? { target, field := some (String.ofList field), inSpans } rest
    | _ => none
  | [] => none

end Cutter

/-- A level for everything, or a target, a span or a field with its level. A word that is no level
is the beginning of a name of a module. -/
def ofText? (text : String) : Option LogDirective :=
  let c := Cutter.ofText text
  match c.trimmed with
  | [] => none
  | '[' :: rest => c.brackets? none rest
  | first :: _ =>
    let stop := c.trimmed.dropWhile (fun d ↦ d != '=' && d != '[')
    let target := some (String.ofList (c.part c.trimmed stop))
    if !startsName first then none
    else match stop with
      | '=' :: level => c.level? { target } level
      | _ :: rest => c.brackets? target rest
      | [] =>
        match rank? (c.tail c.trimmed) with
        | some rank => some { rank }
        | none => some { target := some text }

end LogDirective

/-- Which records are logged. -/
structure LogFilter where
  directives : List LogDirective
deriving DecidableEq

namespace LogFilter

def everything (level : LogLevel) : LogFilter := ⟨[{ rank := level.rank }]⟩

/-- Directives separated by commas; without any, only errors are logged. -/
def ofText? (text : String) : Option LogFilter := do
  let words := (text.splitOn ",").filter (· ≠ "")
  let directives ← words.mapM LogDirective.ofText?
  return if directives.isEmpty then everything .error else ⟨directives⟩

/-- The most special directive that concerns the record decides, the last of equally special ones.
-/
def admits (filter : LogFilter) (record : LogRecord) : Bool :=
  let best := (filter.directives.filter (·.concerns record)).foldl
    (fun (best : Option LogDirective) d ↦
      if best.all (fun b ↦ d.isAsSpecial b) then some d else best) none
  best.any (fun d ↦ record.level.rank ≤ d.rank)

end LogFilter

end PipelineOperator
