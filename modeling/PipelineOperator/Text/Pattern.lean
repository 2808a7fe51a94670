import PipelineOperator.Text.Blank
import PipelineOperator.Text.Hexadecimal
import PipelineOperator.Text.Letter

/-!
Patterns: which texts are regular expressions. `Pattern.isValid` reads a text part by part and keeps
what is still open in an `Outline`: the groups, their names, the mode set by flags, and whether
there is something before that may be repeated. Counts and names in braces are not read, since a
pattern is cut off at the first closing brace: outside of a class an opening one makes no pattern.
Neither does a question for the edges of words in all scripts.
-/

set_option autoImplicit false
set_option relaxedAutoImplicit false

namespace PipelineOperator

namespace Pattern

/-- What flags change about the reading of a pattern. -/
structure Mode where
  /-- Blanks count for nothing, and comments run from a number sign to the end of the line. -/
  spaced : Bool := false
  /-- Classes hold characters of all scripts. -/
  unicode : Bool := true
deriving DecidableEq

namespace Mode

def skipSpace (comment : Bool) : List Char → List Char
  | [] => []
  | c :: rest =>
    if comment then skipSpace (c != '\n') rest
    else if Text.isBlank c then skipSpace false rest
    else if c = '#' then skipSpace true rest
    else c :: rest

/-- Passes over what counts for nothing. -/
def skip (m : Mode) (chars : List Char) : List Char :=
  if m.spaced then skipSpace false chars else chars

/-- The character can be in a class. -/
def admits (m : Mode) (c : Char) : Bool := m.unicode || c.toNat < 128

end Mode

/-- One part of a pattern. -/
inductive Atom where
  | char (c : Char)
  /-- One of several characters. -/
  | set
  /-- A place between characters. -/
  | place
deriving DecidableEq

/-- The part can be in a class, where places make no sense. -/
def Mode.admitsAtom (m : Mode) : Atom → Bool
  | .char c => m.admits c
  | .set => true
  | .place => false

/-- Reads digits up to a count, each after space that counts for nothing. -/
def hexDigits? (m : Mode) : Nat → Nat → List Char → Option (Nat × List Char)
  | 0, value, rest => some (value, rest)
  | count + 1, value, chars =>
    match m.skip chars with
    | [] => none
    | c :: rest => do hexDigits? m count (16 * value + (← Text.hexValue? c)) rest

/-- A character by the number that its digits give. -/
def coded? (m : Mode) (digits : Nat) (chars : List Char) : Option (Atom × List Char) := do
  let (value, rest) ← hexDigits? m digits 0 chars
  if h : value.isValidChar then return (.char (Char.ofNatAux value h), rest) else none

/-- The categories of characters that have a name of one letter. -/
def isCategory (c : Char) : Bool := c.toLower ∈ ['c', 'l', 'm', 'n', 'p', 's', 'z']

/-- What stands after a backslash. Marks may all be escaped, letters only if they mean something. -/
def escape? (m : Mode) : List Char → Option (Atom × List Char)
  | [] => none
  | c :: rest =>
    if c ∈ ['d', 's', 'w'] then some (.set, rest)
    else if c ∈ ['D', 'S', 'W'] then if m.unicode then some (.set, rest) else none
    else if c ∈ ['p', 'P'] then
      match m.skip rest with
      | name :: rest => if m.unicode && isCategory name then some (.set, rest) else none
      | [] => none
    else if c ∈ ['b', 'B', '<', '>'] then if m.unicode then none else some (.place, rest)
    else if c ∈ ['A', 'z'] then some (.place, rest)
    else if c = 'x' then (coded? m 2 rest).filter (fun (a, _) ↦ m.admitsAtom a)
    else if c = 'u' then coded? m 4 rest
    else if c = 'U' then coded? m 8 rest
    else if c ∈ ['a', 'f', 't', 'n', 'r', 'v'] then some (.char c, rest)
    else if c.isAlphanum || 128 ≤ c.toNat then none
    else some (.char c, rest)

/-! ### Classes -/

def classNames : List String :=
  ["alnum", "alpha", "ascii", "blank", "cntrl", "digit", "graph", "lower", "print", "punct",
    "space", "upper", "word", "xdigit"]

/-- A class by its name between colons, after its opening bracket; whether it is negated, and the
rest. -/
def namedClass? : List Char → Option (Bool × List Char)
  | ':' :: chars =>
    let (negated, chars) := match chars with
      | '^' :: rest => (true, rest)
      | other => (false, other)
    match chars.dropWhile (· ≠ ':') with
    | ':' :: ']' :: rest =>
      if String.ofList (chars.takeWhile (· ≠ ':')) ∈ classNames then some (negated, rest) else none
    | _ => none
  | _ => none

def dropDashes (m : Mode) : Nat → List Char → List Char
  | fuel + 1, '-' :: rest => dropDashes m fuel (m.skip rest)
  | _, chars => chars

/-- What stands after the opening bracket of a class up to its first item: a negation, and dashes or
else a closing bracket that stand for themselves. -/
def openClass? (m : Mode) (chars : List Char) : Option (List Char) :=
  let chars := m.skip chars
  let inner := if chars.head? = some '^' then m.skip (chars.drop 1) else chars
  if chars.head? = some '^' && !m.unicode then none
  else match inner with
    | ']' :: rest => some rest
    | _ => some (dropDashes m inner.length inner)

/-- One item of a class. -/
def classItem? (m : Mode) : List Char → Option (Atom × List Char)
  | [] => none
  | '\\' :: rest => (escape? m rest).filter (fun (a, _) ↦ m.admitsAtom a)
  | c :: rest => if m.admits c then some (.char c, rest) else none

/-- An item of a class or a range of characters, which does not run backwards. -/
def classRange? (m : Mode) (chars : List Char) : Option (List Char) := do
  let (first, rest) ← classItem? m chars
  match m.skip rest with
  | [] => none
  | '-' :: after =>
    match m.skip after with
    | ']' :: _ => return '-' :: after
    | '-' :: _ => return '-' :: after
    | after =>
      let (last, rest) ← classItem? m after
      match first, last with
      | .char c, .char d => if c ≤ d then return rest else none
      | _, _ => none
  | rest => return rest

/-- Reads on inside of some brackets, to the end of the outermost. -/
def closeClass? (m : Mode) : Nat → Nat → List Char → Option (List Char)
  | 0, _, _ => none
  | fuel + 1, brackets, chars =>
    match m.skip chars with
    | ']' :: rest => if brackets ≤ 1 then some rest else closeClass? m fuel (brackets - 1) rest
    | '[' :: rest =>
      match namedClass? rest with
      | some (negated, rest) =>
        if negated && !m.unicode then none else closeClass? m fuel brackets rest
      | none => (openClass? m rest).bind (closeClass? m fuel (brackets + 1))
    | '&' :: '&' :: rest => closeClass? m fuel brackets rest
    | '-' :: '-' :: rest => closeClass? m fuel brackets rest
    | '~' :: '~' :: rest => closeClass? m fuel brackets rest
    | chars => (classRange? m chars).bind (closeClass? m fuel brackets)

/-! ### Groups -/

/-- What the part of a pattern read so far leaves open. -/
structure Outline where
  mode : Mode := {}
  /-- The modes around the open groups, the innermost first. -/
  groups : List Mode := []
  names : List (List Char) := []
  repeatable : Bool := false

namespace Outline

/-- A group is opened. -/
def enter (o : Outline) (mode : Mode) : Outline :=
  { o with mode, groups := o.mode :: o.groups, repeatable := false }

/-- The innermost group is closed. -/
def leave (o : Outline) : Option Outline :=
  match o.groups with
  | [] => none
  | mode :: groups => some { o with mode, groups, repeatable := true }

/-- A part that can be repeated has been read. -/
def afterPart (o : Outline) : Outline := { o with repeatable := true }

end Outline

/-- The name of a group begins with an underscore or a letter; no two groups have the same. -/
def isName (names : List (List Char)) (name : List Char) : Bool :=
  name ∉ names && name.all (fun c ↦ c ∈ ['_', '.', '[', ']'] || Text.isLetterOrDigit c) &&
    name.head?.any (fun c ↦ c = '_' || Text.isLetterOrDigit c && !c.isDigit)

def isFlag (c : Char) : Bool := c ∈ ['i', 'm', 's', 'u', 'U', 'R', 'x']

/-- Flags, of which those after a dash are taken away. None is given twice, and something follows
the dash. -/
def areFlags (flags : List Char) : Bool :=
  flags.all (fun c ↦ c = '-' || isFlag c) && flags.eraseDups.length = flags.length &&
    flags.getLast? ≠ some '-'

/-- The mode after flags. -/
def Mode.update (m : Mode) (flags : List Char) : Mode :=
  let given := flags.takeWhile (· ≠ '-')
  { spaced := if 'x' ∈ flags then 'x' ∈ given else m.spaced
    unicode := if 'u' ∈ flags then 'u' ∈ given else m.unicode }

/-- What stands after an opening parenthesis and before the content of the group. Flags without a
colon hold for the rest of the group around them. -/
def openGroup? (o : Outline) (chars : List Char) : Option (Outline × List Char) :=
  let named (chars : List Char) : Option (Outline × List Char) :=
    let name := chars.takeWhile (· ≠ '>')
    match chars.dropWhile (· ≠ '>') with
    | _ :: rest =>
      if isName o.names name then some ({ o with names := name :: o.names }.enter o.mode, rest)
      else none
    | [] => none
  match o.mode.skip chars with
  | '?' :: 'P' :: '<' :: rest => named rest
  | '?' :: '<' :: rest => named rest
  | '?' :: chars =>
    let isEnd (c : Char) : Bool := c == ':' || c == ')'
    let flags := chars.takeWhile (!isEnd ·)
    let mode := o.mode.update flags
    if !areFlags flags then none
    else match chars.dropWhile (!isEnd ·) with
      | ':' :: rest => some (o.enter mode, rest)
      | ')' :: rest =>
        if flags.isEmpty then none else some ({ o with mode, repeatable := false }, rest)
      | _ => none
  | rest => some (o.enter o.mode, rest)

/-! ### Patterns -/

/-- Reads the next part, which begins with a character. -/
def step (o : Outline) (c : Char) (rest : List Char) : Option (Outline × List Char) :=
  match c with
  | '(' => openGroup? o rest
  | ')' => o.leave.map (fun o ↦ (o, rest))
  | '|' => some ({ o with repeatable := false }, rest)
  | '[' => do
    let inner ← openClass? o.mode rest
    return (o.afterPart, ← closeClass? o.mode (inner.length + 1) 1 inner)
  | '*' | '+' | '?' =>
    let rest := if rest.head? = some '?' then rest.drop 1 else rest
    if o.repeatable then some (o, rest) else none
  | '\x7b' => none
  | '\\' => (escape? o.mode rest).map (fun (_, rest) ↦ (o.afterPart, rest))
  | '.' => if o.mode.unicode then some (o.afterPart, rest) else none
  | _ => some (o.afterPart, rest)

/-- Reads on to the end, in so many steps at most. -/
def readsOn : Nat → Outline → List Char → Bool
  | 0, _, _ => false
  | fuel + 1, o, chars =>
    match o.mode.skip chars with
    | [] => o.groups.isEmpty
    | c :: rest => (step o c rest).any (fun (o, rest) ↦ readsOn fuel o rest)

/-- The text is a pattern. Every step takes a character at least. -/
def isValid (chars : List Char) : Bool := readsOn (chars.length + 1) {} chars

example : ["", "a*?b+|(c|)", "[^]a-z-]", "(?i:x)(?P<n>y)", "\\x41\\.[[:alpha:]&&b]"].all
    (fun s ↦ isValid s.toList) := by decide +kernel
example : ["(", "[", "*", "a|*", "\\b", "x)", "[z-a]", "(?)", "(?<n>)(?<n>)", "a\x7b1"].any
    (fun s ↦ isValid s.toList) = false := by decide +kernel

end Pattern

end PipelineOperator
