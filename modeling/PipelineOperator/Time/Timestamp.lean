import PipelineOperator.Text.Split
import PipelineOperator.Time.Instant

/-!
Timestamps: the texts from which points in time are read. A timestamp is a date, a time of day, an
offset from universal time, and notes in brackets that do not change the time. Date, time and offset
are each written in the extended form, with marks between their parts, or in the basic form without,
and of time and offset only the hours have to be given. Every reader takes a part off the front of a
text and leaves the rest.
-/

set_option autoImplicit false
set_option relaxedAutoImplicit false

namespace PipelineOperator

namespace Timestamp

/-- A number of exactly so many digits, up to a bound. -/
def number? (count bound : Nat) (chars : List Char) : Option (Nat × List Char) :=
  let digits := chars.take count
  let value := digits.foldl (fun n c ↦ 10 * n + (c.toNat - 48)) 0
  if digits.length = count ∧ digits.all Char.isDigit ∧ value ≤ bound then
    some (value, chars.drop count)
  else none

def mark? (marks : List Char) : List Char → Option (List Char)
  | c :: rest => if c ∈ marks then some rest else none
  | [] => none

/-- A year has four digits, or a sign and six. Year zero is not negative. -/
def year? : List Char → Option (Int × List Char)
  | '+' :: rest => (number? 6 9999 rest).map (fun (n, rest) ↦ ((n : Int), rest))
  | '-' :: rest =>
    (number? 6 9999 rest).bind (fun (n, rest) ↦ if n = 0 then none else some (-(n : Int), rest))
  | chars => (number? 4 9999 chars).map (fun (n, rest) ↦ ((n : Int), rest))

/-- The date is extended if a hyphen follows the year. -/
def date? (chars : List Char) : Option (Date × List Char) := do
  let (year, rest) ← year? chars
  let extended := rest.head? = some '-'
  let next (chars : List Char) : Option (List Char) :=
    if extended then mark? ['-'] chars else some chars
  let (month, rest) ← number? 2 12 (← next rest)
  let (day, rest) ← number? 2 31 (← next rest)
  let date : Date := ⟨year, month, day⟩
  if date.isValid then some (date, rest) else none

/-- A fraction of a second in nanoseconds, of one to nine digits after a point or a comma. -/
def fraction? (chars : List Char) : Option (Nat × List Char) :=
  match mark? ['.', ','] chars with
  | none => some (0, chars)
  | some rest =>
    let digits := (rest.take 9).takeWhile Char.isDigit
    (number? digits.length 999999999 rest).bind (fun (n, rest) ↦
      if digits.isEmpty then none else some (n * Nat.pow 10 (9 - digits.length), rest))

/-- Hours, and as many of the finer parts as are given. -/
structure Clock where
  hours : Nat
  minutes : Nat := 0
  seconds : Nat := 0
  nanos : Nat := 0

/-- How far a clock may go. -/
structure ClockBounds where
  hours : Nat
  seconds : Option Nat

/-- A time of day. It may name a leap second. -/
def timeOfDay : ClockBounds := ⟨23, some 60⟩

def offsetBounds : ClockBounds := ⟨25, some 59⟩

/-- Offsets in notes end with the minutes. -/
def noteBounds : ClockBounds := ⟨25, none⟩

/-- The text of the next part of a clock if there is one: after a colon in the extended form, at
once in the basic form. -/
def nextPart? (extended : Bool) (chars : List Char) : Option (List Char) :=
  if extended then mark? [':'] chars
  else if 2 ≤ chars.length ∧ (chars.take 2).all Char.isDigit then some chars
  else none

def clock? (bounds : ClockBounds) (chars : List Char) : Option (Clock × List Char) := do
  let (hours, rest) ← number? 2 bounds.hours chars
  let extended := rest.head? = some ':'
  match nextPart? extended rest with
  | none => return ({ hours }, rest)
  | some rest =>
    let (minutes, rest) ← number? 2 59 rest
    match bounds.seconds, nextPart? extended rest with
    | some bound, some rest =>
      let (seconds, rest) ← number? 2 bound rest
      let (nanos, rest) ← fraction? rest
      return ({ hours, minutes, seconds, nanos }, rest)
    | _, _ => return ({ hours, minutes }, rest)

/-- Whole seconds of a clock. -/
def Clock.total (c : Clock) : Nat := 60 * (60 * c.hours + c.minutes) + c.seconds

/-- Seconds ahead of universal time. Half a second counts as a whole one. -/
def offset? : List Char → Option (Int × List Char)
  | sign :: rest =>
    if sign = 'Z' || sign = 'z' then some (0, rest)
    else if sign = '+' || sign = '-' then do
      let (clock, rest) ← clock? offsetBounds rest
      let total := clock.total + if 500000000 ≤ clock.nanos then 1 else 0
      if total < 26 * 3600 then some (if sign = '-' then -(total : Int) else total, rest) else none
    else none
  | [] => none

/-- One part of the name of a time zone. -/
def isZoneWord : List Char → Bool
  | [] => false
  | c :: rest =>
    (c.isAlpha || c == '.' || c == '_') &&
      rest.all (fun d ↦ d.isAlphanum || d ∈ ['.', '_', '-', '+'])

/-- A note that names a time zone, or gives its offset. -/
def isZone (note : List Char) : Bool :=
  let zone := if note.head? = some '!' then note.drop 1 else note
  if zone.head? = some '+' || zone.head? = some '-' then
    match clock? noteBounds (zone.drop 1) with
    | some (_, rest) => rest.isEmpty
    | none => false
  else (Text.split '/' zone).all isZoneWord

/-- A note with a key and a value. One that insists on being understood is not. -/
def isRemark (note : List Char) : Bool :=
  match note.takeWhile (· ≠ '='), note.dropWhile (· ≠ '=') with
  | c :: key, _ :: value =>
    (c.isLower || c == '_') &&
      key.all (fun d ↦ d.isLower || d.isDigit || d == '_' || d == '-') &&
      (Text.split '-' value).all (fun word ↦ !word.isEmpty && word.all Char.isAlphanum)
  | _, _ => false

/-- The notes at the end of a timestamp, each in brackets. -/
def notes? (chars : List Char) : Option (List (List Char)) :=
  match (Text.split ']' chars).reverse with
  | [] :: notes => notes.reverse.mapM (mark? ['['])
  | _ => none

/-- Only the first note may be a time zone. -/
def admits : List (List Char) → Bool
  | [] => true
  | first :: rest => (isZone first || isRemark first) && rest.all isRemark

/-- The seconds of the first and of the last point in time that can be written. -/
def earliest : Int := Date.toDays ⟨-9999, 1, 2⟩ * 86400 + 7199

def latest : Int := Date.toDays ⟨9999, 12, 30⟩ * 86400 + 79200

end Timestamp

namespace Instant

open Timestamp

/-- Reads a whole text as a timestamp. A leap second is taken for the second before it. -/
def ofText? (text : String) : Option Instant := do
  let (date, rest) ← date? text.toList
  let (clock, rest) ← clock? timeOfDay (← mark? ['T', 't', ' '] rest)
  let (offset, rest) ← offset? rest
  if !admits (← notes? rest) then none
  else
    let ofDay := { clock with seconds := min clock.seconds 59 }.total
    let seconds := date.toDays * 86400 + ofDay - offset
    if earliest ≤ seconds ∧ seconds ≤ latest then some ⟨seconds, clock.nanos⟩ else none

end Instant

end PipelineOperator
