/-!
Text from bytes that may not be well formed. What is well formed becomes its characters, and each
longest beginning of a character that breaks off becomes one replacement character. The bytes are
read one at a time, with the beginning that waits for its next byte kept beside them.
-/

set_option autoImplicit false
set_option relaxedAutoImplicit false

namespace PipelineOperator

namespace Text

/-- The character in the place of bytes that are none. -/
def replacement : Char := '\ufffd'

/-- The beginning of a character: the bits read so far, how many bytes are missing, and the bounds
of the next one. -/
structure Beginning where
  bits : Nat
  missing : Nat
  low : Nat := 0x80
  high : Nat := 0xBF
deriving DecidableEq

/-- What a byte begins: a character of its own, a longer one, or none at all. The bounds of the
second byte keep out longer spellings than needed, halves of pairs, and what lies beyond all
characters. -/
def begin? (byte : Nat) : Except Char Beginning :=
  if byte < 0x80 then .error (Char.ofNat byte)
  else if byte < 0xC2 then .error replacement
  else if byte < 0xE0 then .ok { bits := byte - 0xC0, missing := 1 }
  else if byte < 0xF0 then
    .ok {
      bits := byte - 0xE0, missing := 2
      low := if byte = 0xE0 then 0xA0 else 0x80
      high := if byte = 0xED then 0x9F else 0xBF }
  else if byte < 0xF5 then
    .ok {
      bits := byte - 0xF0, missing := 3
      low := if byte = 0xF0 then 0x90 else 0x80
      high := if byte = 0xF4 then 0x8F else 0xBF }
  else .error replacement

/-- The characters of bytes, after the beginning of one. -/
def ofBytesAfter (open? : Option Beginning) : List Nat → List Char
  | [] => open?.toList.map (fun _ ↦ replacement)
  | byte :: rest =>
    match open? with
    | some b =>
      if b.low ≤ byte ∧ byte ≤ b.high then
        let bits := 64 * b.bits + (byte - 0x80)
        if b.missing = 1 then Char.ofNat bits :: ofBytesAfter none rest
        else ofBytesAfter (some { bits, missing := b.missing - 1 }) rest
      else
        match begin? byte with
        | .error c => replacement :: c :: ofBytesAfter none rest
        | .ok next => replacement :: ofBytesAfter (some next) rest
    | none =>
      match begin? byte with
      | .error c => c :: ofBytesAfter none rest
      | .ok next => ofBytesAfter (some next) rest

def ofBytes (bytes : List UInt8) : String :=
  String.ofList (ofBytesAfter none (bytes.map UInt8.toNat))

example : ofBytesAfter none [0xC3, 0xA9, 0xFF] = ['é', replacement] := by decide
example : ofBytesAfter none [0xE9, 0x80] = [replacement] := by decide
example : ofBytesAfter none [0xE2, 0x28, 0xA1] = [replacement, '(', replacement] := by decide
example : ofBytesAfter none [0xED, 0xA0, 0x80] = [replacement, replacement, replacement] := by
  decide

end Text

end PipelineOperator
