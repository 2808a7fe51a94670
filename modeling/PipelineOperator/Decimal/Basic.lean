/-!
Decimal numbers, written as digits times a power of ten, and their texts. A text is positional
(`Decimal.positional`) or, in JSON documents, positional for exponents of moderate size and
scientific beyond (`Decimal.jsonText`).
-/

set_option autoImplicit false
set_option relaxedAutoImplicit false

namespace PipelineOperator

/-- The number `±digits · 10 ^ exponent`. -/
structure Decimal where
  negative : Bool := false
  digits : Nat
  exponent : Int
deriving DecidableEq

namespace Decimal

/-- The decimal digits of a natural number, most significant first. -/
def digitChars (n : Nat) : List Char := Nat.toDigits 10 n

def intChars (n : Int) : List Char :=
  if n < 0 then '-' :: digitChars n.natAbs else digitChars n.natAbs

private def sign (d : Decimal) : List Char := if d.negative then ['-'] else []

private def zeros (n : Nat) : List Char := List.replicate n '0'

/-- Digits without an exponent; a point stands only before a fraction. -/
def positional (d : Decimal) : List Char :=
  let digits := digitChars d.digits
  if 0 ≤ d.exponent then
    d.sign ++ if d.digits = 0 then ['0'] else digits ++ zeros d.exponent.toNat
  else
    let places := d.exponent.natAbs
    let padded := zeros (places + 1 - digits.length) ++ digits
    d.sign ++ padded.take (padded.length - places) ++ '.' :: padded.drop (padded.length - places)

/-- An exponent carries its sign. -/
private def exponentChars (n : Int) : List Char := if 0 ≤ n then '+' :: intChars n else intChars n

/-- The text of a real number in a JSON document: a point or an exponent is always written, and
the point stands among the digits as long as it is within sixteen places to the right or five to
the left of the first digit. -/
def jsonText (d : Decimal) : List Char :=
  let digits := digitChars d.digits
  let point : Int := digits.length + d.exponent
  if d.digits = 0 then d.sign ++ ['0', '.', '0']
  else if 0 ≤ d.exponent ∧ point ≤ 16 then
    d.sign ++ digits ++ zeros d.exponent.toNat ++ ['.', '0']
  else if 0 < point ∧ point ≤ 16 then
    d.sign ++ digits.take point.toNat ++ '.' :: digits.drop point.toNat
  else if -5 < point ∧ point ≤ 0 then
    d.sign ++ ['0', '.'] ++ zeros point.natAbs ++ digits
  else
    let fraction := if digits.length = 1 then [] else '.' :: digits.drop 1
    d.sign ++ digits.take 1 ++ fraction ++ 'e' :: exponentChars (point - 1)

/-- A character that occurs in the JSON texts of numbers. -/
def IsNumeral (c : Char) : Prop := c.isDigit = true ∨ c ∈ ['-', '+', '.', 'e']

theorem isNumeral_digitChars (n : Nat) : ∀ c ∈ digitChars n, IsNumeral c :=
  fun _ hc ↦ .inl (Nat.isDigit_of_mem_toDigits (by decide) (by decide) hc)

theorem isNumeral_intChars (n : Int) : ∀ c ∈ intChars n, IsNumeral c := by
  unfold intChars
  split
  · exact List.forall_mem_cons.mpr ⟨.inr (by decide), isNumeral_digitChars _⟩
  · exact isNumeral_digitChars _

theorem isNumeral_jsonText (d : Decimal) : ∀ c ∈ d.jsonText, IsNumeral c := by
  have hsign : ∀ c ∈ d.sign, IsNumeral c := by
    unfold sign
    split <;> simp [IsNumeral]
  have hzeros (n : Nat) : ∀ c ∈ zeros n, IsNumeral c := fun c hc ↦
    .inl ((List.mem_replicate.mp hc).2 ▸ rfl)
  have hexponent (n : Int) : ∀ c ∈ exponentChars n, IsNumeral c := by
    unfold exponentChars
    split
    · exact List.forall_mem_cons.mpr ⟨.inr (by decide), isNumeral_intChars n⟩
    · exact isNumeral_intChars n
  have hdigits := isNumeral_digitChars d.digits
  have htake (n : Nat) : ∀ c ∈ (digitChars d.digits).take n, IsNumeral c :=
    fun c hc ↦ hdigits c (List.mem_of_mem_take hc)
  have hdrop (n : Nat) : ∀ c ∈ (digitChars d.digits).drop n, IsNumeral c :=
    fun c hc ↦ hdigits c (List.mem_of_mem_drop hc)
  have hpoint : IsNumeral '.' := .inr (by decide)
  have hzero : IsNumeral '0' := .inl rfl
  have he : IsNumeral 'e' := .inr (by decide)
  simp only [jsonText]
  split
  · simp only [List.forall_mem_append, List.forall_mem_cons]
    exact ⟨hsign, hzero, hpoint, hzero, nofun⟩
  split
  · simp only [List.forall_mem_append, List.forall_mem_cons]
    exact ⟨⟨⟨hsign, hdigits⟩, hzeros _⟩, hpoint, hzero, nofun⟩
  split
  · simp only [List.forall_mem_append, List.forall_mem_cons]
    exact ⟨⟨hsign, htake _⟩, hpoint, hdrop _⟩
  split
  · simp only [List.forall_mem_append, List.forall_mem_cons]
    exact ⟨⟨⟨hsign, hzero, hpoint, nofun⟩, hzeros _⟩, hdigits⟩
  · simp only [List.forall_mem_append, List.forall_mem_cons]
    refine ⟨⟨⟨hsign, htake 1⟩, ?_⟩, he, hexponent _⟩
    split
    · exact nofun
    · exact List.forall_mem_cons.mpr ⟨hpoint, hdrop 1⟩

example : (⟨false, 15, -1⟩ : Decimal).positional = ['1', '.', '5'] := by decide
example : (⟨false, 5, -2⟩ : Decimal).positional = ['0', '.', '0', '5'] := by decide
example : (⟨true, 12, 2⟩ : Decimal).positional = ['-', '1', '2', '0', '0'] := by decide
example : (⟨false, 0, 0⟩ : Decimal).jsonText = ['0', '.', '0'] := by decide
example : (⟨false, 1, 16⟩ : Decimal).jsonText = ['1', 'e', '+', '1', '6'] := by decide
example : (⟨false, 25, -9⟩ : Decimal).jsonText = ['2', '.', '5', 'e', '-', '8'] := by decide

private def power (n : Nat) : Float := Float.ofScientific 1 false n

/-- The double that the decimal is read as, or `none` beyond the range of doubles: the digits as a
double, times or over one power of ten, or over two for a very small number. Each of these steps
rounds, so the result may be off the nearest double by a little. -/
def toFloat? (d : Decimal) : Option Float :=
  let digits := Float.ofScientific d.digits false 0
  let shift := d.exponent.natAbs
  let magnitude? :=
    if d.digits = 0 ∨ d.exponent < -616 then some 0.0
    else if d.exponent < -308 then some (digits / power 308 / power (shift - 308))
    else if d.exponent < 0 then some (digits / power shift)
    else if d.exponent ≤ 308 then some (digits * power shift)
    else none
  (magnitude?.filter Float.isFinite).map (fun x ↦ if d.negative then -x else x)

end Decimal

end PipelineOperator
