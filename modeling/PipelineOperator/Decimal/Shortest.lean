import PipelineOperator.Decimal.Basic

/-!
The shortest decimal that reads back as a given double. A finite double is `m · 2 ^ q`; the reals
that round to it form an interval around it, whose ends belong to it when `m` is even. The digit
counts are tried in increasing order: on the decimal grid with that many digits only the two
neighbours of the double can lie in the interval, and the nearer of those that do is taken.
-/

set_option autoImplicit false
set_option relaxedAutoImplicit false

namespace PipelineOperator

namespace Decimal

/-- A positive rational, kept as numerator and denominator. -/
structure Ratio where
  num : Nat
  den : Nat

namespace Ratio

def le (a b : Ratio) : Bool := a.num * b.den ≤ b.num * a.den
def lt (a b : Ratio) : Bool := a.num * b.den < b.num * a.den

/-- Multiplies by a power of a base. -/
def scale (a : Ratio) (base : Nat) (exponent : Int) : Ratio :=
  if 0 ≤ exponent then ⟨a.num * base.pow exponent.toNat, a.den⟩
  else ⟨a.num, a.den * base.pow exponent.natAbs⟩

def floor (a : Ratio) : Nat := a.num / a.den

/-- The power of ten of the first digit. -/
def leadingExponent (a : Ratio) : Int :=
  if a.den ≤ a.num then ((digitChars a.floor).length : Int) - 1
  else
    match (List.range 400).find? (fun s ↦ decide (a.den ≤ a.num * Nat.pow 10 (s + 1))) with
    | some s => -((s : Int) + 1)
    | none => -400

end Ratio

/-- A positive double with the interval of the reals that round to it. -/
structure Rounding where
  value : Ratio
  low : Ratio
  high : Ratio
  closed : Bool

namespace Rounding

/-- The double `mantissa · 2 ^ exponent`. Below a power of two the doubles lie twice as dense, so
the lower half of the interval is half as wide there. -/
def ofBinary (mantissa : Nat) (exponent : Int) : Rounding :=
  let unit (n : Nat) : Ratio := (Ratio.mk n 1).scale 2 (exponent - 2)
  let narrow := mantissa = 1 <<< 52 ∧ -1074 < exponent
  { value := unit (4 * mantissa)
    low := unit (4 * mantissa - if narrow then 1 else 2)
    high := unit (4 * mantissa + 2)
    closed := mantissa % 2 = 0 }

def holds (r : Rounding) (a : Ratio) : Bool :=
  if r.closed then r.low.le a && a.le r.high else r.low.lt a && a.lt r.high

/-- The grid point with the given unit exponent that reads back, the nearer of the two if both
neighbours do; of two equally near ones the even one. -/
def onGrid (r : Rounding) (exponent : Int) : Option Nat :=
  let below := (r.value.scale 10 (-exponent)).floor
  let grid (n : Nat) : Ratio := (Ratio.mk n 1).scale 10 exponent
  match r.holds (grid below), r.holds (grid (below + 1)) with
  | true, false => some below
  | false, true => some (below + 1)
  | false, false => none
  | true, true =>
    let middle := (Ratio.mk (2 * below + 1) 2).scale 10 exponent
    if r.value.lt middle then some below
    else if middle.lt r.value then some (below + 1)
    else some (if below % 2 = 0 then below else below + 1)

/-- Drops factors of ten into the exponent. -/
def dropZeros : Nat → Nat → Int → Nat × Int
  | 0, digits, exponent => (digits, exponent)
  | fuel + 1, digits, exponent =>
    if digits % 10 = 0 ∧ digits ≠ 0 then dropZeros fuel (digits / 10) (exponent + 1)
    else (digits, exponent)

/-- The digits and the exponent of the shortest decimal in the interval. Seventeen digits always
suffice. -/
def shortest (r : Rounding) : Nat × Int :=
  let leading := r.value.leadingExponent
  let found := (List.range 17).findSome? (fun (k : Nat) ↦
    (r.onGrid (leading - k)).map (fun n ↦ (n, leading - (k : Int))))
  match found with
  | some (n, exponent) => dropZeros 20 n exponent
  | none => (0, 0)

end Rounding

/-- The shortest decimal that reads back as the double; `none` for infinities and not-a-number. -/
def ofFloat? (x : Float) : Option Decimal :=
  let bits : Nat := x.toBits.toNat
  let negative : Bool := bits >>> 63 = 1
  let biased : Nat := (bits >>> 52) % (1 <<< 11)
  let fraction : Nat := bits % (1 <<< 52)
  if biased = 2047 then none
  else if biased = 0 ∧ fraction = 0 then some ⟨negative, 0, 0⟩
  else
    let mantissa : Nat := if biased = 0 then fraction else (1 <<< 52) + fraction
    let exponent : Int := if biased = 0 then -1074 else (biased : Int) - 1075
    let (digits, power) := (Rounding.ofBinary mantissa exponent).shortest
    some ⟨negative, digits, power⟩

end Decimal

end PipelineOperator
