/-!
Hexadecimal digits: small ones are written, small and capital ones are read.
-/

set_option autoImplicit false
set_option relaxedAutoImplicit false

namespace PipelineOperator

namespace Text

def hexDigit (n : Nat) : Char := "0123456789abcdef".toList.getD n '0'

def hexValue? (c : Char) : Option Nat :=
  if '0' ≤ c ∧ c ≤ '9' then some (c.toNat - '0'.toNat)
  else if 'a' ≤ c ∧ c ≤ 'f' then some (c.toNat - 'a'.toNat + 10)
  else if 'A' ≤ c ∧ c ≤ 'F' then some (c.toNat - 'A'.toNat + 10)
  else none

theorem hexValue?_hexDigit {n : Nat} (h : n < 16) : hexValue? (hexDigit n) = some n := by
  have all : ∀ n : Fin 16, hexValue? (hexDigit n) = some n.val := by decide
  exact all ⟨n, h⟩

theorem hexValue?_toUpper {n : Nat} (h : n < 16) : hexValue? (hexDigit n).toUpper = some n := by
  have all : ∀ n : Fin 16, hexValue? (hexDigit n).toUpper = some n.val := by decide
  exact all ⟨n, h⟩

end Text

end PipelineOperator
